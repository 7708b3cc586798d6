import EsYoomoney.Persistence.EventStore

namespace Yoomoney

open EventSourcing DomainEvents BankAccountAggregate

/-- The stores and objects that any number of clients of the aggregate and the event store can
    reach, in any order of their calls. An object may be stored again, or after another one. -/
inductive Reachable {Db : Type} (store : IDocumentStore Db) : Db → List BankAccountAggregate → Prop where
  | empty {db} (none : ∀ id, store.stream db id = []) : Reachable store db []
  | opened {db objects accountId occuredAt account} (past : Reachable store db objects)
      (fresh : BankAccountAggregate.open accountId occuredAt = .ok account) :
      Reachable store db (account :: objects)
  | loaded {db objects id version account} (past : Reachable store db objects)
      (present : EventStore.loadAsync store db id version = .ok (some account)) :
      Reachable store db (account :: objects)
  | operated {db left right account result} {operation : Operation} {occuredAt : DateTime}
      (past : Reachable store db (left ++ account :: right))
      (performed : (operation.perform occuredAt).run account = .ok () result) :
      Reachable store db (left ++ result :: right)
  | stored {db after objects account} (past : Reachable store db objects) (inUse : account ∈ objects)
      (saved : EventStore.storeAsync store db account = .ok after) : Reachable store after objects

/-- An object rebuilt from a stored stream, or one whose pending events open its account. -/
structure InUse {Db : Type} (store : IDocumentStore Db) (db : Db) (account : BankAccountAggregate)
    (base pending : List Event) : Prop where
  live : Live account base pending
  carried : ∀ event ∈ pending, event.streamId = account.id
  origin : store.stream db account.id ≠ [] ∨
    ∃ occuredAt rest, pending = .accountBalanceInitializedTo account.id occuredAt :: rest

def RootedStore {Db : Type} (store : IDocumentStore Db) (db : Db) : Prop :=
  ∀ id, store.stream db id ≠ [] → Rooted id (store.stream db id)

theorem InUse.mono {Db : Type} {store : IDocumentStore Db} {db after : Db} {account : BankAccountAggregate}
    {base pending : List Event} (inUse : InUse store db account base pending)
    (grows : store.stream db account.id <+: store.stream after account.id) :
    InUse store after account base pending := by
  refine ⟨inUse.live, inUse.carried, inUse.origin.imp_left fun present missing => present ?_⟩
  exact List.prefix_nil.mp (missing ▸ grows)

theorem storeAsync_appended {Db : Type} {store : IDocumentStore Db} {db after : Db}
    {account : BankAccountAggregate} (saved : EventStore.storeAsync store db account = .ok after) :
    store.append db account.id account.version account.getUncommittedEvents = .ok after := by
  unfold EventStore.storeAsync at saved
  dsimp only at saved
  split at saved
  · cases saved
  · exact saved

theorem InUse.rooted {Db : Type} {store : IDocumentStore Db} (lawful : store.Lawful) {db after : Db}
    {account : BankAccountAggregate} {base pending : List Event} (inUse : InUse store db account base pending)
    (rooted : RootedStore store db) (saved : EventStore.storeAsync store db account = .ok after) :
    RootedStore store after := by
  have appended := storeAsync_appended saved
  have batch : account.getUncommittedEvents = (OrderedSet.empty.addAll pending).toList := by
    rw [getUncommittedEvents, inUse.live.uncommitted]
  intro id present
  by_cases same : id = account.id
  · subst same
    have carried : ∀ event ∈ account.getUncommittedEvents, event.streamId = account.id := by
      intro event member
      rw [batch, OrderedSet.mem_addAll] at member
      exact inUse.carried event (by simpa using member)
    rw [lawful.streams.append_stream appended] at present ⊢
    by_cases existing : store.stream db account.id = []
    · rcases inUse.origin with stored | ⟨occuredAt, rest, opening⟩
      · exact absurd existing stored
      · obtain ⟨later, listed⟩ := OrderedSet.addAll_cons_toList (.accountBalanceInitializedTo account.id occuredAt) rest
        rw [existing, List.nil_append]
        exact ⟨⟨occuredAt, later, by rw [batch, opening, listed]⟩, carried⟩
    · exact (rooted _ existing).append carried
  · rw [lawful.streams.append_frame appended id same] at present ⊢
    exact rooted id present

theorem Reachable.invariant {Db : Type} {store : IDocumentStore Db} (lawful : store.Lawful) {db : Db}
    {objects : List BankAccountAggregate} (reachable : Reachable store db objects) :
    RootedStore store db ∧ ∀ account ∈ objects, ∃ base pending, InUse store db account base pending := by
  induction reachable with
  | empty none => exact ⟨fun id present => absurd (none id) present, by simp⟩
  | opened past fresh ih =>
    refine ⟨ih.1, List.forall_mem_cons.mpr ⟨?_, ih.2⟩⟩
    rw [open_eq] at fresh
    cases fresh
    exact ⟨_, _, Live.opened _ _, by simp [BankAccountAggregate.recorded, applied, Event.identify, Event.opensAccount],
      Or.inr ⟨_, _, rfl⟩⟩
  | loaded past present ih =>
    refine ⟨ih.1, List.forall_mem_cons.mpr ⟨?_, ih.2⟩⟩
    obtain ⟨live, stored⟩ := lawful.loadAsync_live present
    have sameId := lawful.loadAsync_id (ih.1 _) present
    exact ⟨_, _, live, by simp, Or.inl (by rw [sameId]; exact stored)⟩
  | operated past performed ih =>
    refine ⟨ih.1, ?_⟩
    intro object member
    rcases List.mem_append.mp member with before | here
    · exact ih.2 object (List.mem_append_left _ before)
    · rcases List.mem_cons.mp here with rfl | behind
      · obtain ⟨base, pending, inUse⟩ := ih.2 _ (List.mem_append_right _ List.mem_cons_self)
        obtain ⟨live, sameId⟩ := inUse.live.perform performed
        refine ⟨base, _, live, ?_, ?_⟩
        · intro event listed
          rcases List.mem_append.mp listed with old | new
          · rw [sameId, inUse.carried event old]
          · rw [List.mem_singleton.mp new, Operation.event_streamId, sameId]
        · rw [sameId]
          rcases inUse.origin with stored | ⟨occuredAt, rest, opening⟩
          · exact Or.inl stored
          · exact Or.inr ⟨occuredAt, _, by rw [opening]; rfl⟩
      · exact ih.2 object (List.mem_append_right _ (List.mem_cons_of_mem _ behind))
  | stored past listed saved ih =>
    obtain ⟨base, pending, inUse⟩ := ih.2 _ listed
    refine ⟨inUse.rooted lawful ih.1 saved, ?_⟩
    intro object member
    obtain ⟨objectBase, objectPending, objectInUse⟩ := ih.2 object member
    exact ⟨objectBase, objectPending, objectInUse.mono (lawful.streams.append_grows (storeAsync_appended saved) _)⟩

end Yoomoney
