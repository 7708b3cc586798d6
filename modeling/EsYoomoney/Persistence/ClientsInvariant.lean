import EsYoomoney.Persistence.Clients

namespace Yoomoney

open EventSourcing DomainEvents BankAccountAggregate

/-- Replaying up to any event of a history, behind the given base, gives the object of that event. -/
def Traces (base : List Event) (history : List (Event × BankAccountAggregate)) : Prop :=
  ∀ place event moment, history[place]? = some (event, moment) →
    new.replay (base ++ (history.map (·.1)).take (place + 1)) =
      .ok { moment with uncommittedEvents := OrderedSet.empty }

theorem Traces.nil (base : List Event) : Traces base [] := by
  intro place event moment found
  cases found

theorem Traces.append {base : List Event} {left right : List (Event × BankAccountAggregate)}
    (past : Traces base left) (behind : Traces (base ++ left.map (·.1)) right) : Traces base (left ++ right) := by
  intro place event moment found
  rw [List.map_append]
  by_cases early : place < left.length
  · rw [List.getElem?_append_left early] at found
    rw [List.take_append_of_le_length (by simpa [Nat.succ_le_iff] using early)]
    exact past place event moment found
  · have reached : left.length ≤ place := Nat.le_of_not_lt early
    rw [List.getElem?_append_right reached] at found
    have replayed := behind (place - left.length) event moment found
    have position : place + 1 - left.length = place - left.length + 1 := by omega
    rw [List.take_append, List.length_map, List.take_of_length_le (by simp; omega), position, ← List.append_assoc]
    exact replayed

theorem Traces.snoc {base : List Event} {history : List (Event × BankAccountAggregate)} {event : Event}
    {account : BankAccountAggregate} (past : Traces base history)
    (live : Live account base (history.map (·.1) ++ [event])) : Traces base (history ++ [(event, account)]) := by
  apply past.append
  intro place other moment found
  cases place with
  | zero =>
    cases found
    rw [List.append_assoc]
    exact live.replayed
  | succ place => cases found

variable {Db : Type} {store : IDocumentStore Db}

structure Session.Sound (store : IDocumentStore Db) (db : Db) (session : Session) : Prop where
  inUse : InUse store db session.account session.loaded session.performed
  past : session.loaded <+: store.stream db session.account.id
  traced : Traces session.loaded session.history

namespace Session.Sound

theorem loaded (lawful : store.Lawful) {db : Db} {id : Guid} {version : Option Nat} {account : BankAccountAggregate}
    (rooted : RootedStore store db) (present : EventStore.loadAsync store db id version = .ok (some account)) :
    Sound store db ⟨account, visible (store.stream db id) (version.getD 0), []⟩ := by
  obtain ⟨live, stored⟩ := lawful.loadAsync_live present
  have sameId := lawful.loadAsync_id (rooted _) present
  refine ⟨⟨live, by simp [performed], Or.inl (by rw [sameId]; exact stored)⟩, ?_, Traces.nil _⟩
  rw [sameId]
  exact visible_initial _ _

theorem opened {db : Db} {id : Guid} {occuredAt : DateTime} {account : BankAccountAggregate}
    (fresh : BankAccountAggregate.open id occuredAt = .ok account) :
    Sound store db ⟨account, [], [(.accountBalanceInitializedTo id occuredAt, account)]⟩ := by
  rw [open_eq] at fresh
  cases fresh
  have live := Live.opened id occuredAt
  exact ⟨⟨live, by simp [performed, BankAccountAggregate.recorded, applied, Event.identify, Event.opensAccount],
    Or.inr ⟨_, _, rfl⟩⟩, List.nil_prefix, (Traces.nil []).snoc live⟩

theorem record {db : Db} {session : Session} (sound : Sound store db session) {operation : Operation}
    {occuredAt : DateTime} {account : BankAccountAggregate}
    (performed : (operation.perform occuredAt).run session.account = .ok () account) :
    Sound store db (session.record (operation.event session.account.id occuredAt) account) := by
  obtain ⟨live, sameId⟩ := sound.inUse.live.perform performed
  refine ⟨⟨?_, ?_, ?_⟩, ?_, sound.traced.snoc live⟩
  · rw [record_performed]
    exact live
  · intro event member
    rw [record_performed, List.mem_append, List.mem_singleton] at member
    rcases member with old | rfl
    · exact (sound.inUse.carried event old).trans sameId.symm
    · rw [Operation.event_streamId]
      exact sameId.symm
  · rw [record_performed, record_account, sameId]
    exact sound.inUse.origin.imp_right fun ⟨openedAt, rest, opening⟩ => ⟨openedAt, _, by rw [opening]; rfl⟩
  · rw [record_account, sameId]
    exact sound.past

theorem mono {db after : Db} {session : Session} (sound : Sound store db session)
    (grows : store.stream db session.account.id <+: store.stream after session.account.id) :
    Sound store after session :=
  ⟨sound.inUse.mono grows, sound.past.trans grows, sound.traced⟩

theorem store_eq {db : Db} {session : Session} (sound : Sound store db session) (storable : session.storable = true) :
    session.performed ≠ [] ∧ EventStore.storeAsync store db session.account =
      store.append db session.account.id (session.loaded.length + session.performed.length) session.performed := by
  simp only [Session.storable, Bool.and_eq_true, Bool.not_eq_true', decide_eq_true_eq] at storable
  refine ⟨?_, IDocumentStore.Lawful.storeAsync_eq sound.inUse.live storable.2⟩
  simpa [performed] using storable.1

end Session.Sound

namespace Clients

variable {ι : Type}

structure Invariant (store : IDocumentStore Db) (start : Db) (clients : Clients Db ι) : Prop where
  rooted : RootedStore store clients.db
  sessions : ∀ client session, clients.phase client = .working session → session.Sound store clients.db
  streams : ∀ id, store.stream clients.db id = store.stream start id ++ (lifeOf clients.journal id).map (·.1)
  traced : ∀ id, Traces (store.stream start id) (lifeOf clients.journal id)
  once : (clients.journal.map (·.1)).Nodup
  committed : ∀ client session, (client, session) ∈ clients.journal ↔ clients.phase client = .committed session

theorem Initial.invariant (lawful : store.Lawful) {start : Clients Db ι} (initial : Initial store start) :
    Invariant store start.db start := by
  obtain ⟨objects, reachable⟩ := initial.reachable
  refine ⟨(reachable.invariant lawful).1, ?_, ?_, ?_, ?_, ?_⟩
  · intro client session working
    rw [initial.phase] at working
    cases working
  · intro id
    rw [initial.journal]
    exact (List.append_nil _).symm
  · intro id
    rw [initial.journal]
    exact Traces.nil _
  · rw [initial.journal]
    exact List.nodup_nil
  · intro client session
    rw [initial.journal, initial.phase]
    exact iff_of_false (List.not_mem_nil) nofun

namespace Invariant

variable [DecidableEq ι] {start : Db} {clients after : Clients Db ι} {client : ι}

theorem setPhase (invariant : Invariant store start clients) {phase : Phase}
    (running : ∀ session, clients.phase client ≠ .committed session) (pending : ∀ session, phase ≠ .committed session)
    (sound : ∀ session, phase = .working session → session.Sound store clients.db) :
    Invariant store start (clients.setPhase client phase) := by
  refine ⟨invariant.rooted, ?_, invariant.streams, invariant.traced, invariant.once, ?_⟩
  · intro other session working
    by_cases same : other = client
    · subst same
      exact sound session (by simpa [Clients.setPhase] using working)
    · exact invariant.sessions other session (by simpa [Clients.setPhase, same] using working)
  · intro other session
    have before := invariant.committed other session
    by_cases same : other = client
    · subst same
      simpa [Clients.setPhase, pending, running] using before
    · simpa [Clients.setPhase, same] using before

omit [DecidableEq ι] in
theorem unlisted (invariant : Invariant store start clients) {session : Session}
    (working : clients.phase client = .working session) (other : Session) : (client, other) ∉ clients.journal := by
  rw [invariant.committed client other, working]
  exact nofun

theorem streams_commit (lawful : store.Lawful) (invariant : Invariant store start clients) {session : Session} {db : Db}
    (appended : store.append clients.db session.account.id (session.loaded.length + session.performed.length)
      session.performed = .ok db) (id : Guid) :
    store.stream db id = store.stream start id ++ (lifeOf (clients.commit client session db).journal id).map (·.1) := by
  have before := invariant.streams id
  rw [Clients.commit, lifeOf_append]
  by_cases same : session.account.id = id
  · subst same
    rw [lawful.streams.append_stream appended, before, if_pos rfl, List.map_append, List.append_assoc]
    rfl
  · rw [lawful.streams.append_frame appended id (Ne.symm same), before, if_neg same, List.append_nil]

theorem commit (lawful : store.Lawful) (invariant : Invariant store start clients) {session : Session} {db : Db}
    (working : clients.phase client = .working session) (storable : session.storable = true)
    (saved : EventStore.storeAsync store clients.db session.account = .ok db) :
    Invariant store start (clients.commit client session db) := by
  have sound := invariant.sessions client session working
  obtain ⟨filled, store_eq⟩ := sound.store_eq storable
  have appended := store_eq.symm.trans saved
  -- the store was accepted, so the prefix this session loaded is still the whole stream
  obtain ⟨current, landed⟩ := lawful.streams.append_locked sound.past filled appended
  refine ⟨sound.inUse.rooted lawful invariant.rooted saved, ?_, ?_, ?_, ?_, ?_⟩
  · intro other otherSession otherWorking
    by_cases same : other = client
    · subst same
      simp [Clients.commit, Clients.setPhase] at otherWorking
    · have before : clients.phase other = .working otherSession := by
        simpa [Clients.commit, Clients.setPhase, same] using otherWorking
      exact (invariant.sessions other otherSession before).mono (lawful.streams.append_grows appended _)
  · exact invariant.streams_commit lawful appended
  · intro id
    rw [Clients.commit, lifeOf_append]
    apply (invariant.traced id).append
    rw [← invariant.streams id]
    by_cases same : session.account.id = id
    · subst same
      rw [if_pos rfl, current]
      exact sound.traced
    · rw [if_neg same]
      exact Traces.nil _
  · have fresh : client ∉ clients.journal.map (·.1) := by
      intro member
      obtain ⟨⟨_, old⟩, listed, rfl⟩ := List.mem_map.mp member
      exact invariant.unlisted working old listed
    rw [Clients.commit, List.map_append]
    refine List.nodup_append.mpr ⟨invariant.once, List.nodup_singleton _, ?_⟩
    rintro other member _ single rfl
    rw [List.map_singleton, List.mem_singleton] at single
    subst single
    exact fresh member
  · intro other otherSession
    have before := invariant.committed other otherSession
    by_cases same : other = client
    · subst same
      have away := invariant.unlisted working otherSession
      simp [Clients.commit, Clients.setPhase, away, eq_comm]
    · simpa [Clients.commit, Clients.setPhase, same] using before

theorem step (lawful : store.Lawful) (invariant : Invariant store start clients)
    (taken : Step store clients client after) : Invariant store start after := by
  cases taken with
  | loaded idle present =>
    refine invariant.setPhase (by simp [idle]) nofun ?_
    intro session same
    cases same
    exact Session.Sound.loaded lawful invariant.rooted present
  | opened absent fresh =>
    refine invariant.setPhase (by simp [absent]) nofun ?_
    intro session same
    cases same
    exact Session.Sound.opened fresh
  | operated working performed =>
    refine invariant.setPhase (by simp [working]) nofun ?_
    intro session same
    cases same
    exact (invariant.sessions _ _ working).record performed
  | caught working =>
    refine invariant.setPhase (by simp [working]) nofun ?_
    intro session same
    cases same
    exact invariant.sessions _ _ working
  | committed working storable saved => exact invariant.commit lawful working storable saved
  | stopped running stop =>
    apply invariant.setPhase running
    · rintro session rfl
      simp at stop
    · rintro session rfl
      simp at stop

theorem run (lawful : store.Lawful) {start final : Clients Db ι} {labels : List (ι × ClientCall)}
    (initial : Initial store start) (runs : (machine store).Runs Machine.anyStep start labels final) :
    Invariant store start.db final :=
  runs.invariant (initial.invariant lawful) fun _ _ _ invariant _ taken => invariant.step lawful (step_cases taken)

end Invariant

end Clients

end Yoomoney
