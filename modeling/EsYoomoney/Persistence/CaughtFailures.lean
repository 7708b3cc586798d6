import EsYoomoney.Persistence.RepeatedSaves
import EsYoomoney.Persistence.ReplayEqualsLive

namespace Yoomoney

open EventSourcing DomainEvents BankAccountAggregate

/-- Calls on one object whose throws are caught: the object they leave, and those that went through. -/
def Operations.attemptAll (account : BankAccountAggregate) : Operations → BankAccountAggregate × Operations
  | [] => (account, [])
  | call :: operations =>
    match (call.1.perform call.2).run account with
    | .ok _ next => ((attemptAll next operations).1, call :: (attemptAll next operations).2)
    | .error _ kept => attemptAll kept operations

theorem Operations.attemptAll_performed (account : BankAccountAggregate) (operations : Operations) :
    (operations.attemptAll account).2.performAll account = .ok (operations.attemptAll account).1 := by
  induction operations generalizing account with
  | nil => rfl
  | cons call operations ih =>
    unfold attemptAll
    split
    · rename_i next performed
      simp only [performAll, construct, performed, Bind.bind, Except.bind]
      exact ih next
    · rename_i error kept thrown
      rw [perform_thrown thrown]
      exact ih account

theorem Operations.attemptAll_sublist (account : BankAccountAggregate) (operations : Operations) :
    (operations.attemptAll account).2.Sublist operations := by
  induction operations generalizing account with
  | nil => exact List.Sublist.refl _
  | cons call operations ih =>
    unfold attemptAll
    split
    · exact (ih _).cons_cons call
    · exact (ih _).cons call

variable {Db : Type} {store : IDocumentStore Db}

/-- A save of the object brings exactly these events, and is accepted when there are none or when its
    stream is still the one the object was built on. -/
structure Persists (store : IDocumentStore Db) (db : Db) (account : BankAccountAggregate) (base events : List Event) :
    Prop where
  accepted : (∃ after, EventStore.storeAsync store db account = .ok after) ↔
    events = [] ∨ store.stream db account.id = base
  stream : ∀ after, EventStore.storeAsync store db account = .ok after →
    store.stream after account.id = store.stream db account.id ++ events
  frame : ∀ after, EventStore.storeAsync store db account = .ok after →
    ∀ other, other ≠ account.id → store.stream after other = store.stream db other

theorem Live.persists (lawful : store.Lawful) {db : Db} {account : BankAccountAggregate} {base pending : List Event}
    (live : Live account base pending) (past : base <+: store.stream db account.id)
    (distinct : (pending.map Event.eventId).Nodup) : Persists store db account base pending := by
  have saved := @IDocumentStore.Lawful.storeAsync_eq _ store db _ _ _ live distinct
  refine ⟨?_, fun after stored => ?_, fun after stored => ?_⟩
  · rw [saved]
    by_cases empty : pending = []
    · subst empty
      exact iff_of_true ⟨db, lawful.streams.append_nil db account.id _⟩ (Or.inl rfl)
    · rw [lawful.streams.append_ok_iff past empty]
      exact (or_iff_right empty).symm
  · exact lawful.streams.append_stream (saved.symm.trans stored)
  · exact lawful.streams.append_frame (saved.symm.trans stored)

theorem Obtained.attempted (lawful : store.Lawful) {db later : Db} {objects : List BankAccountAggregate}
    (reachable : Reachable store db objects) {account : BankAccountAggregate} {base start : List Event}
    (obtained : Obtained store db account base start) {operations : Operations}
    (distinct : ((start ++ operations.events account.id).map Event.eventId).Nodup)
    (grown : store.stream db account.id <+: store.stream later account.id) :
    Persists store later (operations.attemptAll account).1 base
      (start ++ (operations.attemptAll account).2.events account.id) := by
  have performed := operations.attemptAll_performed account
  obtain ⟨live, sameId⟩ := (obtained.live lawful).performAll performed
  apply live.persists lawful
  · rw [sameId]
    exact (obtained.past lawful reachable).trans grown
  · have kept : ((operations.attemptAll account).2.events account.id).Sublist (operations.events account.id) :=
      (operations.attemptAll_sublist account).map _
    exact distinct.sublist ((kept.append_left start).map _)

namespace Clients

variable {ι : Type}

theorem lifeOf_located {journal : List (ι × Session)} {id : Guid} {place : Nat}
    {entry : Event × BankAccountAggregate} (found : (lifeOf journal id)[place]? = some entry) :
    ∃ earlier client session later offset, journal = earlier ++ (client, session) :: later ∧
      session.account.id = id ∧ place = (lifeOf earlier id).length + offset ∧
      session.history[offset]? = some entry := by
  induction journal using List.reverseRecOn with
  | nil => cases found
  | append_singleton journal last ih =>
    obtain ⟨client, session⟩ := last
    rw [lifeOf_append] at found
    by_cases early : place < (lifeOf journal id).length
    · rw [List.getElem?_append_left early] at found
      obtain ⟨earlier, other, otherSession, later, offset, rfl, sameId, position, inside⟩ := ih found
      exact ⟨earlier, other, otherSession, later ++ [(client, session)], offset, by simp, sameId, position, inside⟩
    · have reached : (lifeOf journal id).length ≤ place := Nat.le_of_not_lt early
      rw [List.getElem?_append_right reached] at found
      by_cases same : session.account.id = id
      · rw [if_pos same] at found
        exact ⟨journal, client, session, [], place - (lifeOf journal id).length, rfl, same, by omega, found⟩
      · rw [if_neg same] at found
        cases found

def Current (session : Session) : Prop :=
  ∀ event moment, session.history.getLast? = some (event, moment) → moment = session.account

/-- Every client holds the object its last successful call left, and a committed session was built on
    exactly the events of the sessions committed before it. -/
structure Settled (store : IDocumentStore Db) (start : Db) (clients : Clients Db ι) : Prop where
  current : ∀ client session, clients.phase client = .working session → Current session
  journal : ∀ earlier client session later, clients.journal = earlier ++ (client, session) :: later →
    Current session ∧ session.loaded =
      store.stream start session.account.id ++ (lifeOf earlier session.account.id).map (·.1)

namespace Settled

variable [DecidableEq ι] {start : Db} {clients after : Clients Db ι} {client : ι}

theorem setPhase (settled : Settled store start clients) {phase : Phase}
    (current : ∀ session, phase = .working session → Current session) :
    Settled store start (clients.setPhase client phase) := by
  refine ⟨?_, settled.journal⟩
  intro other session working
  by_cases same : other = client
  · subst same
    exact current session (by simpa [Clients.setPhase] using working)
  · exact settled.current other session (by simpa [Clients.setPhase, same] using working)

theorem commit (lawful : store.Lawful) (invariant : Invariant store start clients)
    (settled : Settled store start clients) {session : Session} {db : Db}
    (working : clients.phase client = .working session) (storable : session.storable = true)
    (saved : EventStore.storeAsync store clients.db session.account = .ok db) :
    Settled store start (clients.commit client session db) := by
  have sound := invariant.sessions client session working
  obtain ⟨filled, store_eq⟩ := sound.store_eq storable
  have whole := (lawful.streams.append_locked sound.past filled (store_eq.symm.trans saved)).1
  have moved : Settled store start (clients.setPhase client (.committed session)) := settled.setPhase nofun
  refine ⟨moved.current, ?_⟩
  intro earlier other otherSession later split
  rcases List.eq_nil_or_concat' later with rfl | ⟨rest, last, rfl⟩
  · obtain ⟨sameJournal, entry⟩ := List.append_inj' split rfl
    cases entry
    refine ⟨settled.current _ _ working, ?_⟩
    rw [← whole, invariant.streams, sameJournal]
  · rw [← List.cons_append, ← List.append_assoc] at split
    exact settled.journal earlier other otherSession rest (List.append_inj' split rfl).1

theorem step (lawful : store.Lawful) (invariant : Invariant store start clients)
    (settled : Settled store start clients) (taken : Step store clients client after) :
    Settled store start after := by
  cases taken with
  | loaded idle present =>
    apply settled.setPhase
    intro session same
    cases same
    intro event moment last
    cases last
  | opened absent fresh =>
    apply settled.setPhase
    intro session same
    cases same
    intro event moment last
    cases last
    rfl
  | operated working performed =>
    apply settled.setPhase
    intro session same
    cases same
    intro event moment last
    simp only [Session.record, List.getLast?_concat, Option.some.injEq, Prod.mk.injEq] at last
    exact last.2.symm
  | caught working =>
    apply settled.setPhase
    intro session same
    cases same
    exact settled.current _ _ working
  | committed working storable saved => exact settled.commit lawful invariant working storable saved
  | stopped running stop =>
    apply settled.setPhase
    rintro session rfl
    simp at stop

theorem run (lawful : store.Lawful) {start final : Clients Db ι} {labels : List (ι × ClientCall)}
    (initial : Initial store start) (runs : (machine store).Runs Machine.anyStep start labels final) :
    Settled store start.db final := by
  induction runs with
  | refl =>
    refine ⟨fun client session working => ?_, fun earlier client session later split => ?_⟩
    · rw [initial.phase] at working
      cases working
    · rw [initial.journal] at split
      exact absurd split (by simp)
  | step past permitted taken ih =>
    exact ih.step lawful (Invariant.run lawful initial past) (step_cases taken)

end Settled

/-- The version behind a committed call loads without overflow, as the object its client then held. -/
structure RestoresCommit (store : IDocumentStore Db) (clients : Clients Db ι) (id : Guid) (version : Nat)
    (client : ι) (session : Session) (place : Nat) (event : Event) (moment loaded : BankAccountAggregate) : Prop where
  committed : (client, session) ∈ clients.journal
  account : session.account.id = id
  performed : session.history[place]? = some (event, moment)
  position : version = session.loaded.length + place + 1
  stored : (store.stream clients.db id)[version - 1]? = some event
  present : EventStore.loadAsync store clients.db id (some version) = .ok (some loaded)
  reproduces : Reproduces version moment loaded
  last : place + 1 = session.history.length → moment = session.account

theorem loadAsync_committed [DecidableEq ι] (lawful : store.Lawful) {start clients : Clients Db ι}
    {labels : List (ι × ClientCall)} (initial : Initial store start) (unwritten : ∀ id, store.stream start.db id = [])
    (runs : (machine store).Runs Machine.anyStep start labels clients) {id : Guid} {version : Nat}
    (positive : 1 ≤ version) (bounded : version ≤ (store.stream clients.db id).length) :
    ∃ client session place event moment loaded,
      RestoresCommit store clients id version client session place event moment loaded := by
  have invariant := Invariant.run lawful initial runs
  have settled := Settled.run lawful initial runs
  obtain ⟨event, moment, loaded, found, present, reproduces⟩ :=
    invariant.loadAsync_version lawful unwritten positive bounded
  obtain ⟨earlier, client, session, later, place, split, rfl, position, inside⟩ := lifeOf_located found
  obtain ⟨current, base⟩ := settled.journal earlier client session later split
  rw [unwritten, List.nil_append] at base
  have counted := congrArg List.length base
  rw [List.length_map] at counted
  refine ⟨client, session, place, event, moment, loaded, ?_, rfl, inside, by omega, ?_, present, reproduces, ?_⟩
  · rw [split]
    exact List.mem_append_right _ List.mem_cons_self
  · rw [invariant.streams, unwritten, List.nil_append, List.getElem?_map, found]
    rfl
  · intro final
    apply current event moment
    rw [List.getLast?_eq_getElem?, ← final, Nat.add_sub_cancel]
    exact inside

end Clients

/-- A throw leaves its object as it was, so that a later save brings exactly the calls that went through;
    and every version of every stream that clients of this kind have built loads, as the object the
    client that committed its last event then held. -/
theorem failed_operations_leave_nothing {ι : Type} [DecidableEq ι] (lawful : store.Lawful) :
    (∀ {db later : Db} {objects account base start} {operations : Operations}, Reachable store db objects →
      Obtained store db account base start → ((start ++ operations.events account.id).map Event.eventId).Nodup →
      store.stream db account.id <+: store.stream later account.id →
      (∀ earlier call error kept, earlier ++ [call] <+: operations →
        (call.1.perform call.2).run (Operations.attemptAll account earlier).1 = .error error kept →
        kept = (Operations.attemptAll account earlier).1) ∧
      Persists store later (operations.attemptAll account).1 base
        (start ++ (operations.attemptAll account).2.events account.id)) ∧
    ∀ {start clients : Clients Db ι} {labels}, Clients.Initial store start →
      (∀ id, store.stream start.db id = []) → (Clients.machine store).Runs Machine.anyStep start labels clients →
      ∀ id version, 1 ≤ version → version ≤ (store.stream clients.db id).length →
        ∃ client session place event moment loaded,
          Clients.RestoresCommit store clients id version client session place event moment loaded := by
  constructor
  · intro db later objects account base start operations reachable obtained distinct grown
    exact ⟨fun earlier call error kept _ thrown => perform_thrown thrown,
      obtained.attempted lawful reachable distinct grown⟩
  · intro start clients labels initial unwritten runs id version positive bounded
    exact Clients.loadAsync_committed lawful initial unwritten runs positive bounded

def vastDeposit : Operation := .deposit 8 (Decimal.ofNat (2 ^ 96 - 1) (by decide)) "RUB" samplePayment

def openThenOverflow : List (Bool × ClientCall) :=
  [(true, .load 1 none), (true, .open 5), (true, .operate sampleDeposit 6), (true, .operate vastDeposit 7),
    (true, .store)]

theorem overflowing_deposit_left_out :
    ∃ account, BankAccountAggregate.open 1 5 = .ok account ∧
      Persists inMemory [] (Operations.attemptAll account [(sampleDeposit, 6), (vastDeposit, 7)]).1 []
        ([.accountBalanceInitializedTo 1 5] ++ Operations.events 1 [(sampleDeposit, 6)]) ∧
      ∃ clients client session place event moment loaded,
        (Clients.machine inMemory).exec Clients.fresh openThenOverflow = some clients ∧
        Clients.RestoresCommit inMemory clients 1 2 client session place event moment loaded := by
  have fresh : BankAccountAggregate.open 1 5 = .ok _ := rfl
  have obtained := @Obtained.opened _ inMemory [] 1 5 _ fresh
  have unwritten : Reachable inMemory [] [] := .empty fun _ => rfl
  obtain ⟨saves, loads⟩ := @failed_operations_leave_nothing _ inMemory Bool _ inMemory_lawful
  have persists := (@saves [] [] [] _ _ _ [(sampleDeposit, 6), (vastDeposit, 7)] unwritten obtained (by decide +kernel)
    (List.prefix_refl _)).2
  have reached := Machine.exec_last
    (show ((Clients.machine inMemory).exec Clients.fresh openThenOverflow).isSome = true by decide +kernel)
  obtain ⟨client, session, place, event, moment, loaded, commit⟩ := loads Clients.fresh_initial (fun _ => rfl)
    (Machine.exec_runs _ _ _ _ reached) 1 2 (by decide) (by decide +kernel)
  exact ⟨_, fresh, persists, _, client, session, place, event, moment, loaded, reached, commit⟩

end Yoomoney
