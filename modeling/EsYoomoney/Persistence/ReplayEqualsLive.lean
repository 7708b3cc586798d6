import EsYoomoney.Persistence.ClientsInvariant
import EsYoomoney.Persistence.Representation

namespace Yoomoney

open EventSourcing DomainEvents BankAccountAggregate

structure Reproduces (length : Nat) (moment account : BankAccountAggregate) : Prop where
  id : account.id = moment.id
  balance : account.balance = moment.balance
  version : account.version = length
  live : moment.version = length
  committed : account.getCommittedEvents = moment.getCommittedEvents
  uncommitted : account.getUncommittedEvents = []

namespace Clients

variable {Db ι : Type} {store : IDocumentStore Db} {start clients : Clients Db ι}

theorem Invariant.loadAsync_version (lawful : store.Lawful) (invariant : Invariant store start.db clients)
    (unwritten : ∀ id, store.stream start.db id = []) {id : Guid} {version : Nat} (positive : 1 ≤ version)
    (bounded : version ≤ (store.stream clients.db id).length) :
    ∃ event moment account, (lifeOf clients.journal id)[version - 1]? = some (event, moment) ∧
      EventStore.loadAsync store clients.db id (some version) = .ok (some account) ∧
      Reproduces version moment account := by
  have stream : store.stream clients.db id = (lifeOf clients.journal id).map (·.1) := by
    rw [invariant.streams, unwritten, List.nil_append]
  have inside : version - 1 < (lifeOf clients.journal id).length := by
    rw [stream, List.length_map] at bounded
    omega
  obtain ⟨⟨event, moment⟩, found⟩ : ∃ entry, (lifeOf clients.journal id)[version - 1]? = some entry :=
    ⟨_, List.getElem?_eq_getElem inside⟩
  have replayed := invariant.traced id (version - 1) event moment found
  rw [unwritten, List.nil_append, Nat.sub_add_cancel positive, ← stream] at replayed
  have taken : ((store.stream clients.db id).take version).length = version := by
    rw [List.length_take, Nat.min_eq_left bounded]
  have counted := congrArg BankAccountAggregate.version (replay_ok replayed).2
  simp only [BankAccountAggregate.replayed, new, taken, Nat.zero_add] at counted
  refine ⟨event, moment, { moment with uncommittedEvents := OrderedSet.empty }, found, ?_,
    ⟨rfl, rfl, counted, counted, rfl, rfl⟩⟩
  rw [lawful.loadAsync_eq, visible, if_neg (by simpa using Nat.ne_of_gt positive)]
  apply aggregated_of_replay replayed
  intro none
  have empty := congrArg List.length none
  rw [taken, List.length_nil] at empty
  omega

/-- Every version of a stream loads as the object that was live right after the call that produced its
    last event; no version loads the last one, and an id without a stream loads as null. -/
theorem replay_equals_live [DecidableEq ι] (lawful : store.Lawful) {labels : List (ι × ClientCall)}
    (initial : Initial store start) (unwritten : ∀ id, store.stream start.db id = [])
    (runs : (machine store).Runs Machine.anyStep start labels clients) (id : Guid) :
    store.stream clients.db id = (lifeOf clients.journal id).map (·.1) ∧
    (∀ version, 1 ≤ version → version ≤ (store.stream clients.db id).length →
      ∃ event moment account, (lifeOf clients.journal id)[version - 1]? = some (event, moment) ∧
        EventStore.loadAsync store clients.db id (some version) = .ok (some account) ∧
        Reproduces version moment account) ∧
    EventStore.loadAsync store clients.db id none =
      EventStore.loadAsync store clients.db id (some (store.stream clients.db id).length) ∧
    (store.stream clients.db id = [] → ∀ version, EventStore.loadAsync store clients.db id version = .ok none) := by
  have invariant := Invariant.run lawful initial runs
  refine ⟨?_, fun _ positive bounded => invariant.loadAsync_version lawful unwritten positive bounded, ?_, ?_⟩
  · rw [invariant.streams, unwritten, List.nil_append]
  · have whole : visible (store.stream clients.db id) (store.stream clients.db id).length =
        store.stream clients.db id := by
      unfold visible
      split
      · rfl
      · exact List.take_length
    rw [lawful.loadAsync_eq, lawful.loadAsync_eq, Option.getD_some, whole]
    rfl
  · exact fun missing version => (lawful.loadAsync_none_iff _ _ _).mpr missing

def openThenDeposit : List (Bool × ClientCall) :=
  [(true, .load 1 none), (true, .open 5), (true, .store), (false, .load 1 none), (false, .operate sampleDeposit 7),
    (false, .store)]

theorem first_version_as_opened :
    ∃ final event moment account, (machine inMemory).exec fresh openThenDeposit = some final ∧
      (lifeOf final.journal 1)[0]? = some (event, moment) ∧
      EventStore.loadAsync inMemory final.db 1 (some 1) = .ok (some account) ∧ Reproduces 1 moment account := by
  have runs := Machine.exec_runs (machine inMemory) fresh openThenDeposit _ rfl
  obtain ⟨event, moment, account, found, loaded, reproduces⟩ :=
    (replay_equals_live inMemory_lawful fresh_initial (fun _ => rfl) runs 1).2.1 1 (by decide) (by decide +kernel)
  exact ⟨_, event, moment, account, rfl, found, loaded, reproduces⟩

end Clients

end Yoomoney
