import EsYoomoney.Library.StreamStore
import EsYoomoney.Core.LiveAggregate

namespace Yoomoney

open EventSourcing DomainEvents

/-- Marten's document store, as the service uses it. The code of Marten is not part of the
    repository, so its state and its calls are parameters. -/
structure IDocumentStore (Db : Type) extends StreamStore Db Guid Event Exception where
  query : Db → List Event
  aggregateStream : Db → Guid → Nat → Except Exception (Option BankAccountAggregate)

/-- The events an aggregation reads: those up to a version, or all of them for zero. -/
def visible (events : List Event) (version : Nat) : List Event :=
  if version = 0 then events else events.take version

def aggregated (events : List Event) : Except Exception (Option BankAccountAggregate) :=
  match events with
  | [] => .ok none
  | _ => (BankAccountAggregate.new.replay events).map some

/-- What is assumed of Marten: an atomic compare-and-append for each stream, a query that ranges
    over all stored events, and an aggregation that folds the appliers over lossless events. -/
structure IDocumentStore.Lawful {Db : Type} (store : IDocumentStore Db) : Prop where
  streams : store.toStreamStore.Lawful
  query_iff : ∀ db event, event ∈ store.query db ↔ ∃ id, event ∈ store.stream db id
  aggregateStream_eq : ∀ db id version,
    store.aggregateStream db id version = aggregated (visible (store.stream db id) version)

namespace EventStore

variable {Db : Type} (store : IDocumentStore Db)

def existsAsync (db : Db) (eventId : Guid) : Bool :=
  -- handed an event's id, but compared with StreamId, which is the account's
  ((store.query db).filter fun event => event.streamId = eventId).head?.isSome

def storeAsync (db : Db) (account : BankAccountAggregate) : Except Exception Db :=
  let events := account.getUncommittedEvents
  if (distinctBy Event.eventId events).length ≠ events.length then .error (.domainException "Has duplicated")
  else store.append db account.id account.version events

def loadAsync (db : Db) (id : Guid) (version : Option Nat) : Except Exception (Option BankAccountAggregate) :=
  store.aggregateStream db id (version.getD 0)

end EventStore

theorem visible_initial (events : List Event) (version : Nat) : visible events version <+: events := by
  unfold visible
  split
  · exact List.prefix_refl _
  · exact List.take_prefix _ _

theorem visible_nil_iff (events : List Event) (version : Nat) : visible events version = [] ↔ events = [] := by
  unfold visible
  split
  · rfl
  · rename_i positive
    simp [List.take_eq_nil_iff, positive]

theorem aggregated_none_iff (events : List Event) : aggregated events = .ok none ↔ events = [] := by
  cases events with
  | nil => exact iff_of_true rfl rfl
  | cons event events =>
    unfold aggregated
    cases BankAccountAggregate.new.replay (event :: events) <;> simp [Except.map]

theorem aggregated_some {events : List Event} {account : BankAccountAggregate}
    (aggregation : aggregated events = .ok (some account)) :
    BankAccountAggregate.new.replay events = .ok account ∧ events ≠ [] := by
  unfold aggregated at aggregation
  split at aggregation
  · cases aggregation
  · rename_i nonempty
    cases replayed : BankAccountAggregate.new.replay events with
    | error error => rw [replayed] at aggregation; cases aggregation
    | ok result => rw [replayed] at aggregation; cases aggregation; exact ⟨rfl, nonempty⟩

theorem aggregated_of_replay {events : List Event} {account : BankAccountAggregate}
    (replayed : BankAccountAggregate.new.replay events = .ok account) (nonempty : events ≠ []) :
    aggregated events = .ok (some account) := by
  cases events with
  | nil => contradiction
  | cons event events =>
    unfold aggregated
    rw [replayed]
    rfl

namespace IDocumentStore.Lawful

variable {Db : Type} {store : IDocumentStore Db}

theorem existsAsync_iff (lawful : store.Lawful) (db : Db) (eventId : Guid) :
    EventStore.existsAsync store db eventId = true ↔
      ∃ id, ∃ event ∈ store.stream db id, event.streamId = eventId := by
  unfold EventStore.existsAsync
  rw [List.isSome_head?, ne_eq, List.filter_eq_nil_iff]
  simp only [decide_eq_true_eq, not_forall, Decidable.not_not, lawful.query_iff, exists_prop]
  constructor
  · intro found
    obtain ⟨event, ⟨id, member⟩, same⟩ := found
    exact ⟨id, event, member, same⟩
  · intro stored
    obtain ⟨id, event, member, same⟩ := stored
    exact ⟨event, ⟨id, member⟩, same⟩

theorem loadAsync_eq (lawful : store.Lawful) (db : Db) (id : Guid) (version : Option Nat) :
    EventStore.loadAsync store db id version = aggregated (visible (store.stream db id) (version.getD 0)) :=
  lawful.aggregateStream_eq db id _

theorem loadAsync_none_iff (lawful : store.Lawful) (db : Db) (id : Guid) (version : Option Nat) :
    EventStore.loadAsync store db id version = .ok none ↔ store.stream db id = [] := by
  rw [lawful.loadAsync_eq, aggregated_none_iff, visible_nil_iff]

theorem loadAsync_live (lawful : store.Lawful) {db : Db} {id : Guid} {version : Option Nat}
    {account : BankAccountAggregate} (loaded : EventStore.loadAsync store db id version = .ok (some account)) :
    Live account (visible (store.stream db id) (version.getD 0)) [] ∧ store.stream db id ≠ [] := by
  rw [lawful.loadAsync_eq] at loaded
  obtain ⟨replayed, nonempty⟩ := aggregated_some loaded
  exact ⟨Live.loaded replayed, fun missing => nonempty ((visible_nil_iff _ _).mpr missing)⟩

theorem loadAsync_id (lawful : store.Lawful) {db : Db} {id : Guid} {version : Option Nat}
    {account : BankAccountAggregate} (rooted : store.stream db id ≠ [] → Rooted id (store.stream db id))
    (loaded : EventStore.loadAsync store db id version = .ok (some account)) : account.id = id := by
  obtain ⟨live, present⟩ := lawful.loadAsync_live loaded
  have root := (rooted present).of_initial (visible_initial _ (version.getD 0))
    (fun none => present ((visible_nil_iff _ _).mp none))
  rw [live.id, List.append_nil, root.identified]

theorem loadAsync_stored (lawful : store.Lawful) {db : Db} {id : Guid} {account : BankAccountAggregate}
    {base pending : List Event} (live : Live account base pending) (stored : store.stream db id = base ++ pending)
    (filled : pending ≠ []) :
    EventStore.loadAsync store db id none = .ok (some { account with uncommittedEvents := OrderedSet.empty }) := by
  rw [lawful.loadAsync_eq, Option.getD_none, visible, if_pos rfl, stored]
  exact aggregated_of_replay live.replayed (List.append_ne_nil_of_right_ne_nil _ filled)

theorem storeAsync_eq {db : Db} {account : BankAccountAggregate} {base pending : List Event}
    (live : Live account base pending) (distinct : (pending.map Event.eventId).Nodup) :
    EventStore.storeAsync store db account =
      store.append db account.id (base.length + pending.length) pending := by
  unfold EventStore.storeAsync
  simp only [live.getUncommittedEvents distinct.of_map, (distinctBy_length_iff _ _).mpr distinct, live.version,
    ne_eq, not_true_eq_false, if_false]

theorem storeAsync_duplicate {db : Db} {account : BankAccountAggregate}
    (duplicate : ¬ (account.getUncommittedEvents.map Event.eventId).Nodup) :
    EventStore.storeAsync store db account = .error (.domainException "Has duplicated") := by
  unfold EventStore.storeAsync
  exact if_pos fun same => duplicate ((distinctBy_length_iff _ _).mp same)

end IDocumentStore.Lawful

def inMemory : IDocumentStore (List (Guid × Event)) where
  toStreamStore := logStore Guid Event Exception .concurrencyException
  query log := log.map (·.2)
  aggregateStream log id version :=
    aggregated (visible ((logStore Guid Event Exception .concurrencyException).stream log id) version)

theorem inMemory_lawful : inMemory.Lawful where
  streams := logStore_lawful _
  query_iff log event := by
    simp [inMemory, logStore, List.mem_map, List.mem_filter]
  aggregateStream_eq _ _ _ := rfl

end Yoomoney
