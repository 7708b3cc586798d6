import EsYoomoney.Persistence.EventStore

namespace Yoomoney

open EventSourcing DomainEvents BankAccountAggregate

/-- An object as a client first gets it, with the events it was rebuilt from and those it starts with. -/
inductive Obtained {Db : Type} (store : IDocumentStore Db) (db : Db) :
    BankAccountAggregate → List Event → List Event → Prop where
  | opened {accountId occuredAt account}
      (fresh : BankAccountAggregate.open accountId occuredAt = .ok account) :
      Obtained store db account [] [.accountBalanceInitializedTo accountId occuredAt]
  | loaded {id version account}
      (present : EventStore.loadAsync store db id version = .ok (some account)) :
      Obtained store db account (visible (store.stream db id) (version.getD 0)) []

theorem Obtained.live {Db : Type} {store : IDocumentStore Db} (lawful : store.Lawful) {db : Db}
    {account : BankAccountAggregate} {base start : List Event} (obtained : Obtained store db account base start) :
    Live account base start := by
  cases obtained with
  | opened fresh =>
    rw [open_eq] at fresh
    cases fresh
    exact Live.opened _ _
  | loaded present => exact (lawful.loadAsync_live present).1

/-- The four pieces of state agree: the version with the total events, its base with the uncommitted
    events, these with the calls, and the balance with the amounts they carry, in exact arithmetic where nothing has
    to be rounded. -/
structure Represents (loadedVersion : Nat) (loadedBalance : Decimal) (performed : List Event)
    (account : BankAccountAggregate) : Prop where
  total : account.version = account.getCommittedEvents.length
  base : account.version = loadedVersion + account.getUncommittedEvents.length
  uncommitted : account.getUncommittedEvents = performed
  balance : balanceAfter loadedBalance account.getUncommittedEvents = .ok account.balance
  exact : (∀ count, decimalFormat.Representable
      (loadedBalance.units + net (account.getUncommittedEvents.take count))) →
    account.balance.units = loadedBalance.units + net account.getUncommittedEvents

/-- No call repeats an earlier one at the same clock reading or the record of a loaded event. -/
def NoRepeatedRecord (accountId : Guid) (base : List Event) (operations : Operations) : Prop :=
  operations.Nodup ∧ ∀ call ∈ operations, call.1.event accountId call.2 ∉ base

theorem Operation.event_injective {accountId : Guid} {left right : Operation × DateTime}
    (same : left.1.event accountId left.2 = right.1.event accountId right.2) : left = right := by
  obtain ⟨left, leftAt⟩ := left
  obtain ⟨right, rightAt⟩ := right
  cases left <;> cases right <;> cases same <;> rfl

theorem noRepeatedRecord_iff (accountId : Guid) (base : List Event) (operations : Operations) :
    NoRepeatedRecord accountId base operations ↔
      (operations.events accountId).Nodup ∧ ∀ event ∈ operations.events accountId, event ∉ base := by
  have inject : (operations.events accountId).Nodup ↔ operations.Nodup :=
    List.nodup_map_iff fun _ _ same => Operation.event_injective same
  rw [NoRepeatedRecord, inject]
  simp only [Operations.events, List.forall_mem_map]

variable {account : BankAccountAggregate} {base pending : List Event}

theorem Live.represents_iff (live : Live account base pending) {loadedBalance : Decimal}
    (loaded : balanceAfter Decimal.zero base = .ok loadedBalance) :
    Represents base.length loadedBalance pending account ↔ (base ++ pending).Nodup := by
  have counted := OrderedSet.addAll_length_iff OrderedSet.empty (base ++ pending)
  simp only [OrderedSet.empty_toList, List.length_nil, Nat.zero_add, List.nil_append] at counted
  constructor
  · intro represents
    apply counted.mp
    have total := represents.total
    rw [live.version, getCommittedEvents, live.totalEvents] at total
    rw [← total, List.length_append]
  · intro distinct
    have kept : account.getUncommittedEvents = pending :=
      live.getUncommittedEvents (List.nodup_append.mp distinct).2.1
    have posted : balanceAfter loadedBalance account.getUncommittedEvents = .ok account.balance := by
      have whole := live.balance
      rw [balanceAfter_append, loaded] at whole
      rw [kept]
      exact whole
    refine ⟨?_, ?_, kept, posted, balanceAfter_net posted⟩
    · rw [live.version, getCommittedEvents, live.totalEvents, counted.mpr distinct, List.length_append]
    · rw [kept, live.version]

theorem Obtained.balance {Db : Type} {store : IDocumentStore Db} (lawful : store.Lawful) {db : Db}
    {account : BankAccountAggregate} {base start : List Event} (obtained : Obtained store db account base start) :
    balanceAfter Decimal.zero base = .ok account.balance := by
  have live := (obtained.live lawful).balance
  cases obtained with
  | opened fresh =>
    rw [open_eq] at fresh
    cases fresh
    rfl
  | loaded present => rwa [List.append_nil] at live

theorem Obtained.apart {Db : Type} {store : IDocumentStore Db} {db : Db} {account : BankAccountAggregate}
    {base start : List Event} (obtained : Obtained store db account base start) (operations : Operations) :
    (base ++ (start ++ operations.events account.id)).Nodup ↔
      base.Nodup ∧ (operations.events account.id).Nodup ∧
        ∀ event ∈ operations.events account.id, event ∉ base := by
  cases obtained with
  | opened fresh =>
    have outside : ∀ occuredAt accountId,
        Event.accountBalanceInitializedTo accountId occuredAt ∉ operations.events account.id := by
      intro occuredAt accountId member
      obtain ⟨call, -, same⟩ := List.mem_map.mp member
      have kind := congrArg Event.opensAccount same
      rw [Operation.event_opensAccount] at kind
      cases kind
    simp [outside]
  | loaded present =>
    rw [List.nil_append, List.nodup_append]
    constructor
    · intro distinct
      obtain ⟨old, new, apart⟩ := distinct
      exact ⟨old, new, fun event member past => apart event past event member rfl⟩
    · intro distinct
      obtain ⟨old, new, apart⟩ := distinct
      exact ⟨old, new, fun past member event fresh same => apart event fresh (same ▸ member)⟩

/-- An object keeps its representation through a sequence of calls exactly when no call builds a
    record equal to an earlier one; the sets then swallow it while version and balance move on. -/
theorem representation_iff {Db : Type} {store : IDocumentStore Db} (lawful : store.Lawful) {db : Db}
    {account result : BankAccountAggregate} {base start : List Event}
    (obtained : Obtained store db account base start) (distinct : base.Nodup) {operations : Operations}
    (performed : operations.performAll account = .ok result) :
    Represents base.length account.balance (start ++ operations.events account.id) result ↔
      NoRepeatedRecord account.id base operations := by
  have live := ((obtained.live lawful).performAll performed).1
  rw [live.represents_iff (obtained.balance lawful), obtained.apart, noRepeatedRecord_iff]
  exact and_iff_right distinct

def sampleDeposit : Operation := .deposit 7 sampleAmount.value "RUB" samplePayment

def severalCalls : Operations :=
  [(sampleDeposit, 5), (.createInvoice 8 sampleAmount.value, 5), (.withdrawn 9 sampleAmount.value, 5),
    (sampleDeposit, 6)]

theorem several_calls_represented :
    ∃ account result,
      EventStore.loadAsync inMemory [(1, .accountBalanceInitializedTo 1 0)] 1 none = .ok (some account) ∧
      Operations.performAll account severalCalls = .ok result ∧ result.version = 5 ∧
      Represents 1 account.balance (severalCalls.events 1) result := by
  refine ⟨_, _, rfl, rfl, rfl, ?_⟩
  have obtained := @Obtained.loaded _ inMemory [(1, .accountBalanceInitializedTo 1 0)] 1 none _ rfl
  exact (@representation_iff _ _ inMemory_lawful _ _ _ _ _ obtained (List.nodup_singleton _) severalCalls
    rfl).mpr ⟨by decide +kernel, by decide +kernel⟩

theorem repeated_deposit_not_represented :
    ∃ account result, BankAccountAggregate.open 1 0 = .ok account ∧
      Operations.performAll account [(sampleDeposit, 5), (sampleDeposit, 5)] = .ok result ∧
      result.version = 3 ∧ result.getCommittedEvents.length = 2 ∧ result.getUncommittedEvents.length = 2 ∧
      ¬ Represents 0 account.balance
        (.accountBalanceInitializedTo 1 0 :: Operations.events 1 [(sampleDeposit, 5), (sampleDeposit, 5)]) result := by
  refine ⟨_, _, rfl, rfl, rfl, rfl, rfl, fun represents => ?_⟩
  have total := represents.total
  contradiction

end Yoomoney
