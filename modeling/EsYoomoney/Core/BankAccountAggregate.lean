import EsYoomoney.Library.OrderedSet
import EsYoomoney.Core.DomainEvents

namespace Yoomoney

open EventSourcing DomainEvents

/-- `HashSet<T>` without removals: members are enumerated in the order of their first `Add`. -/
abbrev HashSet (α : Type) := OrderedSet α

/-- `Aggregate` together with its only subclass. -/
structure BankAccountAggregate where
  id : Guid
  -- an `int`, one higher with each event: 2 ^ 31 events, after which it would wrap, are more than the sets can hold,
  -- but for equal ones, and these would all have to be made within a tick of the clock
  version : Nat
  uncommittedEvents : HashSet Event
  totalEvents : HashSet Event
  balance : Decimal

/-- An instance method: a throw keeps whatever the object was already changed to. -/
abbrev Method := EStateM Exception BankAccountAggregate

namespace BankAccountAggregate

def new : BankAccountAggregate := ⟨Guid.Empty, 0, OrderedSet.empty, OrderedSet.empty, Decimal.zero⟩

def getUncommittedEvents (account : BankAccountAggregate) : List Event := account.uncommittedEvents.toList

def getCommittedEvents (account : BankAccountAggregate) : List Event := account.totalEvents.toList

def increaseVersion : Method Unit := modify fun account => { account with version := account.version + 1 }

def addTotal (event : Event) : Method Unit :=
  modify fun account => { account with totalEvents := account.totalEvents.add event }

def addUncommitted (event : Event) : Method Unit :=
  modify fun account => { account with uncommittedEvents := account.uncommittedEvents.add event }

def updateBalance (change : Decimal → Except Exception Decimal) : Method Unit := do
  match change (← get).balance with
  | .ok balance => modify fun account => { account with balance }
  | .error error => throw error

def apply (event : Event) : Method Unit := do
  match event with
  | .invoiceCreatedDomainEvent _ _ _ _ =>
    increaseVersion
    addTotal event
  | .accountBalanceInitializedTo _ _ =>
    modify fun account => { account with id := event.streamId }
    increaseVersion
    addTotal event
  | .moneyDepositedDomainEvent _ _ amount _ _ _ =>
    updateBalance (·.add amount)
    increaseVersion
    addTotal event
  | .moneyWithdrawnDomainEvent _ _ amount _ =>
    updateBalance (·.sub amount)
    increaseVersion
    addTotal event

/-- Runs code on an object nobody else holds: a throw leaves no object behind. -/
def construct (body : Method Unit) (account : BankAccountAggregate) : Except Exception BankAccountAggregate :=
  match body.run account with
  | .ok _ result => .ok result
  | .error error _ => .error error

theorem construct_ok {body : Method Unit} {account result : BankAccountAggregate}
    (constructed : construct body account = .ok result) : body.run account = .ok () result := by
  unfold construct at constructed
  split at constructed
  · rename_i ran
    cases constructed
    exact ran
  · cases constructed

def createInvoice (invoiceId : Guid) (amount : Decimal) (occuredAt : DateTime) : Method Unit := do
  let event := Event.invoiceCreatedDomainEvent invoiceId (← get).id amount occuredAt
  apply event
  addUncommitted event

def deposit (invoiceId : Guid) (amount : Decimal) (currency : String) (metadata : Payment)
    (occuredAt : DateTime) : Method Unit := do
  let event := Event.moneyDepositedDomainEvent invoiceId (← get).id amount currency metadata occuredAt
  apply event
  addUncommitted event

def withdrawn (operationId : Guid) (amount : Decimal) (occuredAt : DateTime) : Method Unit := do
  let event := Event.moneyWithdrawnDomainEvent operationId (← get).id amount occuredAt
  apply event
  addUncommitted event

end BankAccountAggregate

/-- The clock readings of an operation are passed to it, as is the id a withdrawal makes for itself. -/
def BankAccountAggregate.open (accountId : Guid) (occuredAt : DateTime) : Except Exception BankAccountAggregate :=
  let event := Event.accountBalanceInitializedTo accountId occuredAt
  construct (do apply event; addUncommitted event) new

inductive Operation where
  | createInvoice (invoiceId : Guid) (amount : Decimal)
  | deposit (invoiceId : Guid) (amount : Decimal) (currency : String) (metadata : Payment)
  | withdrawn (operationId : Guid) (amount : Decimal)
deriving DecidableEq

namespace Operation

def perform (occuredAt : DateTime) : Operation → Method Unit
  | createInvoice invoiceId amount => BankAccountAggregate.createInvoice invoiceId amount occuredAt
  | deposit invoiceId amount currency metadata =>
    BankAccountAggregate.deposit invoiceId amount currency metadata occuredAt
  | withdrawn operationId amount => BankAccountAggregate.withdrawn operationId amount occuredAt

def event (accountId : Guid) (occuredAt : DateTime) : Operation → Event
  | createInvoice invoiceId amount => .invoiceCreatedDomainEvent invoiceId accountId amount occuredAt
  | deposit invoiceId amount currency metadata =>
    .moneyDepositedDomainEvent invoiceId accountId amount currency metadata occuredAt
  | withdrawn operationId amount => .moneyWithdrawnDomainEvent operationId accountId amount occuredAt

@[simp] theorem event_streamId (accountId : Guid) (occuredAt : DateTime) (operation : Operation) :
    (operation.event accountId occuredAt).streamId = accountId := by
  cases operation <;> rfl

@[simp] theorem event_opensAccount (accountId : Guid) (occuredAt : DateTime) (operation : Operation) :
    (operation.event accountId occuredAt).opensAccount = false := by
  cases operation <;> rfl

end Operation

namespace DomainEvents.Event

def post (balance : Decimal) : Event → Except Exception Decimal
  | moneyDepositedDomainEvent _ _ amount _ _ _ => balance.add amount
  | moneyWithdrawnDomainEvent _ _ amount _ => balance.sub amount
  | _ => .ok balance

theorem post_exact {event : Event} {balance : Decimal}
    (fits : decimalFormat.Representable (balance.units + event.change)) :
    event.post balance = .ok ⟨balance.units + event.change, fits⟩ := by
  cases event with
  | moneyDepositedDomainEvent invoiceId accountId amount currency metadata occuredAt => exact Decimal.add_exact fits
  | moneyWithdrawnDomainEvent operationId accountId amount occuredAt => exact @Decimal.sub_exact balance amount fits
  | _ =>
    have kept : balance = ⟨balance.units + 0, fits⟩ := by
      cases balance
      simp
    exact congrArg _ kept

theorem post_nonneg {event : Event} {before after : Decimal} (posted : event.post before = .ok after)
    (covered : 0 ≤ before.units + event.change) : 0 ≤ after.units := by
  cases event with
  | moneyDepositedDomainEvent invoiceId accountId amount currency metadata occuredAt =>
    exact Decimal.add_nonneg posted covered
  | moneyWithdrawnDomainEvent operationId accountId amount occuredAt =>
    exact Decimal.sub_nonneg posted (Int.le_of_sub_nonneg covered)
  | _ =>
    cases posted
    exact covered.trans_eq (Int.add_zero _)

def identify (id : Guid) (event : Event) : Guid := if event.opensAccount then event.streamId else id

end DomainEvents.Event

namespace BankAccountAggregate

def applied (account : BankAccountAggregate) (event : Event) (balance : Decimal) : BankAccountAggregate :=
  { account with
    id := event.identify account.id
    version := account.version + 1
    totalEvents := account.totalEvents.add event
    balance }

theorem updateBalance_run (change : Decimal → Except Exception Decimal) (account : BankAccountAggregate) :
    (updateBalance change).run account = match change account.balance with
      | .ok balance => .ok () { account with balance }
      | .error error => .error error account := by
  have read : (updateBalance change).run account = EStateM.run (match change account.balance with
      | .ok balance => modify fun account => { account with balance }
      | .error error => throw error) account := rfl
  rw [read]
  cases change account.balance <;> rfl

theorem apply_run (event : Event) (account : BankAccountAggregate) :
    (apply event).run account = match event.post account.balance with
      | .ok balance => .ok () (account.applied event balance)
      | .error error => .error error account := by
  cases event with
  | accountBalanceInitializedTo accountId occuredAt => rfl
  | invoiceCreatedDomainEvent invoiceId accountId amount occuredAt => rfl
  | moneyDepositedDomainEvent invoiceId accountId amount currency metadata occuredAt =>
    have updated := updateBalance_run (·.add amount) account
    simp only [apply, Event.post, EStateM.run, bind, EStateM.bind] at updated ⊢
    rw [updated]
    cases account.balance.add amount <;> rfl
  | moneyWithdrawnDomainEvent operationId accountId amount occuredAt =>
    have updated := updateBalance_run (·.sub amount) account
    simp only [apply, Event.post, EStateM.run, bind, EStateM.bind] at updated ⊢
    rw [updated]
    cases account.balance.sub amount <;> rfl

def recorded (account : BankAccountAggregate) (event : Event) (balance : Decimal) : BankAccountAggregate :=
  { account.applied event balance with uncommittedEvents := account.uncommittedEvents.add event }

theorem record_run (event : Event) (account : BankAccountAggregate) :
    (do apply event; addUncommitted event : Method Unit).run account = match event.post account.balance with
      | .ok balance => .ok () (account.recorded event balance)
      | .error error => .error error account := by
  have step := apply_run event account
  simp only [EStateM.run, bind, EStateM.bind] at step ⊢
  rw [step]
  cases event.post account.balance <;> rfl

theorem perform_run (operation : Operation) (occuredAt : DateTime) (account : BankAccountAggregate) :
    (operation.perform occuredAt).run account =
      match (operation.event account.id occuredAt).post account.balance with
      | .ok balance => .ok () (account.recorded (operation.event account.id occuredAt) balance)
      | .error error => .error error account := by
  cases operation with
  | createInvoice invoiceId amount =>
    exact record_run (.invoiceCreatedDomainEvent invoiceId account.id amount occuredAt) account
  | deposit invoiceId amount currency metadata =>
    exact record_run (.moneyDepositedDomainEvent invoiceId account.id amount currency metadata occuredAt) account
  | withdrawn operationId amount =>
    exact record_run (.moneyWithdrawnDomainEvent operationId account.id amount occuredAt) account

theorem perform_ok {operation : Operation} {occuredAt : DateTime} {account result : BankAccountAggregate}
    (performed : (operation.perform occuredAt).run account = .ok () result) :
    ∃ balance, (operation.event account.id occuredAt).post account.balance = .ok balance ∧
      result = account.recorded (operation.event account.id occuredAt) balance := by
  rw [perform_run] at performed
  split at performed
  · rename_i balance posted
    cases performed
    exact ⟨balance, posted, rfl⟩
  · cases performed

theorem perform_thrown {operation : Operation} {occuredAt : DateTime} {account kept : BankAccountAggregate}
    {error : Exception} (thrown : (operation.perform occuredAt).run account = .error error kept) : kept = account := by
  rw [perform_run] at thrown
  split at thrown <;> cases thrown
  rfl

theorem open_eq (accountId : Guid) (occuredAt : DateTime) :
    BankAccountAggregate.open accountId occuredAt =
      .ok (new.recorded (.accountBalanceInitializedTo accountId occuredAt) Decimal.zero) := rfl

def replay (account : BankAccountAggregate) : List Event → Except Exception BankAccountAggregate
  | [] => .ok account
  | event :: events => do
    let next ← construct (apply event) account
    replay next events

def balanceAfter (balance : Decimal) : List Event → Except Exception Decimal
  | [] => .ok balance
  | event :: events => do
    let next ← event.post balance
    balanceAfter next events

theorem balanceAfter_append (balance : Decimal) (left right : List Event) :
    balanceAfter balance (left ++ right) = (balanceAfter balance left).bind (balanceAfter · right) := by
  induction left generalizing balance with
  | nil => rfl
  | cons event events ih =>
    simp only [List.cons_append, balanceAfter, Bind.bind]
    cases event.post balance with
    | error error => rfl
    | ok next => exact ih next

/-- Where every partial sum has a representation, nothing is rounded. -/
theorem balanceAfter_net {balance final : Decimal} {events : List Event}
    (posted : balanceAfter balance events = .ok final)
    (representable : ∀ count, decimalFormat.Representable (balance.units + net (events.take count))) :
    final.units = balance.units + net events := by
  induction events generalizing balance with
  | nil =>
    cases posted
    exact (Int.add_zero _).symm
  | cons event events ih =>
    have fits : decimalFormat.Representable (balance.units + event.change) := by simpa [net] using representable 1
    have rest := @ih ⟨balance.units + event.change, fits⟩ (by rwa [balanceAfter, Event.post_exact fits] at posted)
      fun count => by simpa [net, Int.add_assoc] using representable (count + 1)
    rw [rest, net, net, List.map_cons, List.sum_cons, Int.add_assoc]

def replayed (account : BankAccountAggregate) (events : List Event) (balance : Decimal) : BankAccountAggregate :=
  { account with
    id := events.foldl Event.identify account.id
    version := account.version + events.length
    totalEvents := account.totalEvents.addAll events
    balance }

theorem construct_apply (event : Event) (account : BankAccountAggregate) :
    construct (apply event) account = (event.post account.balance).map (account.applied event) := by
  unfold construct
  rw [apply_run]
  cases event.post account.balance <;> rfl

theorem replay_eq (account : BankAccountAggregate) (events : List Event) :
    account.replay events = (balanceAfter account.balance events).map (account.replayed events) := by
  induction events generalizing account with
  | nil => rfl
  | cons event events ih =>
    simp only [replay, balanceAfter, construct_apply, Bind.bind]
    cases posted : event.post account.balance with
    | error error => rfl
    | ok balance =>
      simp only [Except.map, Except.bind]
      rw [ih]
      change Except.map _ (balanceAfter balance events) = Except.map _ (balanceAfter balance events)
      congr 1
      funext final
      simp only [replayed, applied, List.foldl_cons, List.length_cons, OrderedSet.addAll_cons]
      congr 1
      omega

theorem replay_append (account : BankAccountAggregate) (left right : List Event) :
    account.replay (left ++ right) = (account.replay left).bind (·.replay right) := by
  induction left generalizing account with
  | nil => rfl
  | cons event events ih =>
    simp only [List.cons_append, replay, Bind.bind]
    cases construct (apply event) account with
    | error error => rfl
    | ok next => exact ih next

theorem replay_ok {account result : BankAccountAggregate} {events : List Event}
    (replayed : account.replay events = .ok result) :
    balanceAfter account.balance events = .ok result.balance ∧
      result = account.replayed events result.balance := by
  rw [replay_eq] at replayed
  cases posted : balanceAfter account.balance events with
  | error error => rw [posted] at replayed; cases replayed
  | ok balance => rw [posted] at replayed; cases replayed; exact ⟨rfl, rfl⟩

end BankAccountAggregate

end Yoomoney
