import EsYoomoney.System.Guid

namespace Yoomoney

inductive PaymentStatus where
  | pending
  | waitingForCapture
  | succeeded
  | canceled
deriving DecidableEq, Repr

structure Amount where
  value : Decimal
  currency : String
deriving DecidableEq

structure Confirmation where
  returnUrl : Option String
  enforce : Option Bool
  confirmationUrl : Option String
deriving DecidableEq

/-- The provider's payment object, as far as the service reads it. `reference` tells apart objects
    that are not equal to one another although every field read here agrees. -/
structure Payment where
  reference : Nat
  id : Option String
  merchantCustomerId : Option String
  amount : Option Amount
  confirmation : Option Confirmation
  status : PaymentStatus
deriving DecidableEq

def sampleAmount : Amount := ⟨Decimal.ofNat 100 (by decide), "RUB"⟩

def samplePayment : Payment where
  reference := 0
  id := some "00000000-0000-0000-0000-000000000007"
  merchantCustomerId := some "00000000-0000-0000-0000-000000000001"
  amount := some sampleAmount
  confirmation := some { returnUrl := none, enforce := none, confirmationUrl := some "http://localhost" }
  status := .succeeded

def otherPayment : Payment := { samplePayment with id := some "00000000-0000-0000-0000-000000000008" }

namespace DomainEvents

/-- The event records. Equality is structural, over the kind, every field and the time of creation. -/
inductive Event where
  | accountBalanceInitializedTo (accountId : Guid) (occuredAt : DateTime)
  | invoiceCreatedDomainEvent (invoiceId accountId : Guid) (amount : Decimal) (occuredAt : DateTime)
  | moneyDepositedDomainEvent (invoiceId accountId : Guid) (amount : Decimal) (currency : String)
      (metadata : Payment) (occuredAt : DateTime)
  | moneyWithdrawnDomainEvent (operationId accountId : Guid) (amount : Decimal) (occuredAt : DateTime)
deriving DecidableEq

namespace Event

def eventId : Event → Guid
  | accountBalanceInitializedTo accountId _ => accountId
  | invoiceCreatedDomainEvent invoiceId _ _ _ => invoiceId
  | moneyDepositedDomainEvent invoiceId _ _ _ _ _ => invoiceId
  | moneyWithdrawnDomainEvent operationId _ _ _ => operationId

def streamId : Event → Guid
  | accountBalanceInitializedTo accountId _ => accountId
  | invoiceCreatedDomainEvent _ accountId _ _ => accountId
  | moneyDepositedDomainEvent _ accountId _ _ _ _ => accountId
  | moneyWithdrawnDomainEvent _ accountId _ _ => accountId

def createdInvoice : Event → Option Guid
  | invoiceCreatedDomainEvent invoiceId _ _ _ => some invoiceId
  | _ => none

def depositedInvoice : Event → Option Guid
  | moneyDepositedDomainEvent invoiceId _ _ _ _ _ => some invoiceId
  | _ => none

def depositedAmount : Event → Option Decimal
  | moneyDepositedDomainEvent _ _ amount _ _ _ => some amount
  | _ => none

def depositedPayment : Event → Option Payment
  | moneyDepositedDomainEvent _ _ _ _ metadata _ => some metadata
  | _ => none

def withdraws : Event → Bool
  | moneyWithdrawnDomainEvent _ _ _ _ => true
  | _ => false

def opensAccount : Event → Bool
  | accountBalanceInitializedTo _ _ => true
  | _ => false

/-- What an event changes its account's balance by. -/
def change : Event → Int
  | moneyDepositedDomainEvent _ _ amount _ _ _ => amount.units
  | moneyWithdrawnDomainEvent _ _ amount _ => -amount.units
  | _ => 0

end Event

end DomainEvents

open DomainEvents

def net (events : List Event) : Int := (events.map Event.change).sum

end Yoomoney
