import EsYoomoney.Library.Program
import EsYoomoney.Persistence.EventStore

namespace Yoomoney

open EventSourcing

structure Card where
  number : String
  expiryMonth : String
  expiryYear : String
  csc : String
deriving DecidableEq

inductive PaymentMethodType where
  | bankCard
deriving DecidableEq

structure PaymentMethod where
  type : PaymentMethodType
  card : Card
deriving DecidableEq

structure NewPayment where
  amount : Amount
  confirmation : Confirmation
  merchantCustomerId : Option String
  capture : Option Bool
  paymentMethodData : Option PaymentMethod
deriving DecidableEq

inductive Call where
  | createPayment (newPayment : NewPayment)
  | existsAsync (eventId : Guid)
  | loadAsync (id : Guid) (version : Option Nat)
  | storeAsync (aggregate : BankAccountAggregate)

abbrev Answer : Call → Type
  | .createPayment _ => Payment
  | .existsAsync _ => Bool
  | .loadAsync _ _ => Option BankAccountAggregate
  | .storeAsync _ => Unit

abbrev Handler (α : Type) := Program Call Answer Exception α

namespace Client

abbrev createPayment (newPayment : NewPayment) : Handler Payment := Program.perform (Call.createPayment newPayment)

end Client

namespace IEsEventStore

abbrev existsAsync (eventId : Guid) : Handler Bool := Program.perform (Call.existsAsync eventId)

abbrev loadAsync (id : Guid) (version : Option Nat) : Handler (Option BankAccountAggregate) :=
  Program.perform (Call.loadAsync id version)

abbrev storeAsync (aggregate : BankAccountAggregate) : Handler Unit := Program.perform (Call.storeAsync aggregate)

end IEsEventStore

/-- The event store answers from the database; the provider's reply to a creation is its own. -/
def respond {Db : Type} (store : IDocumentStore Db) (db : Db) (call : Call) (reply : Except Exception Payment) :
    Except Exception (Answer call) × Db :=
  match call with
  | .createPayment _ => (reply, db)
  | .existsAsync eventId => (.ok (EventStore.existsAsync store db eventId), db)
  | .loadAsync id version => (EventStore.loadAsync store db id version, db)
  | .storeAsync aggregate =>
    match EventStore.storeAsync store db aggregate with
    | .ok after => (.ok (), after)
    | .error error => (.error error, db)

def environment {Db : Type} (store : IDocumentStore Db) :
    Environment Db (Except Exception Payment) Call Answer Exception := ⟨respond store⟩

end Yoomoney
