import EsYoomoney.Application.Calls

namespace Yoomoney

open EventSourcing BankAccountAggregate

/-- `System.Uri`, by the text it was made from. -/
abbrev Uri := String

/-- What the process runs on: its environment variable, and which texts the framework takes for a URI. -/
structure Host where
  aspNetCoreEnvironment : Option String
  isUri : String → Bool

def sampleHost : Host := ⟨none, fun _ => true⟩

def Host.uri (host : Host) : Option String → Except Exception Uri
  | none => .error .argumentNullException
  | some text => if host.isUri text then .ok text else .error .uriFormatException

namespace YoomoneyInvoiceService

def testCard : PaymentMethod where
  type := .bankCard
  card := { number := "5555555555554444", expiryMonth := "01", expiryYear := "2029", csc := "234" }

def newPayment (host : Host) (accountId : Guid) (amount : Decimal) : NewPayment where
  confirmation := { returnUrl := some "http://localhost", enforce := some true, confirmationUrl := none }
  amount := { currency := "RUB", value := amount }
  merchantCustomerId := some accountId.toString
  capture := some false
  paymentMethodData := if host.aspNetCoreEnvironment = some "Development" then some testCard else none

def result (host : Host) (createdPayment : Payment) : Except Exception (Guid × Uri) := do
  let paymentId ← Guid.parse createdPayment.id
  match createdPayment.confirmation with
  | none => .error .nullReferenceException
  | some confirmation => do
    let confirmationUrl ← host.uri confirmation.confirmationUrl
    return (paymentId, confirmationUrl)

theorem result_id {host : Host} {payment : Payment} {paymentId : Guid} {url : Uri}
    (read : result host payment = .ok (paymentId, url)) : Guid.parse payment.id = .ok paymentId := by
  obtain ⟨parsedId, parsed, usable⟩ := Exception.bind_ok read
  split at usable
  · cases usable
  · obtain ⟨confirmationUrl, -, answered⟩ := Exception.bind_ok usable
    cases answered
    exact parsed

def createInvoiceAsync (host : Host) (accountId : Guid) (amount : Decimal) : Handler (Guid × Uri) := do
  let createdPayment ← Client.createPayment (newPayment host accountId amount)
  Program.ofExcept (result host createdPayment)

end YoomoneyInvoiceService

namespace CreateInvoiceCommand

structure Request where
  accountId : Guid
  amount : Decimal

structure Response where
  paymentId : Guid
  confirmationUrl : Uri

def loadOrOpen (accountId : Guid) (openedAt : DateTime) : Option BankAccountAggregate →
    Except Exception BankAccountAggregate
  | some bankAccount => .ok bankAccount
  | none => BankAccountAggregate.open accountId openedAt

/-- The clock is read for the opening, if there is one, and for the invoice. -/
def handle (host : Host) (openedAt createdAt : DateTime) (request : Request) : Handler Response := do
  let (paymentId, confirmationUrl) ← YoomoneyInvoiceService.createInvoiceAsync host request.accountId request.amount
  let loaded ← IEsEventStore.loadAsync request.accountId none
  let bankAccount ← Program.ofExcept (loadOrOpen request.accountId openedAt loaded)
  let bankAccount ← Program.ofExcept (construct (createInvoice paymentId request.amount createdAt) bankAccount)
  IEsEventStore.storeAsync bankAccount
  return { paymentId, confirmationUrl }

def invoiced (openedAt createdAt : DateTime) (request : Request) (paymentId : Guid)
    (loaded : Option BankAccountAggregate) : Except Exception BankAccountAggregate :=
  (loadOrOpen request.accountId openedAt loaded).bind
    (construct (createInvoice paymentId request.amount createdAt))

theorem invoiced_ok (openedAt createdAt : DateTime) (request : Request) (paymentId : Guid)
    (loaded : Option BankAccountAggregate) :
    ∃ start bankAccount, loadOrOpen request.accountId openedAt loaded = .ok start ∧
      construct (createInvoice paymentId request.amount createdAt) start = .ok bankAccount := by
  cases loaded with
  | none => exact ⟨_, _, rfl, rfl⟩
  | some account => exact ⟨_, _, rfl, rfl⟩

abbrev creation (host : Host) (request : Request) : Call :=
  .createPayment (YoomoneyInvoiceService.newPayment host request.accountId request.amount)

abbrev loading (request : Request) : Call := .loadAsync request.accountId none

/-- Where a run can be, by the calls it has made. -/
inductive Stage (host : Host) (openedAt createdAt : DateTime) (request : Request) :
    List (Exchange Call Answer Exception) → Handler Response → Prop where
  | creating {next} : Stage host openedAt createdAt request [] (.call (creation host request) next)
  | unpaid {error} : Stage host openedAt createdAt request [⟨creation host request, .error error⟩] (.fail error)
  | unusable {payment error} (unread : YoomoneyInvoiceService.result host payment = .error error) :
      Stage host openedAt createdAt request [⟨creation host request, .ok payment⟩] (.fail error)
  | loading {payment paymentId url next} (read : YoomoneyInvoiceService.result host payment = .ok (paymentId, url)) :
      Stage host openedAt createdAt request [⟨creation host request, .ok payment⟩] (.call (loading request) next)
  | unloaded {payment paymentId url error}
      (read : YoomoneyInvoiceService.result host payment = .ok (paymentId, url)) :
      Stage host openedAt createdAt request
        [⟨creation host request, .ok payment⟩, ⟨CreateInvoiceCommand.loading request, .error error⟩] (.fail error)
  | storing {payment paymentId url loaded bankAccount next}
      (read : YoomoneyInvoiceService.result host payment = .ok (paymentId, url))
      (made : invoiced openedAt createdAt request paymentId loaded = .ok bankAccount) :
      Stage host openedAt createdAt request
        [⟨creation host request, .ok payment⟩, ⟨CreateInvoiceCommand.loading request, .ok loaded⟩]
        (.call (.storeAsync bankAccount) next)
  | refused {payment paymentId url loaded bankAccount error}
      (read : YoomoneyInvoiceService.result host payment = .ok (paymentId, url))
      (made : invoiced openedAt createdAt request paymentId loaded = .ok bankAccount) :
      Stage host openedAt createdAt request
        [⟨creation host request, .ok payment⟩, ⟨CreateInvoiceCommand.loading request, .ok loaded⟩,
          ⟨.storeAsync bankAccount, .error error⟩] (.fail error)
  | returned {payment paymentId url loaded bankAccount}
      (read : YoomoneyInvoiceService.result host payment = .ok (paymentId, url))
      (made : invoiced openedAt createdAt request paymentId loaded = .ok bankAccount) :
      Stage host openedAt createdAt request
        [⟨creation host request, .ok payment⟩, ⟨CreateInvoiceCommand.loading request, .ok loaded⟩,
          ⟨.storeAsync bankAccount, .ok ()⟩] (.done ⟨paymentId, url⟩)

theorem handle_stage {host : Host} {openedAt createdAt : DateTime} {request : Request}
    {calls : List (Exchange Call Answer Exception)} {left : Handler Response}
    (follows : (handle host openedAt createdAt request).Follows calls left) :
    Stage host openedAt createdAt request calls left := by
  unfold handle YoomoneyInvoiceService.createInvoiceAsync at follows
  rw [bind_assoc] at follows
  rcases follows.of_perform with ⟨rfl, next, rfl⟩ | ⟨error, rfl, rfl⟩ | ⟨payment, calls, rfl, created⟩
  · exact .creating
  · exact .unpaid
  rcases created.of_ofExcept with ⟨error, unread, rfl, rfl⟩ | ⟨⟨paymentId, url⟩, read, readable⟩
  · exact .unusable unread
  rcases readable.of_perform with ⟨rfl, next, rfl⟩ | ⟨error, rfl, rfl⟩ | ⟨loaded, calls, rfl, present⟩
  · exact .loading read
  · exact .unloaded read
  rcases invoiced_ok openedAt createdAt request paymentId loaded with ⟨start, bankAccount, obtained, performed⟩
  have made : invoiced openedAt createdAt request paymentId loaded = .ok bankAccount := by
    rw [invoiced, obtained]
    exact performed
  rw [obtained, Program.ofExcept_ok_bind, performed, Program.ofExcept_ok_bind] at present
  rcases Program.Follows.of_perform present with ⟨rfl, next, rfl⟩ | ⟨error, rfl, rfl⟩ | ⟨answer, calls, rfl, stored⟩
  · exact .storing read made
  · exact .refused read made
  · rcases stored.of_done with ⟨rfl, rfl⟩
    exact .returned read made

theorem Stage.created_once {host : Host} {openedAt createdAt : DateTime} {request : Request}
    {calls : List (Exchange Call Answer Exception)} {left : Handler Response} {first second : Payment}
    (stage : Stage host openedAt createdAt request calls left)
    (here : ⟨creation host request, .ok first⟩ ∈ calls) (there : ⟨creation host request, .ok second⟩ ∈ calls) :
    first = second := by
  cases stage <;> simp at here there <;> exact here.trans there.symm

end CreateInvoiceCommand

end Yoomoney
