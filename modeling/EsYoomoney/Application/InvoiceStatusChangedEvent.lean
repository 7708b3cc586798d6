import EsYoomoney.Application.Calls

namespace Yoomoney

open EventSourcing DomainEvents BankAccountAggregate

namespace InvoiceStatusChangedEvent

structure Event where
  invoice : Payment

def handle (occuredAt : DateTime) (request : Event) : Handler Unit := do
  let invoice := request.invoice
  let eventId ← Program.ofExcept (Guid.parse invoice.id)
  if ← IEsEventStore.existsAsync eventId then
    return ()
  else
    let accountId ← Program.ofExcept (Guid.parse invoice.merchantCustomerId)
    match ← IEsEventStore.loadAsync accountId none with
    | none => .fail (.domainException "Unknown account")
    | some account =>
      match invoice.amount with
      | none => .fail .nullReferenceException
      | some amount =>
        let account ← Program.ofExcept
          (construct (deposit eventId amount.value amount.currency invoice occuredAt) account)
        IEsEventStore.storeAsync account

structure Credited (occuredAt : DateTime) (request : Event) (eventId accountId : Guid) (amount : Amount)
    (loaded account : BankAccountAggregate) : Prop where
  parsed : Guid.parse request.invoice.id = .ok eventId
  named : Guid.parse request.invoice.merchantCustomerId = .ok accountId
  priced : request.invoice.amount = some amount
  performed : construct (deposit eventId amount.value amount.currency request.invoice occuredAt) loaded = .ok account

inductive Stage (occuredAt : DateTime) (request : Event) :
    List (Exchange Call Answer Exception) → Handler Unit → Prop where
  | malformed {error} (unparsed : Guid.parse request.invoice.id = .error error) :
      Stage occuredAt request [] (.fail error)
  | asking {eventId next} (parsed : Guid.parse request.invoice.id = .ok eventId) :
      Stage occuredAt request [] (.call (.existsAsync eventId) next)
  | unanswered {eventId error} (parsed : Guid.parse request.invoice.id = .ok eventId) :
      Stage occuredAt request [⟨.existsAsync eventId, .error error⟩] (.fail error)
  | existing {eventId} (parsed : Guid.parse request.invoice.id = .ok eventId) :
      Stage occuredAt request [⟨.existsAsync eventId, .ok true⟩] (.done ())
  | anonymous {eventId error} (unparsed : Guid.parse request.invoice.merchantCustomerId = .error error) :
      Stage occuredAt request [⟨.existsAsync eventId, .ok false⟩] (.fail error)
  | loading {eventId accountId next} (parsed : Guid.parse request.invoice.id = .ok eventId)
      (named : Guid.parse request.invoice.merchantCustomerId = .ok accountId) :
      Stage occuredAt request [⟨.existsAsync eventId, .ok false⟩] (.call (.loadAsync accountId none) next)
  | unloaded {eventId accountId error} (named : Guid.parse request.invoice.merchantCustomerId = .ok accountId) :
      Stage occuredAt request [⟨.existsAsync eventId, .ok false⟩, ⟨.loadAsync accountId none, .error error⟩]
        (.fail error)
  | unknown {eventId accountId} (named : Guid.parse request.invoice.merchantCustomerId = .ok accountId) :
      Stage occuredAt request [⟨.existsAsync eventId, .ok false⟩, ⟨.loadAsync accountId none, .ok none⟩]
        (.fail (.domainException "Unknown account"))
  | priceless {eventId accountId loaded} (missing : request.invoice.amount = none) :
      Stage occuredAt request [⟨.existsAsync eventId, .ok false⟩, ⟨.loadAsync accountId none, .ok (some loaded)⟩]
        (.fail .nullReferenceException)
  | overflowing {eventId accountId loaded} :
      Stage occuredAt request [⟨.existsAsync eventId, .ok false⟩, ⟨.loadAsync accountId none, .ok (some loaded)⟩]
        (.fail .overflowException)
  | storing {eventId accountId amount loaded account next}
      (credited : Credited occuredAt request eventId accountId amount loaded account) :
      Stage occuredAt request [⟨.existsAsync eventId, .ok false⟩, ⟨.loadAsync accountId none, .ok (some loaded)⟩]
        (.call (.storeAsync account) next)
  | refused {eventId accountId amount loaded account error}
      (credited : Credited occuredAt request eventId accountId amount loaded account) :
      Stage occuredAt request [⟨.existsAsync eventId, .ok false⟩, ⟨.loadAsync accountId none, .ok (some loaded)⟩,
        ⟨.storeAsync account, .error error⟩] (.fail error)
  | returned {eventId accountId amount loaded account}
      (credited : Credited occuredAt request eventId accountId amount loaded account) :
      Stage occuredAt request [⟨.existsAsync eventId, .ok false⟩, ⟨.loadAsync accountId none, .ok (some loaded)⟩,
        ⟨.storeAsync account, .ok ()⟩] (.done ())

theorem deposit_error {invoiceId : Guid} {amount : Decimal} {currency : String} {metadata : Payment}
    {occuredAt : DateTime} {account : BankAccountAggregate} {error : Exception}
    (thrown : construct (deposit invoiceId amount currency metadata occuredAt) account = .error error) :
    error = .overflowException := by
  have ran := perform_run (.deposit invoiceId amount currency metadata) occuredAt account
  simp only [Operation.perform, Operation.event, Event.post] at ran
  rw [construct, ran] at thrown
  cases posted : account.balance.add amount with
  | ok balance =>
    rw [posted] at thrown
    cases thrown
  | error overflow =>
    rw [posted] at thrown
    cases thrown
    exact Decimal.add_error posted

theorem handle_stage {occuredAt : DateTime} {request : Event} {calls : List (Exchange Call Answer Exception)}
    {left : Handler Unit} (follows : (handle occuredAt request).Follows calls left) :
    Stage occuredAt request calls left := by
  unfold handle at follows
  rcases follows.of_ofExcept with ⟨error, unparsed, rfl, rfl⟩ | ⟨eventId, parsed, wellFormed⟩
  · exact .malformed unparsed
  rcases wellFormed.of_perform with ⟨rfl, next, rfl⟩ | ⟨error, rfl, rfl⟩ | ⟨known, calls, rfl, asked⟩
  · exact .asking parsed
  · exact .unanswered parsed
  cases known with
  | true =>
    rcases Program.Follows.of_done asked with ⟨rfl, rfl⟩
    exact .existing parsed
  | false =>
    rcases Program.Follows.of_ofExcept asked with ⟨error, unparsed, rfl, rfl⟩ | ⟨accountId, named, addressed⟩
    · exact .anonymous unparsed
    rcases addressed.of_perform with ⟨rfl, next, rfl⟩ | ⟨error, rfl, rfl⟩ | ⟨loaded, calls, rfl, present⟩
    · exact .loading parsed named
    · exact .unloaded named
    cases loaded with
    | none =>
      rcases Program.Follows.of_fail present with ⟨rfl, rfl⟩
      exact .unknown named
    | some loaded =>
      dsimp only at present
      cases priced : request.invoice.amount with
      | none =>
        rw [priced] at present
        rcases Program.Follows.of_fail present with ⟨rfl, rfl⟩
        exact .priceless priced
      | some amount =>
        rw [priced] at present
        rcases Program.Follows.of_ofExcept present with ⟨error, thrown, rfl, rfl⟩ | ⟨account, performed, changed⟩
        · cases deposit_error thrown
          exact .overflowing
        have credited : Credited occuredAt request eventId accountId amount loaded account :=
          ⟨parsed, named, priced, performed⟩
        rw [← bind_pure (IEsEventStore.storeAsync account)] at changed
        rcases changed.of_perform with ⟨rfl, next, rfl⟩ | ⟨error, rfl, rfl⟩ | ⟨answer, calls, rfl, stored⟩
        · exact .storing credited
        · exact .refused credited
        · rcases Program.Follows.of_done stored with ⟨rfl, rfl⟩
          exact .returned credited

end InvoiceStatusChangedEvent

end Yoomoney
