import EsYoomoney.Application.Batches

namespace Yoomoney

open EventSourcing DomainEvents BankAccountAggregate

/-- The account is there, the payment has an amount, and adding it to the balance does not overflow. -/
def Creditable {Db : Type} (store : IDocumentStore Db) (db : Db) (accountId : Guid) (payment : Payment) : Prop :=
  ∃ account amount balance, EventStore.loadAsync store db accountId none = .ok (some account) ∧
    payment.amount = some amount ∧ account.balance.add amount.value = .ok balance

theorem Live.posted_last {account : BankAccountAggregate} {base : List Event} {event : Event}
    (live : Live account base [event]) (present : base ≠ []) :
    ∃ loaded balance, aggregated base = .ok (some loaded) ∧ event.post loaded.balance = .ok balance := by
  have replayed := live.replayed
  rw [replay_append] at replayed
  obtain ⟨loaded, before, last⟩ := Exception.bind_ok replayed
  obtain ⟨next, posted, -⟩ := Exception.bind_ok last
  rw [construct_apply] at posted
  cases added : event.post loaded.balance with
  | error error =>
    rw [added] at posted
    cases posted
  | ok balance => exact ⟨loaded, balance, aggregated_of_replay before present, added⟩

theorem Batch.paid {host : Host} {job : Job} {calls : List (Exchange Call Answer Exception)}
    {paymentId accountId : Guid} {base pending : List Event} {event : Event} {payment : Payment}
    (batch : Batch host job calls paymentId accountId base pending) (member : event ∈ pending)
    (paid : event.depositedPayment = some payment) :
    ∃ request occuredAt amount, job = .invoiceStatusChanged request occuredAt ∧ request.invoice = payment ∧
      payment.amount = some amount ∧ base ≠ [] ∧
      pending = [.moneyDepositedDomainEvent paymentId accountId amount.value amount.currency payment occuredAt] := by
  cases batch with
  | opening created read =>
    simp only [List.mem_cons, List.not_mem_nil, or_false] at member
    rcases member with rfl | rfl <;> cases paid
  | further created read present =>
    cases List.mem_singleton.mp member
    cases paid
  | @crediting request occuredAt _ _ _ amount _ parsed named priced present =>
    cases List.mem_singleton.mp member
    cases paid
    exact ⟨request, occuredAt, amount, rfl, rfl, priced, present, rfl⟩

namespace Service

variable {Db ι : Type} {store : IDocumentStore Db} {host : Host} {jobs : ι → Job} {entitled : ι → Prop}
  {start service : Service Db ι} {labels : List (ι × Except Exception Payment)}

/-- When a notification run loads an account it can credit, it is one of the entitled runs. -/
def LoadsEntitled (store : IDocumentStore Db) (jobs : ι → Job) (entitled : ι → Prop) (service : Service Db ι)
    (label : ι × Except Exception Payment) : Prop :=
  ∀ request occuredAt accountId next, jobs label.1 = .invoiceStatusChanged request occuredAt →
    service.thread label.1 = .call (.loadAsync accountId none) next →
    Creditable store service.shared accountId request.invoice → entitled label.1

variable [DecidableEq ι]

/-- The run that stored an event in a stream, as the handler of a payment. -/
structure StoredFor (jobs : ι → Job) (service : Service Db ι) (id : Guid) (event : Event) (payment : Payment)
    (run : ι) : Prop where
  job : ∃ occuredAt, jobs run = .invoiceStatusChanged ⟨payment⟩ occuredAt
  stored : ∃ exchange ∈ callsOf service.trace run, event ∈ appended id exchange

theorem Storing.loads_creditable {run : ι} {account : BankAccountAggregate} {paymentId : Guid}
    {earlier between : Trace ι} {pending : List Event}
    (storing : Storing store host jobs start service run account paymentId earlier between pending)
    (lawful : store.Lawful) (begun : start.trace = [])
    (runs : (machine store).Runs (LoadsEntitled store jobs entitled) start labels service) {event : Event}
    {payment : Payment} (member : event ∈ pending) (paid : event.depositedPayment = some payment) :
    (∃ occuredAt, jobs run = .invoiceStatusChanged ⟨payment⟩ occuredAt) ∧ entitled run := by
  obtain ⟨request, occuredAt, amount, job, rfl, priced, present, rfl⟩ := storing.batch.paid member paid
  refine ⟨⟨occuredAt, job⟩, ?_⟩
  rcases storing.loaded with ⟨answer, recorded⟩
  rcases Pool.split begun runs recorded with ⟨middle, past, choice, next, reached, same, permitted, waiting, -⟩
  apply permitted request occuredAt account.id next job waiting
  obtain ⟨loaded, balance, aggregation, posted⟩ := storing.live.posted_last present
  refine ⟨loaded, amount, balance, (lawful.loadAsync_eq middle.shared account.id none).trans ?_, priced, posted⟩
  rw [streams lawful begun reached, same]
  exact aggregation

/-- Whatever a run stores of a payment, it loaded the payment's account first. -/
theorem deposit_entitled (lawful : store.Lawful) (begun : Begun store host jobs start)
    (runs : (machine store).Runs (LoadsEntitled store jobs entitled) start labels service) {id : Guid} {event : Event}
    {payment : Payment} (stored : event ∈ store.stream service.shared id)
    (paid : event.depositedPayment = some payment) :
    event ∈ store.stream start.shared id ∨ ∃ run, entitled run ∧ StoredFor jobs service id event payment run := by
  apply (stored_by lawful begun runs stored).imp_right
  rintro ⟨run, account, middle, past, paymentId, earlier, between, pending, rfl, listed, member, reached, -, storing⟩
  have loads := storing.loads_creditable lawful begun.trace reached member paid
  refine ⟨run, loads.2, loads.1, _, listed, ?_⟩
  rw [storing.appended]
  exact member

end Service

end Yoomoney
