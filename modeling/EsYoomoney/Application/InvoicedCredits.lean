import EsYoomoney.Application.Serializability
import EsYoomoney.Application.SingleCredit
import EsYoomoney.System.GuidText

namespace Yoomoney

open EventSourcing DomainEvents BankAccountAggregate

theorem Batch.deposit_of {host : Host} {job : Job} {calls : List (Exchange Call Answer Exception)}
    {paymentId accountId : Guid} {base pending : List Event}
    (batch : Batch host job calls paymentId accountId base pending) {event : Event} {payment : Payment}
    (member : event ∈ pending) (paid : event.depositedPayment = some payment) :
    ∃ amount occuredAt, job = .invoiceStatusChanged ⟨payment⟩ occuredAt ∧ Guid.parse payment.id = .ok paymentId ∧
      Guid.parse payment.merchantCustomerId = .ok accountId ∧ payment.amount = some amount ∧
      event = .moneyDepositedDomainEvent paymentId accountId amount.value amount.currency payment occuredAt := by
  cases batch with
  | opening created read =>
    simp only [List.mem_cons, List.not_mem_nil, or_false] at member
    rcases member with rfl | rfl <;> cases paid
  | further created read present =>
    cases List.mem_singleton.mp member
    cases paid
  | crediting parsed named priced present =>
    cases List.mem_singleton.mp member
    cases paid
    exact ⟨_, _, rfl, parsed, named, priced, rfl⟩

def createdFor : Exchange Call Answer Exception → Option (NewPayment × Payment)
  | ⟨.createPayment newPayment, .ok payment⟩ => some (newPayment, payment)
  | _ => none

namespace Service

variable {Db ι : Type} {store : IDocumentStore Db} {host : Host} {jobs : ι → Job} {start service after : Service Db ι}

/-- What the provider has made: under the id it has answered a creation with, for the customer and over the amount
    that the creation asked for. -/
def Made (trace : Trace ι) (invoice : Payment) : Prop :=
  ∃ entry ∈ trace, ∃ newPayment payment, createdFor entry.2 = some (newPayment, payment) ∧ payment.id = invoice.id ∧
    invoice.merchantCustomerId = newPayment.merchantCustomerId ∧ invoice.amount = some newPayment.amount

/-- The provider notifies of what it has made and of nothing else. -/
def Notifies (jobs : ι → Job) (service : Service Db ι) (label : ι × Except Exception Payment) : Prop :=
  ∀ request occuredAt, jobs label.1 = .invoiceStatusChanged request occuredAt → Made service.trace request.invoice

/-- Each notification is of a payment made, and finds no deposit of it when it loads its account. -/
def Orderly (store : IDocumentStore Db) (jobs : ι → Job) (service : Service Db ι)
    (label : ι × Except Exception Payment) : Prop :=
  Notifies jobs service label ∧ LoadsUncredited store jobs service label

theorem Made.append {trace : Trace ι} {invoice : Payment} (made : Made trace invoice) (later : Trace ι) :
    Made (trace ++ later) invoice := by
  rcases made with ⟨entry, member, created⟩
  exact ⟨entry, List.mem_append_left later member, created⟩

variable [DecidableEq ι] {labels : List (ι × Except Exception Payment)}
  {allowed : Service Db ι → ι × Except Exception Payment → Prop}

/-- Every deposit is of a payment that the provider has made, under its id, for its customer and over its amount. -/
structure Genuine (trace : Trace ι) (id : Guid) (event : Event) (payment : Payment) : Prop where
  made : Made trace payment
  fields : ∃ invoiceId amount occuredAt, Guid.parse payment.id = .ok invoiceId ∧
    Guid.parse payment.merchantCustomerId = .ok id ∧ payment.amount = some amount ∧
    event = .moneyDepositedDomainEvent invoiceId id amount.value amount.currency payment occuredAt

theorem deposit_genuine (lawful : store.Lawful) (begun : Begun store host jobs start)
    (runs : (machine store).Runs (Notifies jobs) start labels service) {id : Guid} {event : Event} {payment : Payment}
    (stored : event ∈ written service.trace id) (paid : event.depositedPayment = some payment) :
    Genuine service.trace id event payment := by
  induction runs with
  | refl =>
    rw [begun.trace] at stored
    cases stored
  | @step labels service label after past permitted taken ih =>
    obtain ⟨call, next, waiting, result⟩ := Pool.step_eq taken
    have traced := congrArg Pool.trace result
    dsimp only at traced
    rw [traced, written_append, List.mem_append] at stored
    rcases stored with old | fresh
    · have genuine := ih old
      rw [traced]
      exact ⟨genuine.made.append _, genuine.fields⟩
    · rw [written_singleton] at fresh
      dsimp only at fresh
      obtain ⟨account, rfl, member, exchanged⟩ := appended_of_mem fresh
      rw [exchanged] at traced
      obtain ⟨paymentId, earlier, between, pending, commit⟩ := step_commit lawful begun past taken traced
      rw [commit.storing.uncommitted] at member
      obtain ⟨amount, occuredAt, job, parsed, named, priced, same⟩ := commit.batch.deposit_of member paid
      rw [traced]
      exact ⟨(permitted _ _ job).append _, paymentId, amount, occuredAt, parsed, named, priced, same⟩

theorem created_by (begun : Begun store host jobs start) (runs : (machine store).Runs allowed start labels service)
    {run : ι} {exchange : Exchange Call Answer Exception} {newPayment : NewPayment} {payment : Payment}
    (called : exchange ∈ callsOf service.trace run) (created : createdFor exchange = some (newPayment, payment)) :
    ∃ request openedAt createdAt, jobs run = .createInvoice request openedAt createdAt ∧
      newPayment = YoomoneyInvoiceService.newPayment host request.accountId request.amount ∧
      ⟨CreateInvoiceCommand.creation host request, .ok payment⟩ ∈ callsOf service.trace run := by
  cases job : jobs run with
  | createInvoice request openedAt createdAt =>
    rcases invoice_follows begun runs job with ⟨left, followed, -⟩
    have stage := CreateInvoiceCommand.handle_stage followed
    generalize callsOf service.trace run = calls at stage called ⊢
    refine ⟨request, openedAt, createdAt, rfl, ?_⟩
    cases stage <;> simp only [List.mem_cons, List.not_mem_nil, or_false] at called <;>
      rcases called with rfl | rfl | rfl <;> cases created <;> exact ⟨rfl, List.mem_cons_self⟩
  | invoiceStatusChanged request occuredAt =>
    rcases notification_follows begun runs job with ⟨left, followed, -⟩
    have stage := InvoiceStatusChangedEvent.handle_stage followed
    generalize callsOf service.trace run = calls at stage called
    cases stage <;> simp only [List.mem_cons, List.not_mem_nil, or_false] at called <;>
      rcases called with rfl | rfl | rfl <;> cases created

/-- What is credited to an account was invoiced by it: every deposit is in roubles, and there is a run of the account
    that has asked the provider for this very payment. Once that run returns, its invoice stands beside the deposit. -/
theorem deposits_invoiced (lawful : store.Lawful) (begun : Begun store host jobs start)
    (runs : (machine store).Runs (Notifies jobs) start labels service) {id : Guid} {event : Event} {payment : Payment}
    (stored : event ∈ store.stream service.shared id) (fresh : event ∉ store.stream start.shared id)
    (paid : event.depositedPayment = some payment) :
    ∃ run amount openedAt createdAt made invoiceId occuredAt,
      event = .moneyDepositedDomainEvent invoiceId id amount "RUB" payment occuredAt ∧
      jobs run = .createInvoice ⟨id, amount⟩ openedAt createdAt ∧
      (run, ⟨CreateInvoiceCommand.creation host ⟨id, amount⟩, .ok made⟩) ∈ service.trace ∧
      Guid.parse made.id = .ok invoiceId ∧
      ((∃ response, service.thread run = .done response) →
        .invoiceCreatedDomainEvent invoiceId id amount createdAt ∈ store.stream service.shared id) := by
  rw [streams lawful begun.trace runs, streamAt, List.mem_append] at stored
  have genuine := deposit_genuine lawful begun runs (stored.resolve_left fresh) paid
  obtain ⟨⟨⟨run, exchange⟩, called, newPayment, made, created, sameId, customer, priced⟩, fields⟩ := genuine
  obtain ⟨invoiceId, amount, occuredAt, parsed, named, valued, rfl⟩ := fields
  obtain ⟨request, openedAt, createdAt, job, asked, answered⟩ := created_by begun runs (mem_callsOf.mpr called) created
  have own : request.accountId = id := by
    rw [customer, asked] at named
    exact Except.ok.inj ((Guid.parse_toString _).symm.trans named)
  have same : amount = ⟨request.amount, "RUB"⟩ := by
    rw [valued, asked] at priced
    exact Option.some.inj priced
  subst own same
  have read : Guid.parse made.id = .ok invoiceId := by rw [sameId, parsed]
  refine ⟨run, request.amount, openedAt, createdAt, made, invoiceId, occuredAt, rfl, job, mem_callsOf.mp answered, read,
    ?_⟩
  rintro ⟨response, returned⟩
  obtain ⟨paymentId, parsedId, recorded⟩ := returned_creation_recorded lawful begun runs job answered returned
  cases read.symm.trans parsedId
  exact recorded

theorem sample_permits : (machine inMemory).Permits (Orderly inMemory sampleJobs) (begin sampleHost sampleJobs [])
    oneAfterTheOther := by
  have permits : (machine inMemory).Permits (fun service label => FindsNoDeposits service label ∧
      (label.1 = false → (YoomoneyInvoiceService.newPayment sampleHost 1 sampleAmount.value, samplePayment) ∈
        service.trace.filterMap (createdFor ·.2)))
      (begin sampleHost sampleJobs []) oneAfterTheOther := by decide +kernel
  refine permits.mono ?_
  rintro service ⟨run, reply⟩ ⟨finds, made⟩
  refine ⟨?_, finds.loads⟩
  intro request occuredAt job
  cases run with
  | true => cases job
  | false =>
    cases job
    rcases List.mem_filterMap.mp (made rfl) with ⟨entry, member, created⟩
    exact ⟨entry, member, _, _, created, rfl, rfl, rfl⟩

theorem sample_deposit_invoiced :
    ∃ service, (machine inMemory).exec (begin sampleHost sampleJobs []) oneAfterTheOther = some service ∧
      ∃ event ∈ inMemory.stream service.shared 1, ∃ run openedAt createdAt,
        event = .moneyDepositedDomainEvent 7 1 sampleAmount.value "RUB" samplePayment 2 ∧
        sampleJobs run = .createInvoice ⟨1, sampleAmount.value⟩ openedAt createdAt := by
  have reached := Machine.exec_last
    (show ((machine inMemory).exec (begin sampleHost sampleJobs []) oneAfterTheOther).isSome = true by decide +kernel)
  have sound : SoundStore inMemory [] := .unwritten fun _ => rfl
  have notifies := (Machine.permitted_runs sample_permits reached).mono fun _ _ orderly => orderly.1
  have stored : .moneyDepositedDomainEvent 7 1 sampleAmount.value "RUB" samplePayment 2 ∈
      inMemory.stream ((machine inMemory).last (begin sampleHost sampleJobs []) oneAfterTheOther).shared 1 := by
    decide +kernel
  obtain ⟨run, amount, openedAt, createdAt, _, _, _, same, job, -⟩ := deposits_invoiced inMemory_lawful
    (begin_begun sampleHost sampleJobs sound) notifies stored List.not_mem_nil rfl
  cases same
  exact ⟨_, reached, _, stored, run, openedAt, createdAt, rfl, job⟩

/-- The payments that the provider has made for an account, with what it was asked for. -/
def madeFor (trace : Trace ι) (id : Guid) : List (NewPayment × Payment) :=
  (trace.filterMap (createdFor ·.2)).filter (·.1.merchantCustomerId = some id.toString)

def credit : Event → Option (Option Guid × Int)
  | .moneyDepositedDomainEvent invoiceId _ amount _ _ _ => some (some invoiceId, amount.units)
  | _ => none

def invoice (made : NewPayment × Payment) : Option Guid × Int :=
  ((Guid.parse made.2.id).toOption, made.1.amount.value.units)

theorem uncredited_once (lawful : store.Lawful) (begun : Begun store host jobs start) {named : Guid → Guid}
    (notified : NotificationsNamed jobs named) (once : CreditedOnce store start.shared)
    (placed : DepositsNamed store start.shared named)
    (runs : (machine store).Runs (LoadsUncredited store jobs) start labels service) :
    CreditedOnce store service.shared ∧ DepositsNamed store service.shared named := by
  induction runs with
  | refl => exact ⟨once, placed⟩
  | step past permitted taken ih =>
    rcases step_streams lawful begun past (sound lawful begun past).rooted taken with
      same | ⟨account, _, _, _, _, pending, -, commit⟩
    · unfold CreditedOnce DepositsNamed
      rw [show store.stream _ = store.stream _ from funext same]
      exact ih
    · exact commit.credits lawful begun.trace notified past ih.1 ih.2

omit [DecidableEq ι] in
theorem credits_distinct {trace : Trace ι} {id : Guid}
    (once : ((written trace id).filterMap Event.depositedInvoice).Nodup) :
    ((written trace id).filterMap credit).Nodup := by
  apply List.Nodup.of_map Prod.fst
  have names : ((written trace id).filterMap credit).map Prod.fst =
      ((written trace id).filterMap Event.depositedInvoice).map some := by
    rw [List.map_filterMap, List.map_filterMap]
    apply List.filterMap_congr
    intro event _
    cases event <;> rfl
  rw [names]
  exact once.map (Option.some_injective _)

/-- Every credit is one of the account's invoices, by the number and over the amount. -/
theorem credit_invoiced (lawful : store.Lawful) (begun : Begun store host jobs start)
    (runs : (machine store).Runs (Notifies jobs) start labels service) {id : Guid} :
    (written service.trace id).filterMap credit ⊆ (madeFor service.trace id).map invoice := by
  intro entry member
  rcases List.mem_filterMap.mp member with ⟨event, stored, credited⟩
  cases event with
  | moneyDepositedDomainEvent invoiceId accountId value currency payment occuredAt =>
    cases credited
    obtain ⟨⟨call, called, newPayment, made, created, sameId, customer, priced⟩, fields⟩ :=
      deposit_genuine lawful begun runs stored rfl
    obtain ⟨parsedId, amount, _, parsed, named, valued, same⟩ := fields
    cases same
    obtain ⟨request, -, -, -, asked, -⟩ := created_by begun runs (mem_callsOf.mpr called) created
    refine List.mem_map.mpr ⟨(newPayment, made), List.mem_filter.mpr ⟨List.mem_filterMap.mpr ⟨call, called, created⟩,
      ?_⟩, ?_⟩
    · rw [customer, asked] at named
      have own := Except.ok.inj ((Guid.parse_toString _).symm.trans named)
      simp [asked, YoomoneyInvoiceService.newPayment, own]
    · rw [valued] at priced
      rw [invoice, sameId, parsed, ← Option.some.inj priced]
      rfl
  | _ => cases credited

/-- No account is credited more than it has invoiced. -/
theorem credits_within_invoices (lawful : store.Lawful) (begun : Begun store host jobs start) {named : Guid → Guid}
    (notified : NotificationsNamed jobs named) (once : CreditedOnce store start.shared)
    (placed : DepositsNamed store start.shared named)
    (covered : ∀ run request openedAt createdAt, jobs run = .createInvoice request openedAt createdAt →
      0 ≤ request.amount.units)
    (runs : (machine store).Runs (Orderly store jobs) start labels service) (id : Guid) :
    (((written service.trace id).filterMap Event.depositedAmount).map (·.units)).sum ≤
      ((madeFor service.trace id).map (·.1.amount.value.units)).sum := by
  have notifies := runs.mono fun _ _ orderly => orderly.1
  have single := (uncredited_once lawful begun notified once placed (runs.mono fun _ _ orderly => orderly.2)).1.nodup id
  rw [streams lawful begun.trace runs, streamAt, List.filterMap_append] at single
  have distinct := credits_distinct (List.nodup_append.mp single).2.1
  have bound := sum_le_of_nodup Prod.snd distinct (credit_invoiced lawful begun notifies) ?_
  · rw [List.map_filterMap, List.map_map] at bound
    rw [List.map_filterMap]
    refine le_trans (le_of_eq ?_) bound
    congr 1
    apply List.filterMap_congr
    intro event _
    cases event <;> rfl
  · intro item member
    rcases List.mem_map.mp member with ⟨⟨newPayment, payment⟩, made, rfl⟩
    rcases List.mem_filterMap.mp (List.mem_of_mem_filter made) with ⟨⟨run, exchange⟩, called, created⟩
    obtain ⟨request, openedAt, createdAt, job, asked, -⟩ := created_by begun runs (mem_callsOf.mpr called) created
    rw [invoice, asked]
    exact covered _ _ _ _ job

theorem sample_credit_within_invoices :
    ∃ service, (machine inMemory).exec (begin sampleHost sampleJobs []) oneAfterTheOther = some service ∧
      (((written service.trace 1).filterMap Event.depositedAmount).map (·.units)).sum = 100 * 10 ^ 28 ∧
      (((written service.trace 1).filterMap Event.depositedAmount).map (·.units)).sum ≤
        ((madeFor service.trace 1).map (·.1.amount.value.units)).sum := by
  have reached := Machine.exec_last
    (show ((machine inMemory).exec (begin sampleHost sampleJobs []) oneAfterTheOther).isSome = true by decide +kernel)
  have sound : SoundStore inMemory [] := .unwritten fun _ => rfl
  have notified : NotificationsNamed sampleJobs fun _ => 1 := by
    intro run request occuredAt eventId accountId job parsed addressed
    cases run with
    | true => cases job
    | false =>
      cases job
      cases addressed
      rfl
  have covered : ∀ run request openedAt createdAt, sampleJobs run = .createInvoice request openedAt createdAt →
      0 ≤ request.amount.units := by
    intro run request openedAt createdAt job
    cases run with
    | true =>
      cases job
      decide
    | false => cases job
  exact ⟨_, reached, by decide +kernel,
    credits_within_invoices inMemory_lawful (begin_begun sampleHost sampleJobs sound) notified (.of_empty fun _ => rfl)
      (fun _ _ member => by cases member) covered (Machine.permitted_runs sample_permits reached) 1⟩

end Service

end Yoomoney
