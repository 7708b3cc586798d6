import EsYoomoney.Library.Mediator
import EsYoomoney.Application.Contention

namespace Yoomoney

open EventSourcing DomainEvents BankAccountAggregate

structure InvoiceStatusChangedIntegrationEvent where
  invoice : Payment

inductive INotification where
  | invoiceStatusChangedEvent
  | invoiceStatusChangedIntegrationEvent
deriving DecidableEq

abbrev INotification.payload : INotification → Type
  | invoiceStatusChangedEvent => InvoiceStatusChangedEvent.Event
  | invoiceStatusChangedIntegrationEvent => InvoiceStatusChangedIntegrationEvent

/-- What `RegisterServicesFromAssembly` finds: the one notification handler of the application. -/
def addLayerApplication (occuredAt : DateTime) :
    List (Registration INotification INotification.payload (Handler Unit)) :=
  [⟨.invoiceStatusChangedEvent, InvoiceStatusChangedEvent.handle occuredAt⟩]

namespace IPublisher

def publish (occuredAt : DateTime) (notification : Notification INotification INotification.payload) : Handler Unit :=
  (dispatch (addLayerApplication occuredAt) notification).forM fun handler => handler

end IPublisher

namespace InvoiceStatusChangedConsumer

def handle (occuredAt : DateTime) (message : InvoiceStatusChangedIntegrationEvent) : Handler Unit :=
  IPublisher.publish occuredAt ⟨.invoiceStatusChangedIntegrationEvent, message⟩

end InvoiceStatusChangedConsumer

namespace PaymentsPaidProcessingWorker

def publishEvents (occuredAt : DateTime) (invoices : List Payment) : Handler Unit :=
  invoices.forM fun invoice => IPublisher.publish occuredAt ⟨.invoiceStatusChangedIntegrationEvent, ⟨invoice⟩⟩

end PaymentsPaidProcessingWorker

inductive Delivery where
  | consumed (payment : Payment)
  | polled (payments : List Payment)

namespace Delivery

def payments : Delivery → List Payment
  | consumed payment => [payment]
  | polled payments => payments

def program (occuredAt : DateTime) : Delivery → Handler Unit
  | consumed payment => InvoiceStatusChangedConsumer.handle occuredAt ⟨payment⟩
  | polled payments => PaymentsPaidProcessingWorker.publishEvents occuredAt payments

end Delivery

/-- Deliveries one after the other; what one throws stops that one only. -/
def deliver {Db : Type} (store : IDocumentStore Db) (db : Db) (deliveries : List (Delivery × DateTime)) : Db :=
  deliveries.foldl (fun db delivery =>
    ((environment store).run (.error .yandexCheckoutException) (delivery.1.program delivery.2) db).2) db

def paidTo (payments : List Payment) (accountId : Guid) : Int :=
  ((payments.filter (Guid.parse ·.merchantCustomerId = .ok accountId)).filterMap
    (·.amount.map (·.value.units))).sum

def Deposited {Db : Type} (store : IDocumentStore Db) (db : Db) (payment : Payment) : Prop :=
  ∀ eventId accountId amount, Guid.parse payment.id = .ok eventId →
    Guid.parse payment.merchantCustomerId = .ok accountId → payment.amount = some amount →
    ∃ currency metadata occuredAt,
      .moneyDepositedDomainEvent eventId accountId amount.value currency metadata occuredAt ∈ store.stream db accountId

/-- Every payment is in its account's stream, and each balance has grown by the sum of its payments. -/
structure Delivered {Db : Type} (store : IDocumentStore Db) (before after : Db) (payments : List Payment) : Prop where
  deposited : ∀ payment ∈ payments, Deposited store after payment
  grown : ∀ id old new, EventStore.loadAsync store before id none = .ok (some old) →
    EventStore.loadAsync store after id none = .ok (some new) →
    new.balance.units = old.balance.units + paidTo payments id

theorem publish_integration (occuredAt : DateTime) (message : InvoiceStatusChangedIntegrationEvent) :
    IPublisher.publish occuredAt ⟨.invoiceStatusChangedIntegrationEvent, message⟩ = .done () := by
  have unhandled : dispatch (addLayerApplication occuredAt)
      (⟨.invoiceStatusChangedIntegrationEvent, message⟩ : Notification INotification INotification.payload) = [] := by
    apply dispatch_unhandled
    intro registration member
    rw [List.mem_singleton.mp member]
    exact nofun
  rw [IPublisher.publish, unhandled]
  rfl

theorem publish_event (occuredAt : DateTime) (event : InvoiceStatusChangedEvent.Event) :
    IPublisher.publish occuredAt ⟨.invoiceStatusChangedEvent, event⟩ =
      InvoiceStatusChangedEvent.handle occuredAt event := bind_pure _

theorem delivery_done (occuredAt : DateTime) (delivery : Delivery) : delivery.program occuredAt = .done () := by
  cases delivery with
  | consumed payment => exact publish_integration occuredAt ⟨payment⟩
  | polled payments =>
    induction payments with
    | nil => rfl
    | cons payment payments ih =>
      have first := publish_integration occuredAt ⟨payment⟩
      have rest : (Delivery.polled (payment :: payments)).program occuredAt =
          IPublisher.publish occuredAt ⟨.invoiceStatusChangedIntegrationEvent, ⟨payment⟩⟩ >>= fun _ =>
            (Delivery.polled payments).program occuredAt := rfl
      rw [rest, first]
      exact ih

theorem deliver_eq {Db : Type} (store : IDocumentStore Db) (db : Db) (deliveries : List (Delivery × DateTime)) :
    deliver store db deliveries = db := by
  induction deliveries generalizing db with
  | nil => rfl
  | cons delivery deliveries ih =>
    rw [deliver, List.foldl_cons, delivery_done]
    exact ih db

/-- Deliveries do what is asked of them exactly when nothing is left to do: every deposit is there
    already and the payments of each account cancel out. -/
theorem delivered_iff {Db : Type} {store : IDocumentStore Db} (lawful : store.Lawful) {db : Db}
    (sound : SoundStore store db) (deliveries : List (Delivery × DateTime)) :
    Delivered store db (deliver store db deliveries) (deliveries.flatMap (·.1.payments)) ↔
      (∀ payment ∈ deliveries.flatMap (·.1.payments), Deposited store db payment) ∧
      ∀ id, store.stream db id ≠ [] → paidTo (deliveries.flatMap (·.1.payments)) id = 0 := by
  rw [deliver_eq]
  constructor
  · intro delivered
    obtain ⟨deposited, grown⟩ := delivered
    refine ⟨deposited, fun id present => ?_⟩
    obtain ⟨loaded, aggregation⟩ := sound.loads id
    cases loaded with
    | none => exact absurd ((aggregated_none_iff _).mp aggregation) present
    | some account =>
      have loaded : EventStore.loadAsync store db id none = .ok (some account) :=
        (lawful.loadAsync_eq db id none).trans aggregation
      have same := grown id account account loaded loaded
      omega
  · intro settled
    obtain ⟨deposited, none⟩ := settled
    refine ⟨deposited, fun id old new before after => ?_⟩
    have present := (lawful.loadAsync_live before).2
    cases before.symm.trans after
    rw [none id present, Int.add_zero]

def reversal : Payment :=
  { otherPayment with amount := some ⟨⟨-100 * 10 ^ 28, by decide +kernel⟩, "RUB"⟩ }

def settlement : Nat → Job
  | 0 => Service.sampleJobs true
  | 1 => Service.sampleJobs false
  | _ => .invoiceStatusChanged ⟨reversal⟩ 3

def settled : Service (List (Guid × Event)) Nat :=
  (Service.machine inMemory).last (Service.begin sampleHost settlement [])
    ([0, 0, 0, 1, 1, 1, 2, 2, 2].map (·, .ok samplePayment))

theorem settled_sound : SoundStore inMemory settled.shared := by
  have unwritten : SoundStore inMemory [] := .unwritten fun _ => rfl
  exact Service.sound inMemory_lawful (Service.begin_begun sampleHost settlement unwritten)
    (Machine.exec_runs _ _ _ _ (Machine.exec_last (by decide +kernel)))

theorem Deposited.of_stored {Db : Type} {store : IDocumentStore Db} {db : Db} {payment : Payment}
    {eventId accountId : Guid} {amount : Amount} (parsed : Guid.parse payment.id = .ok eventId)
    (named : Guid.parse payment.merchantCustomerId = .ok accountId) (priced : payment.amount = some amount)
    (stored : ∃ currency metadata occuredAt,
      .moneyDepositedDomainEvent eventId accountId amount.value currency metadata occuredAt ∈
        store.stream db accountId) : Deposited store db payment := by
  intro otherEvent otherAccount otherAmount otherParsed otherNamed otherPriced
  cases parsed.symm.trans otherParsed
  cases named.symm.trans otherNamed
  cases priced.symm.trans otherPriced
  exact stored

theorem settled_payments_delivered :
    inMemory.stream settled.shared 1 ≠ [] ∧ Delivered inMemory settled.shared
      (deliver inMemory settled.shared [(.consumed samplePayment, 4), (.polled [reversal], 5)])
      [samplePayment, reversal] := by
  have deposited : ∀ payment ∈ [samplePayment, reversal], Deposited inMemory settled.shared payment := by
    refine List.forall_mem_cons.mpr ⟨?_, List.forall_mem_singleton.mpr ?_⟩
    · exact .of_stored (show Guid.parse samplePayment.id = .ok 7 from rfl)
        (show Guid.parse samplePayment.merchantCustomerId = .ok 1 from rfl) rfl
        ⟨"RUB", samplePayment, 2, by decide +kernel⟩
    · exact .of_stored (show Guid.parse reversal.id = .ok 8 from rfl)
        (show Guid.parse reversal.merchantCustomerId = .ok 1 from rfl) rfl ⟨"RUB", reversal, 3, by decide +kernel⟩
  refine ⟨by decide +kernel, (delivered_iff inMemory_lawful settled_sound
    [(.consumed samplePayment, 4), (.polled [reversal], 5)]).mpr ⟨deposited, fun id _ => ?_⟩⟩
  by_cases own : id = 1
  · subst own
    decide +kernel
  · have others : ∀ payment ∈ [samplePayment, reversal], ¬ Guid.parse payment.merchantCustomerId = .ok id := by
      intro payment listed named
      have mine : ∀ payment ∈ [samplePayment, reversal], Guid.parse payment.merchantCustomerId = .ok 1 := by
        decide +kernel
      cases (mine payment listed).symm.trans named
      exact own rfl
    show paidTo [samplePayment, reversal] id = 0
    rw [paidTo, List.filter_eq_nil_iff.mpr (by simpa using others)]
    rfl

theorem consumed_payment_undelivered :
    Guid.parse samplePayment.id = .ok 7 ∧ Guid.parse samplePayment.merchantCustomerId = .ok 1 ∧
      inMemory.stream Service.invoicedLog 1 ≠ [] ∧ inMemory.stream Service.invoicedLog 7 = [] ∧
      ¬ Delivered inMemory Service.invoicedLog
        (deliver inMemory Service.invoicedLog [(.consumed samplePayment, 2)]) [samplePayment] := by
  refine ⟨rfl, rfl, by decide +kernel, rfl, fun delivered => ?_⟩
  obtain ⟨currency, metadata, occuredAt, member⟩ :=
    delivered.deposited samplePayment List.mem_cons_self 7 1 _ rfl rfl rfl
  rw [deliver_eq] at member
  have absent : ∀ event ∈ inMemory.stream Service.invoicedLog 1, event.depositedInvoice ≠ some 7 := by decide +kernel
  exact absent _ member rfl

end Yoomoney
