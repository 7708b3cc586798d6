import EsYoomoney.Library.Spawning
import EsYoomoney.Messaging.Delivery

namespace Yoomoney

open EventSourcing DomainEvents

/-- The provider's own changes of a payment: `succeeded` and `canceled` are final. -/
def PaymentStatus.successors : PaymentStatus → List PaymentStatus
  | pending => [waitingForCapture, succeeded, canceled]
  | waitingForCapture => [succeeded, canceled]
  | succeeded => []
  | canceled => []

def Payment.advance (payment : Payment) (id : Option String) (status : PaymentStatus) : Payment :=
  if payment.id = id ∧ status ∈ payment.status.successors then { payment with status } else payment

/-- What the provider says of a payment at present. -/
def Captured (payments : List Payment) (invoice : Payment) : Prop :=
  ∃ payment ∈ payments, payment.id = invoice.id ∧ payment.status = .succeeded

instance (payments : List Payment) (invoice : Payment) : Decidable (Captured payments invoice) :=
  inferInstanceAs (Decidable (∃ payment ∈ payments, payment.id = invoice.id ∧ payment.status = .succeeded))

theorem Captured.append {payments : List Payment} {invoice : Payment} (captured : Captured payments invoice)
    (later : List Payment) : Captured (payments ++ later) invoice := by
  rcases captured with ⟨payment, member, same, succeeded⟩
  exact ⟨payment, List.mem_append_left later member, same, succeeded⟩

theorem Captured.advance {payments : List Payment} {invoice : Payment} (captured : Captured payments invoice)
    (id : Option String) (status : PaymentStatus) : Captured (payments.map (·.advance id status)) invoice := by
  rcases captured with ⟨payment, member, same, succeeded⟩
  have final : payment.advance id status = payment := by
    simp [Payment.advance, succeeded, PaymentStatus.successors]
  refine ⟨payment, List.mem_map.mpr ⟨payment, member, final⟩, same, succeeded⟩

namespace Client

inductive Notification where
  | paymentWaitingForCaptureNotification (object : Payment)
  | paymentSucceededNotification (object : Payment)
  | paymentCanceledNotification (object : Payment)

end Client

namespace YooMoneyWebHookEndpoints

/-- What the endpoint puts on the event bus. -/
def receivePayment : Client.Notification → List InvoiceStatusChangedIntegrationEvent
  | .paymentSucceededNotification object => [⟨object⟩]
  | _ => []

end YooMoneyWebHookEndpoints

namespace YoomoneyInvoiceService

def fetchPaymentsForCaptureAsync (payments : List Payment) : List Payment :=
  payments.filter (·.status = .waitingForCapture)

end YoomoneyInvoiceService

inductive Publisher where
  | invoiceStatusChangedConsumer
  | paymentsPaidProcessingWorker
deriving DecidableEq

/-- An integration event on its way to a handler run, with what the provider said when it was published. -/
structure Publication where
  publisher : Publisher
  invoice : Payment
  captured : Bool
  occuredAt : DateTime

/-- What a handler run was begun for. -/
inductive Begun where
  | createInvoice (request : CreateInvoiceCommand.Request) (openedAt createdAt : DateTime)
  | published (publication : Publication)

namespace Begun

def job : Begun → Job
  | createInvoice request openedAt createdAt => .createInvoice request openedAt createdAt
  | published publication => .invoiceStatusChanged ⟨publication.invoice⟩ publication.occuredAt

def captured : Begun → Bool
  | createInvoice _ _ _ => false
  | published publication => publication.captured

def Worker : Begun → Prop
  | createInvoice _ _ _ => False
  | published publication => publication.publisher = .paymentsPaidProcessingWorker

instance : (begun : Begun) → Decidable begun.Worker
  | createInvoice _ _ _ => inferInstanceAs (Decidable False)
  | published publication => inferInstanceAs (Decidable (publication.publisher = .paymentsPaidProcessingWorker))

theorem of_job {begun : Begun} {request : InvoiceStatusChangedEvent.Event} {occuredAt : DateTime}
    (job : begun.job = .invoiceStatusChanged request occuredAt) :
    ∃ publication, begun = .published publication ∧ request = ⟨publication.invoice⟩ := by
  cases begun with
  | createInvoice invoiceRequest openedAt createdAt => cases job
  | published publication =>
    cases job
    exact ⟨publication, rfl, rfl⟩

end Begun

/-- The provider's payments, what has been posted to the webhook, the topic between webhook and consumer, the
    invoices the worker has still to publish in its round, and the handler runs. -/
structure Intake (Db : Type) where
  payments : List Payment
  notifications : List Client.Notification
  topic : List InvoiceStatusChangedIntegrationEvent
  invoices : List Payment
  begun : List Begun
  service : Service Db Nat

namespace Intake

variable {Db : Type}

inductive Label where
  | create (payment : Payment)
  | advance (id : Option String) (status : PaymentStatus)
  | notify (notification : Client.Notification)
  | receivePayment (position : Nat)
  | consume (position : Nat) (occuredAt : DateTime)
  | fetchPaymentsForCapture
  | publish (occuredAt : DateTime)
  | createInvoice (request : CreateInvoiceCommand.Request) (openedAt createdAt : DateTime)
  | call (run : Nat) (reply : Except Exception Payment)

def start (payments : List Payment) (db : Db) : Intake Db :=
  ⟨payments, [], [], [], [], ⟨db, fun _ => .done none, []⟩⟩

def begin (host : Host) (intake : Intake Db) (begun : Begun) : Intake Db :=
  { intake with
    begun := intake.begun ++ [begun]
    service := intake.service.launch intake.begun.length (begun.job.program host) }

def publish (host : Host) (intake : Intake Db) (publisher : Publisher) (invoice : Payment) (occuredAt : DateTime) :
    Intake Db :=
  intake.begin host (.published ⟨publisher, invoice, decide (Captured intake.payments invoice), occuredAt⟩)

def step (store : IDocumentStore Db) (host : Host) (intake : Intake Db) : Label → Option (Intake Db)
  | .create payment =>
    if payment.status = .pending ∧ ∀ other ∈ intake.payments, other.id ≠ payment.id then
      some { intake with payments := intake.payments ++ [payment] }
    else none
  | .advance id status => some { intake with payments := intake.payments.map (·.advance id status) }
  | .notify notification =>
    -- the endpoint asks nobody who they are: anything can be posted to it
    some { intake with notifications := intake.notifications ++ [notification] }
  | .receivePayment position => do
    let notification ← intake.notifications[position]?
    some { intake with topic := intake.topic ++ YooMoneyWebHookEndpoints.receivePayment notification }
  | .consume position occuredAt => do
    -- the topic keeps its messages: the broker may hand out one of them again
    let message ← intake.topic[position]?
    some (intake.publish host .invoiceStatusChangedConsumer message.invoice occuredAt)
  | .fetchPaymentsForCapture =>
    if intake.invoices.isEmpty then
      some { intake with invoices := YoomoneyInvoiceService.fetchPaymentsForCaptureAsync intake.payments }
    else none
  | .publish occuredAt =>
    match intake.invoices with
    | [] => none
    | invoice :: invoices =>
      some ({ intake with invoices }.publish host .paymentsPaidProcessingWorker invoice occuredAt)
  | .createInvoice request openedAt createdAt => some (intake.begin host (.createInvoice request openedAt createdAt))
  | .call run reply =>
    (Pool.step (environment store) intake.service (run, reply)).map fun service => { intake with service }

def machine (store : IDocumentStore Db) (host : Host) : Machine (Intake Db) Label := ⟨step store host⟩

inductive Effect (store : IDocumentStore Db) (host : Host) (intake : Intake Db) : Label → Intake Db → Prop where
  | create {payment} : Effect store host intake (.create payment)
      { intake with payments := intake.payments ++ [payment] }
  | advance {id status} : Effect store host intake (.advance id status)
      { intake with payments := intake.payments.map (·.advance id status) }
  | notify {notification} : Effect store host intake (.notify notification)
      { intake with notifications := intake.notifications ++ [notification] }
  | receivePayment {position notification} (sent : notification ∈ intake.notifications) :
      Effect store host intake (.receivePayment position)
        { intake with topic := intake.topic ++ YooMoneyWebHookEndpoints.receivePayment notification }
  | consume {position occuredAt message} (produced : message ∈ intake.topic) :
      Effect store host intake (.consume position occuredAt)
        (intake.publish host .invoiceStatusChangedConsumer message.invoice occuredAt)
  | fetchPaymentsForCapture : Effect store host intake .fetchPaymentsForCapture
      { intake with invoices := YoomoneyInvoiceService.fetchPaymentsForCaptureAsync intake.payments }
  | publish {occuredAt invoice invoices} (fetched : intake.invoices = invoice :: invoices) :
      Effect store host intake (.publish occuredAt)
        ({ intake with invoices }.publish host .paymentsPaidProcessingWorker invoice occuredAt)
  | createInvoice {request openedAt createdAt} : Effect store host intake (.createInvoice request openedAt createdAt)
      (intake.begin host (.createInvoice request openedAt createdAt))
  | call {run reply service} (taken : Pool.step (environment store) intake.service (run, reply) = some service) :
      Effect store host intake (.call run reply) { intake with service }

variable {store : IDocumentStore Db} {host : Host} {intake after : Intake Db} {label : Label} {labels : List Label}
  {allowed : Intake Db → Label → Prop}

theorem step_effect (taken : step store host intake label = some after) : Effect store host intake label after := by
  cases label with
  | create payment =>
    simp only [step, Option.ite_none_right_eq_some] at taken
    cases taken.2
    exact .create
  | advance id status =>
    cases taken
    exact .advance
  | notify notification =>
    cases taken
    exact .notify
  | receivePayment position =>
    rcases Option.bind_eq_some_iff.mp taken with ⟨notification, sent, same⟩
    cases same
    exact .receivePayment (List.mem_of_getElem? sent)
  | consume position occuredAt =>
    rcases Option.bind_eq_some_iff.mp taken with ⟨message, produced, same⟩
    cases same
    exact .consume (List.mem_of_getElem? produced)
  | fetchPaymentsForCapture =>
    simp only [step, Option.ite_none_right_eq_some] at taken
    cases taken.2
    exact .fetchPaymentsForCapture
  | publish occuredAt =>
    cases fetched : intake.invoices with
    | nil => simp [step, fetched] at taken
    | cons invoice invoices =>
      simp only [step, fetched] at taken
      cases taken
      exact .publish fetched
  | createInvoice request openedAt createdAt =>
    cases taken
    exact .createInvoice
  | call run reply =>
    rcases Option.map_eq_some_iff.mp taken with ⟨service, called, rfl⟩
    exact .call called

/-- Who posts that a payment has succeeded says what the provider says. -/
def Truthful (intake : Intake Db) : Label → Prop
  | .notify (.paymentSucceededNotification object) => Captured intake.payments object
  | _ => True

instance (intake : Intake Db) (label : Label) : Decidable (Truthful intake label) := by
  unfold Truthful
  split <;> infer_instance

/-- What has come in by the webhook is captured, at every place on its way. -/
structure Sources (intake : Intake Db) : Prop where
  notified : ∀ payment, .paymentSucceededNotification payment ∈ intake.notifications →
    Captured intake.payments payment
  produced : ∀ message ∈ intake.topic, Captured intake.payments message.invoice
  consumed : ∀ publication, .published publication ∈ intake.begun →
    publication.publisher = .invoiceStatusChangedConsumer → publication.captured = true

namespace Sources

theorem start (payments : List Payment) (db : Db) : Sources (start payments db) :=
  ⟨fun _ member => absurd member List.not_mem_nil, fun _ member => absurd member List.not_mem_nil,
    fun _ member => absurd member List.not_mem_nil⟩

theorem begin (sources : Sources intake) {begun : Begun}
    (consumed : ∀ publication, begun = .published publication →
      publication.publisher = .invoiceStatusChangedConsumer → publication.captured = true) :
    Sources (intake.begin host begun) := by
  refine ⟨sources.notified, sources.produced, fun publication member => ?_⟩
  rcases List.mem_append.mp member with old | fresh
  · exact sources.consumed publication old
  · exact consumed publication (List.mem_singleton.mp fresh).symm

theorem publish (sources : Sources intake) {publisher : Publisher} {invoice : Payment} {occuredAt : DateTime}
    (captured : publisher = .invoiceStatusChangedConsumer → Captured intake.payments invoice) :
    Sources (intake.publish host publisher invoice occuredAt) := by
  apply sources.begin
  intro publication same consumer
  cases same
  exact decide_eq_true (captured consumer)

theorem step (sources : Sources intake) (truthful : Truthful intake label)
    (effect : Effect store host intake label after) : Sources after := by
  cases effect with
  | create =>
    exact ⟨fun payment member => (sources.notified payment member).append _,
      fun message member => (sources.produced message member).append _, sources.consumed⟩
  | advance =>
    exact ⟨fun payment member => (sources.notified payment member).advance _ _,
      fun message member => (sources.produced message member).advance _ _, sources.consumed⟩
  | notify =>
    refine ⟨fun object member => ?_, sources.produced, sources.consumed⟩
    rcases List.mem_append.mp member with old | fresh
    · exact sources.notified object old
    · rw [← List.mem_singleton.mp fresh] at truthful
      exact truthful
  | @receivePayment position notification sent =>
    refine ⟨sources.notified, fun message member => ?_, sources.consumed⟩
    rcases List.mem_append.mp member with old | fresh
    · exact sources.produced message old
    · cases notification with
      | paymentWaitingForCaptureNotification object => cases fresh
      | paymentCanceledNotification object => cases fresh
      | paymentSucceededNotification object =>
        rw [List.mem_singleton.mp fresh]
        exact sources.notified object sent
  | consume produced => exact sources.publish fun _ => sources.produced _ produced
  | fetchPaymentsForCapture => exact ⟨sources.notified, sources.produced, sources.consumed⟩
  | @publish occuredAt invoice invoices fetched =>
    have fetching : Sources { intake with invoices } := ⟨sources.notified, sources.produced, sources.consumed⟩
    exact fetching.publish fun consumer => by cases consumer
  | createInvoice => exact sources.begin fun publication same => by cases same
  | call taken => exact ⟨sources.notified, sources.produced, sources.consumed⟩

end Sources

theorem sources {payments : List Payment} {db : Db}
    (runs : (machine store host).Runs allowed (start payments db) labels intake)
    (truthful : ∀ before name, allowed before name → Truthful before name) : Sources intake :=
  runs.invariant (.start payments db) fun _ _ _ kept permitted taken =>
    kept.step (truthful _ _ permitted) (step_effect taken)

end Intake

end Yoomoney
