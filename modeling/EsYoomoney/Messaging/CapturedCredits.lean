import EsYoomoney.Application.EntitledDeposits
import EsYoomoney.Messaging.Intake

namespace Yoomoney

open EventSourcing DomainEvents

namespace Intake

variable {Db : Type} {store : IDocumentStore Db} {host : Host} {intake after : Intake Db} {label : Label}
  {labels : List Label} {payments : List Payment} {db : Db} {origin : Nat → Begun}

/-- Every deposit was stored by a handler run whose payment was captured when it was published. -/
def CreditsCaptured (store : IDocumentStore Db) (intake : Intake Db) : Prop :=
  ∀ id, ∀ event ∈ store.stream intake.service.shared id, ∀ payment, event.depositedPayment = some payment →
    ∃ run publication, intake.begun[run]? = some (.published publication) ∧ publication.invoice = payment ∧
      publication.captured = true ∧ ∃ exchange ∈ callsOf intake.service.trace run, event ∈ appended id exchange

/-- No handler run that the worker began for an uncaptured payment loads an account it can credit. -/
def LoadsCaptured (store : IDocumentStore Db) (intake : Intake Db) : Label → Prop
  | .call run _ => ∀ publication accountId next, intake.begun[run]? = some (.published publication) →
      publication.publisher = .paymentsPaidProcessingWorker →
      intake.service.thread run = .call (.loadAsync accountId none) next →
      Creditable store intake.service.shared accountId publication.invoice → publication.captured = true
  | _ => True

/-- What the provider answers for, and what the worker must not come upon. -/
def OnlyCaptured (store : IDocumentStore Db) (intake : Intake Db) (label : Label) : Prop :=
  Truthful intake label ∧ LoadsCaptured store intake label

abbrev jobs (origin : Nat → Begun) (run : Nat) : Job := (origin run).job

abbrev Origins (origin : Nat → Begun) (intake : Intake Db) : Prop :=
  ∀ run begun, intake.begun[run]? = some begun → origin run = begun

/-- The handler runs begun so far, beside a service that has had all its runs from the start. -/
abbrev Serves (host : Host) (origin : Nat → Begun) (intake : Intake Db) (service : Service Db Nat) : Prop :=
  Pool.Agrees (fun run => (jobs origin run).program host) intake.begun.length intake.service service

abbrev LoadsEntitled (store : IDocumentStore Db) (origin : Nat → Begun) :
    Service Db Nat → Nat × Except Exception Payment → Prop :=
  Service.LoadsEntitled store (jobs origin) fun run => (origin run).captured = true

theorem Origins.of_begin {begun : Begun} (origins : Origins origin (intake.begin host begun)) :
    Origins origin intake ∧ origin intake.begun.length = begun := by
  constructor
  · intro run old found
    apply origins run old
    rw [begin, List.getElem?_append_left (List.getElem?_eq_some_iff.mp found).1, found]
  · apply origins
    simp [begin]

theorem Serves.begin {service : Service Db Nat} (serves : Serves host origin intake service) {begun : Begun}
    (last : origin intake.begun.length = begun) : Serves host origin (intake.begin host begun) service := by
  have launched := serves.launch
  rw [Serves, Intake.begin, List.length_append, List.length_singleton]
  rw [jobs, last] at launched
  exact launched

theorem LoadsCaptured.entitled {service : Service Db Nat} {run : Nat} {reply : Except Exception Payment}
    (permitted : LoadsCaptured store intake (.call run reply)) (sources : Sources intake)
    (origins : Origins origin intake) (serves : Serves host origin intake service)
    (running : run < intake.begun.length) : LoadsEntitled store origin service (run, reply) := by
  intro request occuredAt accountId next job waiting creditable
  have found := List.getElem?_eq_getElem running
  rcases Begun.of_job job with ⟨publication, same, rfl⟩
  rw [← origins run _ found, same] at found
  rw [← serves.launched run running] at waiting
  rw [← serves.shared] at creditable
  show (origin run).captured = true
  rw [same]
  cases publisher : publication.publisher with
  | invoiceStatusChangedConsumer => exact sources.consumed publication (List.mem_of_getElem? found) publisher
  | paymentsPaidProcessingWorker => exact permitted publication accountId next found publisher waiting creditable

/-- The handler runs behind the intake are a run of the service, with a load of the one a load of the other. -/
theorem simulated (runs : (machine store host).Runs (OnlyCaptured store) (start payments db) labels intake)
    (origins : Origins origin intake) :
    ∃ calls service, (Service.machine store).Runs (LoadsEntitled store origin)
      (Service.begin host (jobs origin) db) calls service ∧ Serves host origin intake service := by
  induction runs with
  | refl => exact ⟨[], _, .refl, .nothing db none⟩
  | step past permitted taken ih =>
    cases step_effect taken with
    | create => exact ih origins
    | advance => exact ih origins
    | notify => exact ih origins
    | receivePayment sent => exact ih origins
    | fetchPaymentsForCapture => exact ih origins
    | consume produced =>
      rcases ih origins.of_begin.1 with ⟨calls, service, served, serves⟩
      exact ⟨calls, service, served, serves.begin origins.of_begin.2⟩
    | publish fetched =>
      rcases ih origins.of_begin.1 with ⟨calls, service, served, serves⟩
      exact ⟨calls, service, served, serves.begin origins.of_begin.2⟩
    | createInvoice =>
      rcases ih origins.of_begin.1 with ⟨calls, service, served, serves⟩
      exact ⟨calls, service, served, serves.begin origins.of_begin.2⟩
    | call called =>
      rcases ih origins with ⟨calls, service, served, serves⟩
      rcases Pool.step_eq called with ⟨request, next, waiting, -⟩
      have captured := sources past fun _ _ only => only.1
      have entitled := permitted.2.entitled captured origins serves (serves.running waiting)
      rcases serves.step called with ⟨other, answered, after⟩
      exact ⟨_, other, served.step entitled answered, after⟩

/-- A run in which nobody posts a success that the provider does not know of, and the worker finds no uncaptured
    payment's account to credit, stores deposits of captured payments only, whatever the handlers do. -/
theorem credits_captured (lawful : store.Lawful) (sound : SoundStore store db)
    (undeposited : ∀ id, ∀ event ∈ store.stream db id, event.depositedPayment = none)
    (runs : (machine store host).Runs (OnlyCaptured store) (start payments db) labels intake) :
    CreditsCaptured store intake := by
  intro id event stored payment paid
  let nothing : Begun := .createInvoice ⟨Guid.Empty, Decimal.zero⟩ 0 0
  let origin : Nat → Begun := fun run => intake.begun[run]?.getD nothing
  have origins : Origins origin intake := fun run begun found => by simp [origin, found]
  rcases simulated runs origins with ⟨calls, service, served, serves⟩
  rw [serves.shared] at stored
  rcases Service.deposit_entitled lawful (Service.begin_begun host _ sound) served stored paid with
    initial | ⟨run, entitled, ⟨occuredAt, job⟩, exchange, called, member⟩
  · rw [undeposited id event initial] at paid
    cases paid
  · rw [← serves.trace] at called
    have found := List.getElem?_eq_getElem (serves.called _ (mem_callsOf.mp called))
    rcases Begun.of_job job with ⟨publication, same, request⟩
    rw [← origins run _ found, same] at found
    rw [same] at entitled
    cases request
    exact ⟨run, publication, found, rfl, entitled, exchange, called, member⟩

/-- Everything that the worker has published so far was captured. -/
def WorkerCaptured (intake : Intake Db) : Prop := ∀ begun ∈ intake.begun, begun.Worker → begun.captured = true

instance (intake : Intake Db) : Decidable (WorkerCaptured intake) :=
  inferInstanceAs (Decidable (∀ begun ∈ intake.begun, begun.Worker → begun.captured = true))

theorem WorkerCaptured.loads (captured : WorkerCaptured intake) (label : Label) : LoadsCaptured store intake label := by
  cases label with
  | call run reply =>
    intro publication accountId next found worker _ _
    exact captured (.published publication) (List.mem_of_getElem? found) worker
  | _ => exact True.intro

def pendingPayment : Payment := { samplePayment with status := .pending }

def paidPayment : Payment := { samplePayment with status := .succeeded }

def invoicing : List Label :=
  [.createInvoice ⟨1, sampleAmount.value⟩ 0 1, .call 0 (.ok pendingPayment), .call 0 (.ok pendingPayment),
    .call 0 (.ok pendingPayment), .create pendingPayment, .advance pendingPayment.id .waitingForCapture]

def webhookCourse : List Label :=
  invoicing ++ [.advance pendingPayment.id .succeeded, .notify (.paymentSucceededNotification paidPayment),
    .receivePayment 0, .consume 0 2] ++ List.replicate 3 (.call 1 (.ok pendingPayment))

/-- The payment is captured after the worker has fetched it and before it publishes it, and posted as well. -/
def capturedCourse : List Label :=
  invoicing ++ [.notify (.paymentWaitingForCaptureNotification pendingPayment), .fetchPaymentsForCapture,
    .advance pendingPayment.id .succeeded, .publish 2, .notify (.paymentSucceededNotification paidPayment),
    .receivePayment 0, .receivePayment 1, .consume 0 3] ++
    List.replicate 3 (.call 1 (.ok pendingPayment)) ++ List.replicate 3 (.call 2 (.ok pendingPayment))

theorem captured_payment_credited :
    ∃ intake, (machine inMemory sampleHost).exec (start [] []) capturedCourse = some intake ∧
      CreditsCaptured inMemory intake ∧ (∃ begun ∈ intake.begun, begun.Worker) ∧
      ∃ event ∈ inMemory.stream intake.service.shared 1, event.depositedInvoice = some 7 := by
  have reached := Machine.exec_last
    (show ((machine inMemory sampleHost).exec (start [] []) capturedCourse).isSome = true by decide +kernel)
  have permits : (machine inMemory sampleHost).Permits (fun intake label => Truthful intake label ∧
      WorkerCaptured intake) (start [] []) capturedCourse := by decide +kernel
  have only := (Machine.permitted_runs permits reached).mono fun _ label captured =>
    show OnlyCaptured inMemory _ label from ⟨captured.1, captured.2.loads label⟩
  exact ⟨_, reached, credits_captured inMemory_lawful (.unwritten fun _ => rfl)
    (fun _ _ member => absurd member List.not_mem_nil) only, by decide +kernel, by decide +kernel⟩

def workerCourse : List Label :=
  invoicing ++ [.fetchPaymentsForCapture, .publish 2] ++ List.replicate 3 (.call 1 (.ok pendingPayment)) ++
    [.advance pendingPayment.id .canceled]

/-- The worker publishes a payment that waits for capture, it is credited, and then it is canceled. -/
theorem canceled_payment_credited :
    ∃ intake, (machine inMemory sampleHost).exec (start [] []) workerCourse = some intake ∧
      (∃ event ∈ inMemory.stream intake.service.shared 1, event.depositedInvoice = some 7) ∧
      (∀ payment ∈ intake.payments, payment.status = .canceled) ∧ ¬ CreditsCaptured inMemory intake := by
  have reached := Machine.exec_last
    (show ((machine inMemory sampleHost).exec (start [] []) workerCourse).isSome = true by decide +kernel)
  let last := (machine inMemory sampleHost).last (start [] []) workerCourse
  have credited : ∃ event ∈ inMemory.stream last.service.shared 1,
      event.depositedInvoice = some 7 ∧ event.depositedPayment.isSome = true := by decide +kernel
  have uncaptured : ∀ begun ∈ last.begun, begun.captured = false := by decide +kernel
  rcases credited with ⟨event, stored, deposited, carried⟩
  refine ⟨last, reached, ⟨event, stored, deposited⟩, by decide +kernel, fun captured => ?_⟩
  rcases Option.isSome_iff_exists.mp carried with ⟨payment, paid⟩
  rcases captured 1 event stored payment paid with ⟨run, publication, found, -, succeeded, -⟩
  have waiting : publication.captured = false := uncaptured _ (List.mem_of_getElem? found)
  rw [waiting] at succeeded
  cases succeeded

end Intake

end Yoomoney
