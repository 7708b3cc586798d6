import EsYoomoney.Application.Batches

namespace Yoomoney

open EventSourcing DomainEvents BankAccountAggregate

/-- Between a run's load of an account and its refused store, another run has stored in that account. -/
def Overtaken {ι : Type} (trace : Trace ι) (run : ι) (accountId : Guid) : Prop :=
  ∃ earlier loaded first other rival second account error rest,
    trace = earlier ++ (run, ⟨.loadAsync accountId none, .ok loaded⟩) ::
      (first ++ (other, ⟨.storeAsync rival, .ok ()⟩) ::
        (second ++ (run, ⟨.storeAsync account, .error error⟩) :: rest)) ∧
    other ≠ run ∧ rival.id = accountId

namespace Batch

variable {host : Host} {calls : List (Exchange Call Answer Exception)} {paymentId accountId : Guid}
  {base pending : List Event}

theorem invoice {request : CreateInvoiceCommand.Request} {openedAt createdAt : DateTime}
    (batch : Batch host (.createInvoice request openedAt createdAt) calls paymentId accountId base pending) :
    accountId = request.accountId ∧
      .invoiceCreatedDomainEvent paymentId request.accountId request.amount createdAt ∈ pending ∧
      ∃ payment url, ⟨CreateInvoiceCommand.creation host request, .ok payment⟩ ∈ calls ∧
        YoomoneyInvoiceService.result host payment = .ok (paymentId, url) := by
  cases batch with
  | opening created read => exact ⟨rfl, by simp, _, _, created, read⟩
  | further created read present => exact ⟨rfl, by simp, _, _, created, read⟩

theorem credit {request : InvoiceStatusChangedEvent.Event} {occuredAt : DateTime}
    (batch : Batch host (.invoiceStatusChanged request occuredAt) calls paymentId accountId base pending) :
    ∃ amount, Guid.parse request.invoice.id = .ok paymentId ∧
      Guid.parse request.invoice.merchantCustomerId = .ok accountId ∧ request.invoice.amount = some amount ∧
      pending = [.moneyDepositedDomainEvent paymentId accountId amount.value amount.currency request.invoice
        occuredAt] := by
  cases batch with
  | crediting parsed named priced present => exact ⟨_, parsed, named, priced, rfl⟩

end Batch

namespace Service

variable {Db ι : Type} [DecidableEq ι] {store : IDocumentStore Db} {host : Host} {jobs : ι → Job}
  {start service : Service Db ι} {allowed : Service Db ι → ι × Except Exception Payment → Prop}
  {labels : List (ι × Except Exception Payment)} {run : ι}

theorem refused_overtaken (lawful : store.Lawful) (begun : Begun store host jobs start)
    (runs : (machine store).Runs allowed start labels service) {account : BankAccountAggregate} {error : Exception}
    (called : ⟨.storeAsync account, .error error⟩ ∈ callsOf service.trace run) :
    ∃ calls paymentId base pending, (∀ exchange ∈ calls, exchange ∈ callsOf service.trace run) ∧
      Batch host (jobs run) calls paymentId account.id base pending ∧
      (base = [] → ⟨.loadAsync account.id none, .ok none⟩ ∈ callsOf service.trace run) ∧
      ((pending.map Event.eventId).Nodup → Overtaken service.trace run account.id) := by
  rcases List.append_of_mem (mem_callsOf.mp called) with ⟨before, rest, split⟩
  obtain ⟨middle, past, choice, paymentId, earlier, between, pending, reached, same, mine, storing, answered⟩ :=
    store_call lawful begun runs split
  rcases storing.loaded with ⟨loaded, whole⟩
  refine ⟨_, paymentId, _, pending, mine, storing.batch, fun missing => ?_, fun distinct => ?_⟩
  · have aggregation := loads lawful begun.trace reached whole
    rw [missing] at aggregation
    cases aggregation
    exact mine _ (mem_callsOf.mpr (by rw [whole]; simp))
  have refused : ¬ ∃ db, EventStore.storeAsync store middle.shared account = .ok db := by
    intro accepted
    rcases accepted with ⟨db, saved⟩
    simp only [respond, saved] at answered
    cases answered
  rw [storing.store_iff lawful begun.trace reached distinct] at refused
  rcases List.exists_mem_of_ne_nil _ refused with ⟨event, wrote⟩
  rcases List.mem_flatMap.mp wrote with ⟨⟨other, exchange⟩, listed, member⟩
  rcases appended_of_mem member with ⟨rival, sameAccount, pendingMember, rfl⟩
  rcases List.append_of_mem listed with ⟨first, second, inside⟩
  refine ⟨earlier, loaded, first, other, rival, second, account, error, rest, ?_, ?_, sameAccount⟩
  · rw [split, ← same, whole, inside]
    simp
  · -- the refused call is the run's first to store, so the batch in between is another's
    rintro rfl
    have own := storing.first ⟨.storeAsync rival, .ok ()⟩ (mem_callsOf.mpr (by rw [whole]; simp [listed])) account.id
    rw [own] at member
    cases member

theorem answered (lawful : store.Lawful) (begun : Begun store host jobs start)
    (runs : (machine store).Runs allowed start labels service) {exchange : Exchange Call Answer Exception}
    (called : exchange ∈ callsOf service.trace run) :
    ∃ (middle : Service Db ι) (choice : Except Exception Payment), SoundStore store middle.shared ∧
      (respond store middle.shared exchange.request choice).1 = exchange.answer ∧
      ∀ id, store.stream start.shared id <+: store.stream middle.shared id ∧
        store.stream middle.shared id <+: store.stream service.shared id := by
  rcases List.append_of_mem (mem_callsOf.mp called) with ⟨earlier, later, split⟩
  rcases Pool.split begun.trace runs split with ⟨middle, past, choice, next, reached, same, -, -, answered⟩
  refine ⟨middle, choice, sound lawful begun reached, answered, fun id => ⟨?_, ?_⟩⟩
  · rw [streams lawful begun.trace reached]
    exact List.prefix_append _ _
  · rw [streams lawful begun.trace runs, streams lawful begun.trace reached, split, same, streamAt_append]
    exact List.prefix_append _ _

theorem load_returns (lawful : store.Lawful) (begun : Begun store host jobs start)
    (runs : (machine store).Runs allowed start labels service) (id : Guid) (error : Exception) :
    ⟨.loadAsync id none, .error error⟩ ∉ callsOf service.trace run := by
  intro called
  rcases answered lawful begun runs called with ⟨middle, choice, whole, replied, -⟩
  rcases whole.loads id with ⟨loaded, aggregation⟩
  have thrown : EventStore.loadAsync store middle.shared id none = .error error := replied
  rw [lawful.loadAsync_eq] at thrown
  have contradiction := aggregation.symm.trans thrown
  cases contradiction

theorem load_finds (lawful : store.Lawful) (begun : Begun store host jobs start)
    (runs : (machine store).Runs allowed start labels service) {id : Guid}
    (present : store.stream start.shared id ≠ []) : ⟨.loadAsync id none, .ok none⟩ ∉ callsOf service.trace run := by
  intro called
  rcases answered lawful begun runs called with ⟨middle, choice, whole, replied, grown⟩
  have missing := (lawful.loadAsync_none_iff middle.shared id none).mp replied
  exact present (List.prefix_nil.mp (missing ▸ (grown id).1))

theorem exists_not (lawful : store.Lawful) (begun : Begun store host jobs start)
    (runs : (machine store).Runs allowed start labels service) {eventId : Guid}
    (unwritten : store.stream start.shared eventId = []) (apart : ¬ IsAccount jobs eventId)
    {answer : Except Exception Bool} (called : ⟨.existsAsync eventId, answer⟩ ∈ callsOf service.trace run) :
    answer = .ok false := by
  rcases answered lawful begun runs called with ⟨middle, choice, whole, replied, grown⟩
  have asked : Except.ok (EventStore.existsAsync store middle.shared eventId) = answer := replied
  rw [← asked]
  congr 1
  by_contra found
  rcases (lawful.existsAsync_iff _ _).mp (by simpa using found) with ⟨id, event, stored, carried⟩
  have own := (whole.rooted id (List.ne_nil_of_mem stored)).carried event stored
  have same : id = eventId := own.symm.trans carried
  subst same
  rcases stored_event lawful begun runs ((grown id).2.subset stored) with initial | ⟨other, _, _, _, _, -, batch, -⟩
  · rw [unwritten] at initial
    cases initial
  · exact apart ⟨other, batch.account⟩

def PaymentsRecorded (store : IDocumentStore Db) (host : Host) (jobs : ι → Job) (service : Service Db ι) : Prop :=
  ∀ run request openedAt createdAt payment paymentId, jobs run = .createInvoice request openedAt createdAt →
    (run, ⟨CreateInvoiceCommand.creation host request, .ok payment⟩) ∈ service.trace →
    Guid.parse payment.id = .ok paymentId →
    ∃ recordedAt, .invoiceCreatedDomainEvent paymentId request.accountId request.amount recordedAt ∈
      store.stream service.shared request.accountId

section Creation

variable {request : CreateInvoiceCommand.Request} {openedAt createdAt : DateTime} {payment : Payment}

/-- What a run stores is of the payment it created. -/
theorem created_batch (begun : Begun store host jobs start) (runs : (machine store).Runs allowed start labels service)
    (job : jobs run = .createInvoice request openedAt createdAt)
    (created : ⟨CreateInvoiceCommand.creation host request, .ok payment⟩ ∈ callsOf service.trace run)
    {calls : List (Exchange Call Answer Exception)} {paymentId accountId : Guid} {base pending : List Event}
    (inside : ∀ exchange ∈ calls, exchange ∈ callsOf service.trace run)
    (batch : Batch host (jobs run) calls paymentId accountId base pending) :
    accountId = request.accountId ∧
      .invoiceCreatedDomainEvent paymentId request.accountId request.amount createdAt ∈ pending ∧
      ∃ url, YoomoneyInvoiceService.result host payment = .ok (paymentId, url) := by
  rw [job] at batch
  rcases batch.invoice with ⟨sameAccount, member, other, url, otherCreated, read⟩
  rcases invoice_follows begun runs job with ⟨left, followed, -⟩
  have samePayment := (CreateInvoiceCommand.handle_stage followed).created_once created (inside _ otherCreated)
  subst samePayment
  exact ⟨sameAccount, member, url, read⟩

theorem returned_creation_recorded (lawful : store.Lawful) (begun : Begun store host jobs start)
    (runs : (machine store).Runs allowed start labels service)
    (job : jobs run = .createInvoice request openedAt createdAt)
    (created : ⟨CreateInvoiceCommand.creation host request, .ok payment⟩ ∈ callsOf service.trace run)
    {response : Option CreateInvoiceCommand.Response} (returned : service.thread run = .done response) :
    ∃ paymentId, Guid.parse payment.id = .ok paymentId ∧
      .invoiceCreatedDomainEvent paymentId request.accountId request.amount createdAt ∈
        store.stream service.shared request.accountId := by
  rcases invoice_follows begun runs job with ⟨left, followed, same⟩
  rcases Program.map_eq_done (same.symm.trans returned) with ⟨value, rfl, -⟩
  have stage := CreateInvoiceCommand.handle_stage followed
  generalize recorded : callsOf service.trace run = calls at stage
  cases stage with
  | @returned made paymentId url loaded bankAccount read invoiced =>
    have called : ⟨.storeAsync bankAccount, .ok ()⟩ ∈ callsOf service.trace run := by simp [recorded]
    rcases returned_batch lawful begun runs called with ⟨_, _, _, pending, inside, batch, stored⟩
    rcases created_batch begun runs job created inside batch with ⟨sameAccount, member, otherUrl, otherRead⟩
    refine ⟨_, YoomoneyInvoiceService.result_id otherRead, ?_⟩
    rw [← sameAccount]
    exact stored _ (sameAccount ▸ member)

theorem refused_invoice_cause (lawful : store.Lawful) (begun : Begun store host jobs start)
    (runs : (machine store).Runs allowed start labels service)
    (job : jobs run = .createInvoice request openedAt createdAt)
    {account : BankAccountAggregate} {error : Exception}
    (called : ⟨.storeAsync account, .error error⟩ ∈ callsOf service.trace run) :
    Overtaken service.trace run request.accountId ∨
      (⟨CreateInvoiceCommand.loading request, .ok none⟩ ∈ callsOf service.trace run ∧
        ∃ payment url, ⟨CreateInvoiceCommand.creation host request, .ok payment⟩ ∈ callsOf service.trace run ∧
          YoomoneyInvoiceService.result host payment = .ok (request.accountId, url)) := by
  rcases refused_overtaken lawful begun runs called with ⟨_, paymentId, base, pending, inside, batch, absent, overtaken⟩
  rw [job] at batch
  have distinct := batch.distinct
  obtain ⟨sameId, -, payment, url, created, read⟩ := batch.invoice
  rw [sameId] at distinct absent overtaken
  -- a payment named like its account repeats the opening's event id, and the duplicate check refuses the batch
  by_cases clash : base = [] ∧ paymentId = request.accountId
  · obtain ⟨missing, rfl⟩ := clash
    exact Or.inr ⟨absent missing, payment, url, inside _ created, read⟩
  · exact Or.inl (overtaken (distinct fun missing own => clash ⟨missing, own⟩))

theorem thrown_creation_overtaken (lawful : store.Lawful) (begun : Begun store host jobs start)
    (runs : (machine store).Runs allowed start labels service)
    (job : jobs run = .createInvoice request openedAt createdAt)
    (created : ⟨CreateInvoiceCommand.creation host request, .ok payment⟩ ∈ callsOf service.trace run)
    {error : Exception} (thrown : service.thread run = .fail error) :
    YoomoneyInvoiceService.result host payment = .error error ∨
      (⟨.loadAsync request.accountId none, .ok none⟩ ∈ callsOf service.trace run ∧
        ∃ url, YoomoneyInvoiceService.result host payment = .ok (request.accountId, url)) ∨
      Overtaken service.trace run request.accountId := by
  rcases invoice_follows begun runs job with ⟨left, followed, same⟩
  have failed := Program.map_eq_fail (same.symm.trans thrown)
  subst failed
  have stage := CreateInvoiceCommand.handle_stage followed
  have once (other : Payment) (again : ⟨CreateInvoiceCommand.creation host request, .ok other⟩ ∈
      callsOf service.trace run) : payment = other := stage.created_once created again
  generalize recorded : callsOf service.trace run = calls at stage
  cases stage with
  | unpaid =>
    rw [recorded] at created
    simp at created
  | @unusable made _ unread =>
    have sameMade : payment = made := by simpa [recorded] using created
    exact Or.inl (sameMade ▸ unread)
  | unloaded read =>
    have called : ⟨.loadAsync request.accountId none, .error error⟩ ∈ callsOf service.trace run := by simp [recorded]
    exact absurd called (load_returns lawful begun runs request.accountId error)
  | @refused made paymentId url loaded bankAccount _ read invoiced =>
    have called : ⟨.storeAsync bankAccount, .error error⟩ ∈ callsOf service.trace run := by simp [recorded]
    rcases refused_invoice_cause lawful begun runs job called with
      overtaken | ⟨missing, other, otherUrl, otherCreated, otherRead⟩
    · exact Or.inr (Or.inr overtaken)
    · have samePayment := once other otherCreated
      subst samePayment
      exact Or.inr (Or.inl ⟨recorded ▸ missing, otherUrl, otherRead⟩)

end Creation

/-- A run that has created a payment and returned has recorded it. One that has thrown could not read the
    provider's answer, found no account and was opening one with the payment's own id, or was overtaken. -/
theorem created_payment_recorded (lawful : store.Lawful) (begun : Begun store host jobs start)
    (runs : (machine store).Runs allowed start labels service) {request : CreateInvoiceCommand.Request}
    {openedAt createdAt : DateTime} (job : jobs run = .createInvoice request openedAt createdAt) {payment : Payment}
    (created : (run, ⟨CreateInvoiceCommand.creation host request, .ok payment⟩) ∈ service.trace) :
    (∀ response, service.thread run = .done response → ∃ paymentId, Guid.parse payment.id = .ok paymentId ∧
      .invoiceCreatedDomainEvent paymentId request.accountId request.amount createdAt ∈
        store.stream service.shared request.accountId) ∧
    (∀ error, service.thread run = .fail error →
      YoomoneyInvoiceService.result host payment = .error error ∨
      ((run, ⟨.loadAsync request.accountId none, .ok none⟩) ∈ service.trace ∧
        ∃ url, YoomoneyInvoiceService.result host payment = .ok (request.accountId, url)) ∨
      Overtaken service.trace run request.accountId) := by
  have mine := mem_callsOf.mpr created
  constructor
  · intro response returned
    exact returned_creation_recorded lawful begun runs job mine returned
  · intro error thrown
    have causes := thrown_creation_overtaken lawful begun runs job mine thrown
    rwa [mem_callsOf] at causes

def creationAlone : List (Bool × Except Exception Payment) := [true, true, true].map (·, .ok samplePayment)

def racingInvoices : Bool → Job := fun _ => sampleJobs true

def inTurns : List (Bool × Except Exception Payment) :=
  [(true, .ok samplePayment), (false, .ok otherPayment), (true, .ok samplePayment), (false, .ok samplePayment),
    (true, .ok samplePayment), (false, .ok samplePayment)]

theorem raced_payment_recorded :
    ∃ service, (machine inMemory).exec (begin sampleHost racingInvoices []) inTurns = some service ∧
      (∃ paymentId, Guid.parse samplePayment.id = .ok paymentId ∧
        .invoiceCreatedDomainEvent paymentId 1 sampleAmount.value 1 ∈ inMemory.stream service.shared 1) ∧
      Overtaken service.trace false 1 := by
  have sound : SoundStore inMemory [] := .unwritten fun _ => rfl
  have begun := begin_begun sampleHost racingInvoices sound
  have reached := Machine.exec_last
    (show ((machine inMemory).exec (begin sampleHost racingInvoices []) inTurns).isSome = true by decide +kernel)
  have runs := Machine.exec_runs _ _ _ _ reached
  have outcome {run : Bool} {payment : Payment}
      (created : (run, ⟨CreateInvoiceCommand.creation sampleHost ⟨1, sampleAmount.value⟩, .ok payment⟩) ∈
        ((machine inMemory).last (begin sampleHost racingInvoices []) inTurns).trace) :=
    created_payment_recorded inMemory_lawful begun runs (show racingInvoices run = sampleJobs true from rfl) created
  have readable : YoomoneyInvoiceService.result sampleHost otherPayment = .ok (8, "http://localhost") := by
    decide +kernel
  refine ⟨_, reached, (outcome (@List.mem_of_getElem? _ _ 0 _ rfl)).1 _ rfl, ?_⟩
  rcases (outcome (@List.mem_of_getElem? _ _ 1 _ rfl)).2 _ rfl with unread | ⟨-, url, own⟩ | overtaken
  · cases readable.symm.trans unread
  · cases readable.symm.trans own
  · exact overtaken

theorem racing_payment_unrecorded :
    ∃ service, (machine inMemory).exec (begin sampleHost racingInvoices []) inTurns = some service ∧
      (∀ run, (service.thread run).Finished) ∧ ¬ PaymentsRecorded inMemory sampleHost racingInvoices service := by
  have reached := Machine.exec_last
    (show ((machine inMemory).exec (begin sampleHost racingInvoices []) inTurns).isSome = true by decide +kernel)
  refine ⟨_, reached, by decide +kernel, ?_⟩
  intro recorded
  rcases recorded false _ _ _ otherPayment 8 rfl (@List.mem_of_getElem? _ _ 1 _ rfl) rfl with ⟨recordedAt, member⟩
  have absent : ∀ event ∈
      inMemory.stream ((machine inMemory).last (begin sampleHost racingInvoices []) inTurns).shared 1,
      event.createdInvoice ≠ some 8 := by decide +kernel
  exact absent _ member rfl

def PaymentCredited (store : IDocumentStore Db) (service : Service Db ι) (request : InvoiceStatusChangedEvent.Event)
    (eventId accountId : Guid) (amount : Amount) : Prop :=
  ∃ occuredAt, .moneyDepositedDomainEvent eventId accountId amount.value amount.currency request.invoice occuredAt ∈
    store.stream service.shared accountId

section Notification

variable {request : InvoiceStatusChangedEvent.Event} {occuredAt : DateTime} {eventId accountId : Guid} {amount : Amount}

theorem returned_notification_credited (lawful : store.Lawful) (begun : Begun store host jobs start)
    (runs : (machine store).Runs allowed start labels service)
    (job : jobs run = .invoiceStatusChanged request occuredAt) (parsed : Guid.parse request.invoice.id = .ok eventId)
    (named : Guid.parse request.invoice.merchantCustomerId = .ok accountId)
    (priced : request.invoice.amount = some amount) (unwritten : store.stream start.shared eventId = [])
    (apart : ¬ IsAccount jobs eventId) {response : Option CreateInvoiceCommand.Response}
    (returned : service.thread run = .done response) :
    PaymentCredited store service request eventId accountId amount := by
  rcases notification_follows begun runs job with ⟨left, followed, same⟩
  rcases Program.map_eq_done (same.symm.trans returned) with ⟨value, rfl, -⟩
  have stage := InvoiceStatusChangedEvent.handle_stage followed
  generalize recorded : callsOf service.trace run = calls at stage
  cases stage with
  | @existing knownId known =>
    cases parsed.symm.trans known
    have called : ⟨.existsAsync eventId, .ok true⟩ ∈ callsOf service.trace run := by simp [recorded]
    cases exists_not lawful begun runs unwritten apart called
  | @returned knownId _ _ loaded account credited =>
    have called : ⟨.storeAsync account, .ok ()⟩ ∈ callsOf service.trace run := by simp [recorded]
    rcases returned_batch lawful begun runs called with ⟨_, _, _, pending, inside, batch, stored⟩
    rw [job] at batch
    rcases batch.credit with ⟨value, batchParsed, batchNamed, batchPriced, rfl⟩
    cases parsed.symm.trans batchParsed
    cases named.symm.trans batchNamed
    cases priced.symm.trans batchPriced
    exact ⟨occuredAt, stored _ List.mem_cons_self⟩

theorem thrown_notification_overtaken (lawful : store.Lawful) (begun : Begun store host jobs start)
    (runs : (machine store).Runs allowed start labels service)
    (job : jobs run = .invoiceStatusChanged request occuredAt) (parsed : Guid.parse request.invoice.id = .ok eventId)
    (named : Guid.parse request.invoice.merchantCustomerId = .ok accountId)
    (priced : request.invoice.amount = some amount) (present : store.stream start.shared accountId ≠ [])
    (unwritten : store.stream start.shared eventId = []) (apart : ¬ IsAccount jobs eventId) {error : Exception}
    (thrown : service.thread run = .fail error) (within : error ≠ .overflowException) :
    Overtaken service.trace run accountId := by
  rcases notification_follows begun runs job with ⟨left, followed, same⟩
  have failed := Program.map_eq_fail (same.symm.trans thrown)
  subst failed
  have stage := InvoiceStatusChangedEvent.handle_stage followed
  generalize recorded : callsOf service.trace run = calls at stage
  cases stage with
  | malformed unparsed => cases parsed.symm.trans unparsed
  | @unanswered knownId _ known =>
    cases parsed.symm.trans known
    have called : ⟨.existsAsync eventId, .error error⟩ ∈ callsOf service.trace run := by simp [recorded]
    cases exists_not lawful begun runs unwritten apart called
  | anonymous unparsed => cases named.symm.trans unparsed
  | @unloaded _ loadedId _ addressed =>
    cases named.symm.trans addressed
    have called : ⟨.loadAsync accountId none, .error error⟩ ∈ callsOf service.trace run := by simp [recorded]
    exact absurd called (load_returns lawful begun runs accountId error)
  | @unknown _ loadedId addressed =>
    cases named.symm.trans addressed
    have called : ⟨.loadAsync accountId none, .ok none⟩ ∈ callsOf service.trace run := by simp [recorded]
    exact absurd called (load_finds lawful begun runs present)
  | priceless missing => cases priced.symm.trans missing
  | overflowing => exact absurd rfl within
  | @refused _ _ _ loaded account _ credited =>
    have called : ⟨.storeAsync account, .error error⟩ ∈ callsOf service.trace run := by simp [recorded]
    rcases refused_overtaken lawful begun runs called with ⟨_, _, base, pending, inside, batch, -, overtaken⟩
    rw [job] at batch
    rcases batch.credit with ⟨value, batchParsed, batchNamed, batchPriced, rfl⟩
    cases named.symm.trans batchNamed
    exact overtaken (List.nodup_singleton _)

end Notification

/-- A notification run that has returned has credited its account. One that has thrown, other than by an
    overflow, was overtaken. -/
theorem notified_payment_credited (lawful : store.Lawful) (begun : Begun store host jobs start)
    (runs : (machine store).Runs allowed start labels service) {request : InvoiceStatusChangedEvent.Event}
    {occuredAt : DateTime} (job : jobs run = .invoiceStatusChanged request occuredAt) {eventId accountId : Guid}
    (parsed : Guid.parse request.invoice.id = .ok eventId)
    (named : Guid.parse request.invoice.merchantCustomerId = .ok accountId) {amount : Amount}
    (priced : request.invoice.amount = some amount) (present : store.stream start.shared accountId ≠ [])
    (unwritten : store.stream start.shared eventId = []) (apart : ¬ IsAccount jobs eventId) :
    (∀ response, service.thread run = .done response →
      PaymentCredited store service request eventId accountId amount) ∧
    (∀ error, service.thread run = .fail error → error ≠ .overflowException →
      Overtaken service.trace run accountId) := by
  constructor
  · intro response returned
    exact returned_notification_credited lawful begun runs job parsed named priced unwritten apart returned
  · intro error thrown within
    exact thrown_notification_overtaken lawful begun runs job parsed named priced present unwritten apart thrown within

def invoicedLog : List (Guid × Event) := ((machine inMemory).last (begin sampleHost sampleJobs []) creationAlone).shared

theorem invoicedLog_sound : SoundStore inMemory invoicedLog := by
  have unwritten : SoundStore inMemory [] := .unwritten fun _ => rfl
  exact sound inMemory_lawful (begin_begun sampleHost sampleJobs unwritten)
    (Machine.exec_runs _ _ _ _ (Machine.exec_last rfl))

theorem invoice_not_account : ¬ IsAccount sampleJobs 7 := by
  intro account
  rcases account with ⟨run, named⟩
  cases run <;> cases named

def notificationBetween : List (Bool × Except Exception Payment) :=
  [true, true, false, false, false, true].map (·, .ok otherPayment)

def creationBetween : List (Bool × Except Exception Payment) :=
  [false, false, true, true, true, false].map (·, .ok otherPayment)

theorem contended_notification_credits :
    (∃ service, (machine inMemory).exec (begin sampleHost sampleJobs invoicedLog) notificationBetween = some service ∧
      PaymentCredited inMemory service ⟨samplePayment⟩ 7 1 sampleAmount) ∧
    ∃ service, (machine inMemory).exec (begin sampleHost sampleJobs invoicedLog) creationBetween = some service ∧
      Overtaken service.trace false 1 := by
  have credited {labels : List (Bool × Except Exception Payment)} {service : Service (List (Guid × Event)) Bool}
      (reached : (machine inMemory).exec (begin sampleHost sampleJobs invoicedLog) labels = some service) :=
    notified_payment_credited inMemory_lawful (begin_begun sampleHost sampleJobs invoicedLog_sound)
      (Machine.exec_runs _ _ _ _ reached) (show sampleJobs false = _ from rfl) rfl rfl rfl
      (show inMemory.stream invoicedLog 1 ≠ [] by decide +kernel) rfl invoice_not_account
  constructor
  · have reached := Machine.exec_last (show ((machine inMemory).exec (begin sampleHost sampleJobs invoicedLog)
      notificationBetween).isSome = true by decide +kernel)
    exact ⟨_, reached, (credited reached).1 _ rfl⟩
  · have reached := Machine.exec_last (show ((machine inMemory).exec (begin sampleHost sampleJobs invoicedLog)
      creationBetween).isSome = true by decide +kernel)
    exact ⟨_, reached, (credited reached).2 _ rfl (by decide)⟩

theorem overtaken_payment_uncredited :
    ∃ service, (machine inMemory).exec (begin sampleHost sampleJobs invoicedLog) creationBetween = some service ∧
      (∀ run, (service.thread run).Finished) ∧ inMemory.stream invoicedLog 1 ≠ [] ∧ ¬ IsAccount sampleJobs 7 ∧
      ¬ PaymentCredited inMemory service ⟨samplePayment⟩ 7 1 sampleAmount := by
  have reached := Machine.exec_last (show ((machine inMemory).exec (begin sampleHost sampleJobs invoicedLog)
    creationBetween).isSome = true by decide +kernel)
  refine ⟨_, reached, by decide +kernel, by decide +kernel, invoice_not_account, ?_⟩
  intro credited
  rcases credited with ⟨occuredAt, member⟩
  have absent : ∀ event ∈ inMemory.stream ((machine inMemory).last (begin sampleHost sampleJobs invoicedLog)
      creationBetween).shared 1, event.depositedInvoice ≠ some 7 := by decide +kernel
  exact absent _ member rfl

end Service

end Yoomoney
