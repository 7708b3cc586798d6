import EsYoomoney.Application.Service

namespace Yoomoney

open EventSourcing DomainEvents BankAccountAggregate

/-- What a run appends to its account's stream, by the payment it is about and the events it finds there. -/
inductive Batch (host : Host) : Job → List (Exchange Call Answer Exception) → Guid → Guid →
    List Event → List Event → Prop where
  | opening {request openedAt createdAt calls payment paymentId url}
      (created : ⟨CreateInvoiceCommand.creation host request, .ok payment⟩ ∈ calls)
      (read : YoomoneyInvoiceService.result host payment = .ok (paymentId, url)) :
      Batch host (.createInvoice request openedAt createdAt) calls paymentId request.accountId []
        [.accountBalanceInitializedTo request.accountId openedAt,
          .invoiceCreatedDomainEvent paymentId request.accountId request.amount createdAt]
  | further {request openedAt createdAt calls payment paymentId url base}
      (created : ⟨CreateInvoiceCommand.creation host request, .ok payment⟩ ∈ calls)
      (read : YoomoneyInvoiceService.result host payment = .ok (paymentId, url)) (present : base ≠ []) :
      Batch host (.createInvoice request openedAt createdAt) calls paymentId request.accountId base
        [.invoiceCreatedDomainEvent paymentId request.accountId request.amount createdAt]
  | crediting {request occuredAt calls eventId accountId amount base}
      (parsed : Guid.parse request.invoice.id = .ok eventId)
      (named : Guid.parse request.invoice.merchantCustomerId = .ok accountId)
      (priced : request.invoice.amount = some amount) (present : base ≠ []) :
      Batch host (.invoiceStatusChanged request occuredAt) calls eventId accountId base
        [.moneyDepositedDomainEvent eventId accountId amount.value amount.currency request.invoice occuredAt]

namespace Batch

variable {host : Host} {job : Job} {calls : List (Exchange Call Answer Exception)} {paymentId accountId : Guid}
  {base pending : List Event}

theorem filled (batch : Batch host job calls paymentId accountId base pending) : pending ≠ [] := by
  cases batch <;> exact List.cons_ne_nil _ _

theorem nodup (batch : Batch host job calls paymentId accountId base pending) : pending.Nodup := by
  cases batch <;> simp

theorem carried (batch : Batch host job calls paymentId accountId base pending) :
    ∀ event ∈ pending, event.streamId = accountId := by
  cases batch <;> simp [Event.streamId]

theorem account (batch : Batch host job calls paymentId accountId base pending) : job.account = some accountId := by
  cases batch with
  | opening created read => rfl
  | further created read present => rfl
  | crediting parsed named priced present => simp [Job.account, named, Except.toOption]

theorem distinct (batch : Batch host job calls paymentId accountId base pending)
    (apart : base = [] → paymentId ≠ accountId) : (pending.map Event.eventId).Nodup := by
  cases batch with
  | opening created read => simpa [Event.eventId, eq_comm] using apart rfl
  | further created read present => exact List.nodup_singleton _
  | crediting parsed named priced present => exact List.nodup_singleton _

theorem rooted (batch : Batch host job calls paymentId accountId base pending)
    (root : base ≠ [] → Rooted accountId base) : Rooted accountId (base ++ pending) := by
  cases batch with
  | opening created read => exact ⟨⟨_, _, rfl⟩, by simp [Event.streamId]⟩
  | further created read present => exact (root present).append (by simp [Event.streamId])
  | crediting parsed named priced present => exact (root present).append (by simp [Event.streamId])

end Batch

theorem aggregated_live {id : Guid} {base : List Event} {account : BankAccountAggregate}
    (aggregation : aggregated base = .ok (some account)) (root : base ≠ [] → Rooted id base) :
    Live account base [] ∧ base ≠ [] ∧ account.id = id := by
  rcases aggregated_some aggregation with ⟨replayed, present⟩
  have live := Live.loaded replayed
  refine ⟨live, present, ?_⟩
  rw [live.id, List.append_nil, (root present).identified]

theorem CreateInvoiceCommand.invoiced_batch (host : Host) {openedAt createdAt : DateTime} {request : Request}
    {calls : List (Exchange Call Answer Exception)} {payment : Payment} {paymentId : Guid} {url : Uri}
    {base : List Event} {loaded : Option BankAccountAggregate} {bankAccount : BankAccountAggregate}
    (created : ⟨creation host request, .ok payment⟩ ∈ calls)
    (read : YoomoneyInvoiceService.result host payment = .ok (paymentId, url))
    (aggregation : aggregated base = .ok loaded) (root : base ≠ [] → Rooted request.accountId base)
    (made : invoiced openedAt createdAt request paymentId loaded = .ok bankAccount) :
    bankAccount.id = request.accountId ∧ ∃ pending, Live bankAccount base pending ∧
      Batch host (.createInvoice request openedAt createdAt) calls paymentId request.accountId base pending := by
  cases loaded with
  | none =>
    have missing := (aggregated_none_iff base).mp aggregation
    subst missing
    have performed : construct ((Operation.createInvoice paymentId request.amount).perform createdAt)
        (new.recorded (.accountBalanceInitializedTo request.accountId openedAt) Decimal.zero) = .ok bankAccount := made
    rcases (Live.opened request.accountId openedAt).perform (construct_ok performed) with ⟨live, sameId⟩
    exact ⟨sameId, _, live, .opening created read⟩
  | some account =>
    rcases aggregated_live aggregation root with ⟨live, present, identified⟩
    have performed : construct ((Operation.createInvoice paymentId request.amount).perform createdAt) account =
        .ok bankAccount := made
    rcases live.perform (construct_ok performed) with ⟨next, sameId⟩
    rw [identified] at next sameId
    exact ⟨sameId, _, next, .further created read present⟩

theorem InvoiceStatusChangedEvent.credited_batch (host : Host) {occuredAt : DateTime}
    {request : InvoiceStatusChangedEvent.Event} (calls : List (Exchange Call Answer Exception))
    {eventId accountId : Guid} {amount : Amount} {base : List DomainEvents.Event}
    {loaded account : BankAccountAggregate}
    (aggregation : aggregated base = .ok (some loaded)) (root : base ≠ [] → Rooted accountId base)
    (credited : Credited occuredAt request eventId accountId amount loaded account) :
    account.id = accountId ∧ ∃ pending, Live account base pending ∧
      Batch host (.invoiceStatusChanged request occuredAt) calls eventId accountId base pending := by
  rcases aggregated_live aggregation root with ⟨live, present, identified⟩
  have performed : construct ((Operation.deposit eventId amount.value amount.currency request.invoice).perform
      occuredAt) loaded = .ok account := credited.performed
  rcases live.perform (construct_ok performed) with ⟨next, sameId⟩
  rw [identified] at next sameId
  exact ⟨sameId, _, next, .crediting credited.parsed credited.named credited.priced present⟩

namespace Service

variable {Db ι : Type} [DecidableEq ι] {store : IDocumentStore Db} {host : Host} {jobs : ι → Job}
  {start service after : Service Db ι} {allowed : Service Db ι → ι × Except Exception Payment → Prop}
  {labels : List (ι × Except Exception Payment)}

/-- A run about to store: the object it built, on what it loaded, from the calls it has made. -/
structure Storing (store : IDocumentStore Db) (host : Host) (jobs : ι → Job) (start service : Service Db ι) (run : ι)
    (account : BankAccountAggregate) (paymentId : Guid) (earlier between : Trace ι) (pending : List Event) : Prop where
  loaded : ∃ answer, service.trace = earlier ++ (run, ⟨.loadAsync account.id none, .ok answer⟩) :: between
  batch : Batch host (jobs run) (callsOf service.trace run) paymentId account.id
    (streamAt store start earlier account.id) pending
  live : Live account (streamAt store start earlier account.id) pending
  first : ∀ exchange ∈ callsOf service.trace run, ∀ id, appended id exchange = []

theorem Storing.of_account {run : ι} {account : BankAccountAggregate} {paymentId accountId : Guid}
    {earlier between : Trace ι} {pending : List Event} (sameId : account.id = accountId)
    (loaded : ∃ answer, service.trace = earlier ++ (run, ⟨.loadAsync accountId none, .ok answer⟩) :: between)
    (batch : Batch host (jobs run) (callsOf service.trace run) paymentId accountId
      (streamAt store start earlier accountId) pending)
    (live : Live account (streamAt store start earlier accountId) pending)
    (first : ∀ exchange ∈ callsOf service.trace run, ∀ id, appended id exchange = []) :
    Storing store host jobs start service run account paymentId earlier between pending := by
  subst sameId
  exact ⟨loaded, batch, live, first⟩

theorem rooted_at (lawful : store.Lawful) (begun : start.trace = [])
    (runs : (machine store).Runs allowed start labels service) (rooted : RootedStore store service.shared)
    {earlier later : Trace ι} (split : service.trace = earlier ++ later) {id : Guid}
    (present : streamAt store start earlier id ≠ []) : Rooted id (streamAt store start earlier id) := by
  have stream := streams lawful begun runs id
  rw [split, streamAt_append] at stream
  have whole := rooted id
  rw [stream] at whole
  exact (whole (List.append_ne_nil_of_left_ne_nil present _)).of_initial (List.prefix_append _ _) present

/-- The load splits the trace: what it read is the stream before it, and rivals can only come behind. -/
theorem loaded_base (lawful : store.Lawful) (begun : start.trace = [])
    (runs : (machine store).Runs allowed start labels service) (rooted : RootedStore store service.shared) {run : ι}
    {id : Guid} {answer : Option BankAccountAggregate}
    (called : ⟨.loadAsync id none, .ok answer⟩ ∈ callsOf service.trace run) :
    ∃ earlier between, service.trace = earlier ++ (run, ⟨.loadAsync id none, .ok answer⟩) :: between ∧
      aggregated (streamAt store start earlier id) = .ok answer ∧
      (streamAt store start earlier id ≠ [] → Rooted id (streamAt store start earlier id)) := by
  rcases List.append_of_mem (mem_callsOf.mp called) with ⟨earlier, between, split⟩
  exact ⟨earlier, between, split, (loads lawful begun runs split).symm, rooted_at lawful begun runs rooted split⟩

theorem storing (lawful : store.Lawful) (begun : Begun store host jobs start)
    (runs : (machine store).Runs allowed start labels service) (rooted : RootedStore store service.shared) {run : ι}
    {account : BankAccountAggregate} {next} (waiting : service.thread run = .call (.storeAsync account) next) :
    ∃ paymentId earlier between pending,
      Storing store host jobs start service run account paymentId earlier between pending := by
  cases job : jobs run with
  | createInvoice request openedAt createdAt =>
    rcases invoice_follows begun runs job with ⟨inner, followed, same⟩
    rcases Program.map_eq_call (same.symm.trans waiting) with ⟨rest, rfl⟩
    generalize recorded : callsOf service.trace run = calls at followed
    cases CreateInvoiceCommand.handle_stage followed with
    | @storing payment paymentId url loaded bankAccount next read made =>
      have asked : ⟨CreateInvoiceCommand.loading request, .ok loaded⟩ ∈ callsOf service.trace run := by
        simp [recorded]
      have created : ⟨CreateInvoiceCommand.creation host request, .ok payment⟩ ∈ callsOf service.trace run := by
        simp [recorded]
      obtain ⟨earlier, between, split, aggregation, root⟩ := loaded_base lawful begun.trace runs rooted asked
      obtain ⟨sameId, pending, live, batch⟩ :=
        CreateInvoiceCommand.invoiced_batch host created read aggregation root made
      refine ⟨paymentId, earlier, between, pending, .of_account sameId ⟨loaded, split⟩ ?_ live ?_⟩
      · rw [job]
        exact batch
      · rw [recorded]
        simp [appended]
  | invoiceStatusChanged request occuredAt =>
    rcases notification_follows begun runs job with ⟨inner, followed, same⟩
    rcases Program.map_eq_call (same.symm.trans waiting) with ⟨rest, rfl⟩
    generalize recorded : callsOf service.trace run = calls at followed
    cases InvoiceStatusChangedEvent.handle_stage followed with
    | @storing eventId accountId amount loaded account next credited =>
      have asked : ⟨.loadAsync accountId none, .ok (some loaded)⟩ ∈ callsOf service.trace run := by
        simp [recorded]
      obtain ⟨earlier, between, split, aggregation, root⟩ := loaded_base lawful begun.trace runs rooted asked
      obtain ⟨sameId, pending, live, batch⟩ := InvoiceStatusChangedEvent.credited_batch host
        (callsOf service.trace run) aggregation root credited
      refine ⟨eventId, earlier, between, pending, .of_account sameId ⟨some loaded, split⟩ ?_ live ?_⟩
      · rw [job]
        exact batch
      · rw [recorded]
        simp [appended]

namespace Storing

variable {run : ι} {account : BankAccountAggregate} {paymentId : Guid} {earlier between : Trace ι}
  {pending : List Event}

theorem current (storing : Storing store host jobs start service run account paymentId earlier between pending)
    (lawful : store.Lawful) (begun : start.trace = []) (runs : (machine store).Runs allowed start labels service) :
    store.stream service.shared account.id = streamAt store start earlier account.id ++ written between account.id := by
  rcases storing.loaded with ⟨answer, split⟩
  rw [streams lawful begun runs, split, streamAt_append]
  rfl

theorem uncommitted (storing : Storing store host jobs start service run account paymentId earlier between pending) :
    account.getUncommittedEvents = pending := storing.live.getUncommittedEvents storing.batch.nodup

theorem store_iff (storing : Storing store host jobs start service run account paymentId earlier between pending)
    (lawful : store.Lawful) (begun : start.trace = []) (runs : (machine store).Runs allowed start labels service)
    (distinct : (pending.map Event.eventId).Nodup) :
    (∃ db, EventStore.storeAsync store service.shared account = .ok db) ↔ written between account.id = [] := by
  have stream := storing.current lawful begun runs
  have past : streamAt store start earlier account.id <+: store.stream service.shared account.id := by
    rw [stream]
    exact List.prefix_append _ _
  rw [IDocumentStore.Lawful.storeAsync_eq storing.live distinct, lawful.streams.append_ok_iff past storing.batch.filled,
    stream, List.append_right_eq_self]

theorem stored_distinct (storing : Storing store host jobs start service run account paymentId earlier between pending)
    {db : Db} (saved : EventStore.storeAsync store service.shared account = .ok db) :
    (pending.map Event.eventId).Nodup := by
  by_contra duplicate
  rw [← storing.uncommitted] at duplicate
  rw [IDocumentStore.Lawful.storeAsync_duplicate duplicate] at saved
  cases saved

end Storing

structure Commit (store : IDocumentStore Db) (host : Host) (jobs : ι → Job) (start service after : Service Db ι)
    (run : ι) (account : BankAccountAggregate) (paymentId : Guid) (earlier between : Trace ι) (pending : List Event) :
    Prop where
  storing : Storing store host jobs start service run account paymentId earlier between pending
  unchanged : written between account.id = []
  distinct : (pending.map Event.eventId).Nodup
  batch : Batch host (jobs run) (callsOf service.trace run) paymentId account.id
    (store.stream service.shared account.id) pending
  live : Live account (store.stream service.shared account.id) pending
  stream : store.stream after.shared account.id = store.stream service.shared account.id ++ pending
  frame : ∀ other, other ≠ account.id → store.stream after.shared other = store.stream service.shared other

theorem Storing.commit {run : ι} {account : BankAccountAggregate} {paymentId : Guid} {earlier between : Trace ι}
    {pending : List Event}
    (storing : Storing store host jobs start service run account paymentId earlier between pending)
    (lawful : store.Lawful) (begun : start.trace = []) (runs : (machine store).Runs allowed start labels service)
    (saved : EventStore.storeAsync store service.shared account = .ok after.shared) :
    Commit store host jobs start service after run account paymentId earlier between pending := by
  have distinct := storing.stored_distinct saved
  have unchanged := (storing.store_iff lawful begun runs distinct).mp ⟨_, saved⟩
  have stream := storing.current lawful begun runs
  rw [unchanged, List.append_nil] at stream
  have appended := storeAsync_appended saved
  refine ⟨storing, unchanged, distinct, ?_, ?_, ?_, lawful.streams.append_frame appended⟩
  · rw [stream]
    exact storing.batch
  · rw [stream]
    exact storing.live
  · rw [lawful.streams.append_stream appended, storing.uncommitted]

theorem Commit.loading {run : ι} {account : BankAccountAggregate} {paymentId : Guid} {earlier between : Trace ι}
    {pending : List Event}
    (commit : Commit store host jobs start service after run account paymentId earlier between pending)
    (lawful : store.Lawful) (begun : start.trace = []) (runs : (machine store).Runs allowed start labels service) :
    ∃ middle choice next, allowed middle (run, choice) ∧ middle.thread run = .call (.loadAsync account.id none) next ∧
      store.stream middle.shared account.id = store.stream service.shared account.id := by
  rcases commit.storing.loaded with ⟨answer, recorded⟩
  rcases Pool.split begun runs recorded with ⟨middle, past, choice, next, reached, same, permitted, waiting, -⟩
  refine ⟨middle, choice, next, permitted, waiting, ?_⟩
  rw [commit.storing.current lawful begun runs, commit.unchanged, List.append_nil, streams lawful begun reached, same]

/-- A step leaves every stream alone or appends one run's batch to one of them. -/
theorem step_streams (lawful : store.Lawful) (begun : Begun store host jobs start)
    (runs : (machine store).Runs allowed start labels service) (rooted : RootedStore store service.shared)
    {label : ι × Except Exception Payment} (taken : (machine store).step service label = some after) :
    (∀ id, store.stream after.shared id = store.stream service.shared id) ∨
      ∃ account next paymentId earlier between pending,
        service.thread label.1 = .call (.storeAsync account) next ∧
        Commit store host jobs start service after label.1 account paymentId earlier between pending := by
  rcases Pool.step_eq taken with ⟨call, next, waiting, rfl⟩
  cases call with
  | createPayment newPayment => exact Or.inl fun _ => rfl
  | existsAsync eventId => exact Or.inl fun _ => rfl
  | loadAsync id version => exact Or.inl fun _ => rfl
  | storeAsync account =>
    rcases storing lawful begun runs rooted waiting with ⟨paymentId, earlier, between, pending, storing⟩
    cases saved : EventStore.storeAsync store service.shared account with
    | error error =>
      left
      intro id
      simp only [environment, respond, saved]
    | ok db =>
      refine Or.inr ⟨account, next, paymentId, earlier, between, pending, waiting,
        storing.commit lawful begun.trace runs ?_⟩
      simp only [environment, respond, saved]

theorem sound (lawful : store.Lawful) (begun : Begun store host jobs start)
    (runs : (machine store).Runs allowed start labels service) : SoundStore store service.shared := by
  induction runs with
  | refl => exact begun.sound
  | step past permitted taken ih =>
    rcases step_streams lawful begun past ih.rooted taken with same | ⟨account, _, _, _, _, pending, -, commit⟩
    · exact ⟨fun id => by rw [same id]; exact ih.rooted id, fun id => by rw [same id]; exact ih.replays id⟩
    constructor
    · intro id present
      by_cases own : id = account.id
      · subst own
        rw [commit.stream]
        exact commit.batch.rooted (ih.rooted _)
      · rw [commit.frame id own] at present ⊢
        exact ih.rooted id present
    · intro id
      by_cases own : id = account.id
      · subst own
        rw [commit.stream]
        exact ⟨_, commit.live.replayed⟩
      · rw [commit.frame id own]
        exact ih.replays id

theorem store_call (lawful : store.Lawful) (begun : Begun store host jobs start)
    (runs : (machine store).Runs allowed start labels service) {before later : Trace ι} {run : ι}
    {account : BankAccountAggregate} {answer : Except Exception Unit}
    (recorded : service.trace = before ++ (run, ⟨.storeAsync account, answer⟩) :: later) :
    ∃ middle past choice paymentId earlier between pending,
      (machine store).Runs allowed start past middle ∧ middle.trace = before ∧
      (∀ exchange ∈ callsOf middle.trace run, exchange ∈ callsOf service.trace run) ∧
      Storing store host jobs start middle run account paymentId earlier between pending ∧
      (respond store middle.shared (.storeAsync account) choice).1 = answer := by
  rcases Pool.split begun.trace runs recorded with ⟨middle, past, choice, next, reached, same, -, waiting, answered⟩
  obtain ⟨paymentId, earlier, between, pending, storing⟩ :=
    storing lawful begun reached (sound lawful begun reached).rooted waiting
  refine ⟨middle, past, choice, paymentId, earlier, between, pending, reached, same, ?_, storing, answered⟩
  intro exchange called
  rw [recorded, callsOf_append, ← same]
  exact List.mem_append_left _ called

theorem appended_of_mem {id : Guid} {event : Event} {exchange : Exchange Call Answer Exception}
    (member : event ∈ appended id exchange) :
    ∃ account, account.id = id ∧ event ∈ account.getUncommittedEvents ∧ exchange = ⟨.storeAsync account, .ok ()⟩ := by
  cases exchange with
  | mk call answer =>
    cases call with
    | createPayment newPayment => cases member
    | existsAsync eventId => cases member
    | loadAsync loadedId version => cases member
    | storeAsync account =>
      cases answer with
      | error error => cases member
      | ok answer =>
        by_cases own : account.id = id
        · simp only [appended, own, if_true] at member
          exact ⟨account, own, member, rfl⟩
        · simp [appended, own] at member

theorem stored_by (lawful : store.Lawful) (begun : Begun store host jobs start)
    (runs : (machine store).Runs allowed start labels service) {id : Guid} {event : Event}
    (stored : event ∈ store.stream service.shared id) :
    event ∈ store.stream start.shared id ∨ ∃ run account middle past paymentId earlier between pending,
      account.id = id ∧ ⟨.storeAsync account, .ok ()⟩ ∈ callsOf service.trace run ∧ event ∈ pending ∧
      (machine store).Runs allowed start past middle ∧
      (∀ exchange ∈ callsOf middle.trace run, exchange ∈ callsOf service.trace run) ∧
      Storing store host jobs start middle run account paymentId earlier between pending := by
  rw [streams lawful begun.trace runs, streamAt, List.mem_append] at stored
  apply stored.imp_right
  intro added
  rcases List.mem_flatMap.mp added with ⟨⟨run, exchange⟩, listed, member⟩
  rcases appended_of_mem member with ⟨account, same, pendingMember, rfl⟩
  rcases List.append_of_mem listed with ⟨before, later, split⟩
  obtain ⟨middle, past, choice, paymentId, earlier, between, pending, reached, -, called, storing, -⟩ :=
    store_call lawful begun runs split
  rw [storing.uncommitted] at pendingMember
  exact ⟨run, account, middle, past, paymentId, earlier, between, pending, same, mem_callsOf.mpr listed, pendingMember,
    reached, called, storing⟩

theorem Storing.appended {run : ι} {account : BankAccountAggregate} {paymentId : Guid} {earlier between : Trace ι}
    {pending : List Event}
    (storing : Storing store host jobs start service run account paymentId earlier between pending) :
    appended account.id ⟨.storeAsync account, .ok ()⟩ = pending := by
  simp [Yoomoney.appended, storing.uncommitted]

theorem stored_event (lawful : store.Lawful) (begun : Begun store host jobs start)
    (runs : (machine store).Runs allowed start labels service) {id : Guid} {event : Event}
    (stored : event ∈ store.stream service.shared id) :
    event ∈ store.stream start.shared id ∨ ∃ run calls paymentId base pending,
      (∀ exchange ∈ calls, exchange ∈ callsOf service.trace run) ∧
      Batch host (jobs run) calls paymentId id base pending ∧ event ∈ pending ∧
      ∃ exchange ∈ callsOf service.trace run, appended id exchange ≠ [] := by
  apply (stored_by lawful begun runs stored).imp_right
  rintro ⟨run, account, middle, past, paymentId, earlier, between, pending, rfl, listed, member, -, called, storing⟩
  refine ⟨run, _, paymentId, _, pending, called, storing.batch, member, _, listed, ?_⟩
  rw [storing.appended]
  exact List.ne_nil_of_mem member

theorem returned_batch (lawful : store.Lawful) (begun : Begun store host jobs start)
    (runs : (machine store).Runs allowed start labels service) {run : ι} {account : BankAccountAggregate}
    (called : ⟨.storeAsync account, .ok ()⟩ ∈ callsOf service.trace run) :
    ∃ calls paymentId base pending, (∀ exchange ∈ calls, exchange ∈ callsOf service.trace run) ∧
      Batch host (jobs run) calls paymentId account.id base pending ∧
      ∀ event ∈ pending, event ∈ store.stream service.shared account.id := by
  have listed := mem_callsOf.mp called
  rcases List.append_of_mem listed with ⟨before, later, split⟩
  obtain ⟨middle, past, choice, paymentId, earlier, between, pending, reached, same, mine, storing, -⟩ :=
    store_call lawful begun runs split
  refine ⟨_, paymentId, _, pending, mine, storing.batch, fun event member => ?_⟩
  rw [streams lawful begun.trace runs, streamAt, List.mem_append]
  refine Or.inr (List.mem_flatMap.mpr ⟨_, listed, ?_⟩)
  rw [storing.appended]
  exact member

end Service

end Yoomoney
