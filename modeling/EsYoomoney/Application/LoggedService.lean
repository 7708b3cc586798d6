import EsYoomoney.Application.CreateInvoiceCommandLog

namespace Yoomoney

open EventSourcing DomainEvents BankAccountAggregate

def Job.logged (host : Host) : Job → LoggingHandler (Option CreateInvoiceCommand.Response)
  | createInvoice request openedAt createdAt =>
    some <$> CreateInvoiceCommand.handleLogged host openedAt createdAt request
  | invoiceStatusChanged request occuredAt =>
    ((fun _ => none) <$> InvoiceStatusChangedEvent.handle occuredAt request : Handler _).noted

theorem Job.logged_erases (host : Host) (job : Job) : (job.logged host).Erases (job.program host) := by
  cases job with
  | createInvoice request openedAt createdAt =>
    exact (CreateInvoiceCommand.handleLogged_erases host openedAt createdAt request).map some
  | invoiceStatusChanged request occuredAt => exact .noted _

theorem Batch.opens {host : Host} {job : Job} {calls : List (Exchange Call Answer Exception)}
    {paymentId accountId : Guid} {base pending : List Event}
    (batch : Batch host job calls paymentId accountId base pending) {event : Event} (member : event ∈ pending)
    (opens : event.opensAccount = true) : base = [] ∧ ∃ request openedAt createdAt,
      job = .createInvoice request openedAt createdAt := by
  cases batch with
  | opening created read => exact ⟨rfl, _, _, _, rfl⟩
  | further created read present =>
    rw [List.mem_singleton.mp member] at opens
    cases opens
  | crediting parsed named priced present =>
    rw [List.mem_singleton.mp member] at opens
    cases opens

namespace CreateInvoiceCommand

variable {host : Host} {openedAt createdAt : DateTime} {request : Request}

theorem Invoicing.opens {payment : Payment} {paymentId : Guid} {url : Uri} {loaded : Option BankAccountAggregate}
    {start bankAccount : BankAccountAggregate}
    (invoicing : Invoicing host openedAt createdAt request payment paymentId url loaded start bankAccount) :
    bankAccount.getUncommittedEvents.any Event.opensAccount = start.getUncommittedEvents.any Event.opensAccount := by
  have performed : ((Operation.createInvoice paymentId request.amount).perform createdAt).run start =
      .ok () bankAccount := construct_ok invoicing.performed
  rcases perform_ok performed with ⟨balance, -, rfl⟩
  rw [Bool.eq_iff_iff, List.any_eq_true, List.any_eq_true]
  simp only [getUncommittedEvents, recorded, OrderedSet.mem_add]
  constructor
  · rintro ⟨event, member | rfl, opens⟩
    · exact ⟨event, member, opens⟩
    · rw [Operation.event_opensAccount] at opens
      cases opens
  · rintro ⟨event, member, opens⟩
    exact ⟨event, Or.inl member, opens⟩

theorem Stage.loaded_once {calls : List (Exchange Call Answer Exception)} {left : Handler Response}
    {first second : Option BankAccountAggregate} (stage : Stage host openedAt createdAt request calls left)
    (here : ⟨CreateInvoiceCommand.loading request, .ok first⟩ ∈ calls)
    (there : ⟨CreateInvoiceCommand.loading request, .ok second⟩ ∈ calls) : first = second := by
  cases stage <;> simp at here there <;> exact here.trans there.symm

end CreateInvoiceCommand

namespace Service

variable {Db ι : Type} [DecidableEq ι] {store : IDocumentStore Db} {host : Host} {jobs : ι → Job}
  {start service : Service Db ι} {allowed : Service Db ι → ι × Except Exception Payment → Prop}
  {labels : List (ι × Except Exception Payment)}

/-- An object that the store has loaded has nothing to store. -/
theorem loaded_settled (lawful : store.Lawful) (begun : Begun store host jobs start)
    (runs : (machine store).Runs allowed start labels service) {run : ι} {id : Guid} {account : BankAccountAggregate}
    (loaded : ⟨.loadAsync id none, .ok (some account)⟩ ∈ callsOf service.trace run) :
    account.getUncommittedEvents = [] := by
  have rooted := (sound lawful begun runs).rooted
  obtain ⟨earlier, between, -, aggregation, root⟩ := loaded_base lawful begun.trace runs rooted loaded
  exact (aggregated_live aggregation root).1.getUncommittedEvents List.nodup_nil

theorem opening_stored (lawful : store.Lawful) (begun : Begun store host jobs start)
    (runs : (machine store).Runs allowed start labels service) {before later : Trace ι} {run : ι}
    {account : BankAccountAggregate}
    (recorded : service.trace = before ++ (run, ⟨.storeAsync account, .ok ()⟩) :: later)
    (opens : account.getUncommittedEvents.any Event.opensAccount = true) : written before account.id = [] := by
  obtain ⟨middle, past, choice, paymentId, earlier, between, pending, reached, same, -, storing, answered⟩ :=
    store_call lawful begun runs recorded
  have saved : ∃ db, EventStore.storeAsync store middle.shared account = .ok db := by
    cases saved : EventStore.storeAsync store middle.shared account with
    | ok db => exact ⟨db, rfl⟩
    | error error =>
      simp only [respond, saved] at answered
      cases answered
  have unchanged := (storing.store_iff lawful begun.trace reached (storing.stored_distinct saved.choose_spec)).mp saved
  rcases List.any_eq_true.mp opens with ⟨event, member, opened⟩
  rw [storing.uncommitted] at member
  have stream := storing.current lawful begun.trace reached
  rw [(storing.batch.opens member opened).1, unchanged, streams lawful begun.trace reached, same] at stream
  exact (List.append_eq_nil_iff.mp stream).2

theorem unopened (lawful : store.Lawful) (begun : Begun store host jobs start)
    (runs : (machine store).Runs allowed start labels service) {before later : Trace ι} {run other : ι}
    {account rival : BankAccountAggregate}
    (recorded : service.trace = before ++ (run, ⟨.storeAsync account, .ok ()⟩) :: later)
    (sameId : account.id = rival.id) (opens : account.getUncommittedEvents.any Event.opensAccount = true)
    (opened : rival.getUncommittedEvents.any Event.opensAccount = true) :
    (other, ⟨.storeAsync rival, .ok ()⟩) ∉ before := by
  intro member
  have nothing := opening_stored lawful begun runs recorded opens
  have stored : appended account.id ⟨.storeAsync rival, .ok ()⟩ = rival.getUncommittedEvents := by
    simp [appended, sameId]
  rcases List.any_eq_true.mp opened with ⟨event, pending, -⟩
  rw [← stored] at pending
  have wrote : event ∈ written before account.id := List.mem_flatMap.mpr ⟨_, member, pending⟩
  rw [nothing] at wrote
  cases wrote

/-- Only one run can store an account's opening. -/
theorem opened_once (lawful : store.Lawful) (begun : Begun store host jobs start)
    (runs : (machine store).Runs allowed start labels service) {left right : ι} {first second : BankAccountAggregate}
    (here : (left, ⟨.storeAsync first, .ok ()⟩) ∈ service.trace)
    (there : (right, ⟨.storeAsync second, .ok ()⟩) ∈ service.trace) (sameId : first.id = second.id)
    (opens : first.getUncommittedEvents.any Event.opensAccount = true)
    (opened : second.getUncommittedEvents.any Event.opensAccount = true) : left = right := by
  rcases List.append_of_mem there with ⟨before, later, recorded⟩
  rw [recorded] at here
  rcases List.mem_append.mp here with past | rest
  · exact absurd past (unopened lawful begun runs recorded sameId.symm opened opens)
  rcases List.mem_cons.mp rest with same | future
  · exact congrArg Prod.fst same
  · rcases List.append_of_mem future with ⟨between, rest, split⟩
    have whole : service.trace = (before ++ (right, ⟨.storeAsync second, .ok ()⟩) :: between) ++
        (left, ⟨.storeAsync first, .ok ()⟩) :: rest := by
      rw [recorded, split]
      simp
    exact absurd (List.mem_append_right _ List.mem_cons_self) (unopened lawful begun runs whole sameId opens opened)

end Service

abbrev LoggedService (Db ι : Type) :=
  Pool Db ι (Call ⊕ Logging) (Noted Answer Logging.Reply) Exception (Option CreateInvoiceCommand.Response)

/-- What the logger does at some moment: its levels, its scopes and whether it throws can change at any time. -/
abbrev Logger := (request : Logging) → Except Exception request.Reply

/-- What a logger answers that neither throws nor opens scopes and has no level enabled. -/
def Logging.silent : (request : Logging) → request.Reply
  | beginScope _ => none
  | dispose => ()
  | isEnabled _ => false
  | log _ => ()

/-- A logger with scopes that has every level enabled. -/
def scopingLogger : Logger
  | .beginScope _ => .ok (some ⟨⟩)
  | .dispose => .ok ()
  | .isEnabled _ => .ok true
  | .log _ => .ok ()

namespace LoggedService

variable {Db ι : Type} {store : IDocumentStore Db} {host : Host} {jobs : ι → Job} {db : Db}

def begin (host : Host) (jobs : ι → Job) (db : Db) : LoggedService Db ι := ⟨db, fun run => (jobs run).logged host, []⟩

theorem begin_mirrors (host : Host) (jobs : ι → Job) (db : Db) :
    Pool.Mirrors (begin host jobs db) (Service.begin host jobs db) :=
  Pool.Mirrors.initial db fun run => (jobs run).logged_erases host

variable [DecidableEq ι] {logged : LoggedService Db ι} {labels : List (ι × Except Exception Payment × Logger)}

/-- Every call of a logger can throw. -/
abbrev machine (store : IDocumentStore Db) : Machine (LoggedService Db ι) (ι × Except Exception Payment × Logger) :=
  Pool.machine ((environment store).noting Logging.Reply)

def loggedInTurn : List (Bool × Except Exception Payment × Logger) :=
  (List.replicate 9 true ++ List.replicate 3 false).map (·, .ok samplePayment, scopingLogger)

/-- With their logging the handlers do what they do without it: the same calls with the same answers, the same
    store and the same responses, but for runs whose logger throws. -/
theorem logging_unobserved (store : IDocumentStore Db) (host : Host) (jobs : ι → Job) (db : Db) :
    (∀ labels logged, (machine store).Runs Machine.anyStep (begin host jobs db) labels logged →
      ∃ names service, (Service.machine store).Runs Machine.anyStep (Service.begin host jobs db) names service ∧
        service.shared = logged.shared ∧ service.trace = plainTrace logged.trace ∧
        ∀ run, (∀ response, logged.thread run = .done response → service.thread run = .done response) ∧
          ∀ error, logged.thread run = .fail error → service.thread run = .fail error ∨
            ∃ entry failure, (run, ⟨.inr entry, .error failure⟩) ∈ logged.trace) ∧
    ∀ names service, (Service.machine store).Runs Machine.anyStep (Service.begin host jobs db) names service →
      ∃ labels logged, (machine store).Runs Machine.anyStep (begin host jobs db) labels logged ∧
        logged.shared = service.shared ∧ plainTrace logged.trace = service.trace ∧ Pool.Unfailing logged.trace := by
  constructor
  · intro labels logged runs
    rcases (begin_mirrors host jobs db).runs runs with ⟨names, service, served, mirrors⟩
    refine ⟨names, service, served, mirrors.shared, mirrors.trace, fun run => ⟨?_, ?_⟩⟩
    · intro response returned
      have silenced := mirrors.thread run
      rw [returned] at silenced
      generalize service.thread run = program at silenced ⊢
      rcases silenced with erases | ⟨givesUp, -⟩
      · cases erases with
        | done response => rfl
      · exact givesUp.elim
    · intro error thrown
      have silenced := mirrors.thread run
      rw [thrown] at silenced
      generalize service.thread run = program at silenced ⊢
      refine silenced.imp (fun erases => ?_) And.right
      cases erases with
      | fail error => rfl
  · intro names service served
    have unfailing : Pool.Unfailing (begin host jobs db).trace := fun _ _ _ => List.not_mem_nil
    rcases (begin_mirrors host jobs db).echoed Logging.silent unfailing served with
      ⟨labels, logged, runs, mirrors, kept⟩
    exact ⟨labels, logged, runs, mirrors.shared.symm, mirrors.trace.symm, kept⟩

theorem paid_unobserved :
    ∃ logged names service,
      (machine inMemory).exec (begin sampleHost Service.sampleJobs []) loggedInTurn = some logged ∧
      (Service.machine inMemory).Runs Machine.anyStep (Service.begin sampleHost Service.sampleJobs []) names service ∧
      service.shared = logged.shared := by
  have reached := Machine.exec_last (show ((machine inMemory).exec (begin sampleHost Service.sampleJobs [])
    loggedInTurn).isSome = true by decide +kernel)
  obtain ⟨names, service, served, same, -, -⟩ :=
    (logging_unobserved inMemory sampleHost Service.sampleJobs []).1 _ _ (Machine.exec_runs _ _ _ _ reached)
  exact ⟨_, names, service, reached, served, same⟩

theorem invoice_follows (runs : (machine store).Runs Machine.anyStep (begin host jobs db) labels logged) {run : ι}
    {request : CreateInvoiceCommand.Request} {openedAt createdAt : DateTime}
    (job : jobs run = .createInvoice request openedAt createdAt) :
    ∃ left,
      (CreateInvoiceCommand.handleLogged host openedAt createdAt request).Follows (callsOf logged.trace run) left ∧
      logged.thread run = some <$> left := by
  have follows := Pool.follows rfl runs run
  have program : (begin host jobs db).thread run =
      some <$> CreateInvoiceCommand.handleLogged host openedAt createdAt request := by
    simp only [begin, job, Job.logged]
  rw [program] at follows
  exact Program.Follows.of_map follows

theorem asked (runs : (machine store).Runs Machine.anyStep (begin host jobs db) labels logged) {run : ι}
    {request : CreateInvoiceCommand.Request} {openedAt createdAt : DateTime}
    (job : jobs run = .createInvoice request openedAt createdAt) {earlier later : List LoggedExchange}
    {exchange : LoggedExchange} (made : callsOf logged.trace run = earlier ++ exchange :: later) :
    CreateInvoiceCommand.Asks host openedAt createdAt request earlier exchange.request := by
  rcases invoice_follows runs job with ⟨left, followed, -⟩
  exact CreateInvoiceCommand.called followed made

theorem noting (runs : (machine store).Runs Machine.anyStep (begin host jobs db) labels logged) {run : ι}
    {entry : Logging} {answer : Except Exception entry.Reply} (noted : (run, ⟨.inr entry, answer⟩) ∈ logged.trace) :
    ∃ request openedAt createdAt earlier later, jobs run = .createInvoice request openedAt createdAt ∧
      callsOf logged.trace run = earlier ++ ⟨.inr entry, answer⟩ :: later ∧
      CreateInvoiceCommand.Asks host openedAt createdAt request earlier (.inr entry) := by
  rcases List.append_of_mem (mem_callsOf.mpr noted) with ⟨earlier, later, made⟩
  cases job : jobs run with
  | createInvoice request openedAt createdAt =>
    exact ⟨request, openedAt, createdAt, earlier, later, rfl, made, asked runs job made⟩
  | invoiceStatusChanged request occuredAt =>
    have follows := Pool.follows rfl runs run
    have program : (begin host jobs db).thread run =
        ((fun _ => none) <$> InvoiceStatusChangedEvent.handle occuredAt request : Handler _).noted := by
      simp only [begin, job, Job.logged]
    rw [program] at follows
    rcases (Program.guarded_noted _ []).called follows made with ⟨call, same⟩
    cases same

theorem invoice_logged (runs : (machine store).Runs Machine.anyStep (begin host jobs db) labels logged) {run : ι}
    {invoiceId : Guid} {amount : Decimal} {url : Uri} {answer : Except Exception Unit}
    (noted : (run, ⟨.inr (.log (.invoiceCreated invoiceId amount url)), answer⟩) ∈ logged.trace) :
    ∃ request openedAt createdAt payment loaded start bankAccount,
      jobs run = .createInvoice request openedAt createdAt ∧ amount = request.amount ∧
      CreateInvoiceCommand.Invoicing host openedAt createdAt request payment invoiceId url loaded start bankAccount ∧
      (run, CreateInvoiceCommand.created host request payment) ∈ logged.trace ∧
      (run, CreateInvoiceCommand.found request loaded) ∈ logged.trace ∧
      (run, ⟨.inl (.storeAsync bankAccount), .ok ()⟩) ∈ logged.trace := by
  obtain ⟨request, openedAt, createdAt, earlier, later, job, made, asks⟩ := noting runs noted
  have calls : ∀ exchange ∈ earlier, (run, exchange) ∈ logged.trace := by
    intro exchange member
    rw [← mem_callsOf, made]
    exact List.mem_append_left _ member
  cases asks with
  | invoiceCreated invoicing =>
    exact ⟨request, openedAt, createdAt, _, _, _, _, job, rfl, invoicing, calls _ (by simp), calls _ (by simp),
      calls _ (by simp)⟩

theorem account_logged (runs : (machine store).Runs Machine.anyStep (begin host jobs db) labels logged) {run : ι}
    {answer : Except Exception Unit} (noted : (run, ⟨.inr (.log .accountCreated), answer⟩) ∈ logged.trace) :
    ∃ request openedAt createdAt loaded start, jobs run = .createInvoice request openedAt createdAt ∧
      CreateInvoiceCommand.loadOrOpen request.accountId openedAt loaded = .ok start ∧
      start.getUncommittedEvents.any Event.opensAccount = true ∧
      (run, CreateInvoiceCommand.found request loaded) ∈ logged.trace := by
  obtain ⟨request, openedAt, createdAt, earlier, later, job, made, asks⟩ := noting runs noted
  cases asks with
  | accountCreated obtained opens =>
    refine ⟨request, openedAt, createdAt, _, _, job, obtained, opens, ?_⟩
    rw [← mem_callsOf, made]
    simp

/-- A run has logged that it opens an account, or has stored with the answer that the entry's level is not enabled. -/
def Announced (trace : List (ι × LoggedExchange)) (run : ι) : Prop :=
  (run, ⟨.inr (.log .accountCreated), .ok ()⟩) ∈ trace ∨ ∃ earlier account later,
    callsOf trace run = earlier ++ [⟨.inr (.isEnabled LogEntry.accountCreated.level), .ok false⟩] ++
      ⟨.inl (.storeAsync account), .ok ()⟩ :: later

/-- What a reader of the log can rely on. -/
structure TellsTruth (store : IDocumentStore Db) (jobs : ι → Job) (db : Db) (logged : LoggedService Db ι) : Prop where
  invoiced : ∀ run invoiceId amount url answer,
    (run, ⟨.inr (.log (.invoiceCreated invoiceId amount url)), answer⟩) ∈ logged.trace →
    ∃ request openedAt createdAt, jobs run = .createInvoice request openedAt createdAt ∧ amount = request.amount ∧
      .invoiceCreatedDomainEvent invoiceId request.accountId amount createdAt ∈
        store.stream logged.shared request.accountId
  missing : ∀ run answer, (run, ⟨.inr (.log .accountCreated), answer⟩) ∈ logged.trace →
    ∃ id, (jobs run).account = some id ∧ store.stream db id = [] ∧
      (run, ⟨.inl (.loadAsync id none), .ok none⟩) ∈ logged.trace
  opened : ∀ id, ∀ event ∈ store.stream logged.shared id, event.opensAccount = true →
    event ∈ store.stream db id ∨ ∃ run, (jobs run).account = some id ∧ Announced logged.trace run
  first : ∀ left right, (jobs left).account = (jobs right).account →
    (∀ run ∈ [left, right], (∃ answer, (run, ⟨.inr (.log .accountCreated), answer⟩) ∈ logged.trace) ∧
      ∃ invoiceId amount url answer,
        (run, ⟨.inr (.log (.invoiceCreated invoiceId amount url)), answer⟩) ∈ logged.trace) →
    left = right

/-- A run with the logging, and the run of the same handlers without it that makes the same calls. -/
structure Mirrored (store : IDocumentStore Db) (host : Host) (jobs : ι → Job) (db : Db) (logged : LoggedService Db ι)
    (service : Service Db ι) : Prop where
  begun : Service.Begun store host jobs (Service.begin host jobs db)
  runs : ∃ labels, (machine store).Runs Machine.anyStep (begin host jobs db) labels logged
  served : ∃ names, (Service.machine store).Runs Machine.anyStep (Service.begin host jobs db) names service
  mirrors : Pool.Mirrors logged service

theorem called_iff {service : Service Db ι} (mirrors : Pool.Mirrors logged service) {run : ι} {call : Call}
    {answer : Except Exception (Answer call)} :
    ⟨call, answer⟩ ∈ callsOf service.trace run ↔ (run, ⟨.inl call, answer⟩) ∈ logged.trace := by
  rw [mem_callsOf, mirrors.trace, mem_plainTrace]

namespace Mirrored

variable {service : Service Db ι}

theorem invoiced (mirrored : Mirrored store host jobs db logged service) (lawful : store.Lawful) {run : ι}
    {invoiceId : Guid} {amount : Decimal} {url : Uri} {answer : Except Exception Unit}
    (noted : (run, ⟨.inr (.log (.invoiceCreated invoiceId amount url)), answer⟩) ∈ logged.trace) :
    ∃ request openedAt createdAt, jobs run = .createInvoice request openedAt createdAt ∧ amount = request.amount ∧
      .invoiceCreatedDomainEvent invoiceId request.accountId amount createdAt ∈
        store.stream logged.shared request.accountId := by
  rcases mirrored with ⟨begun, ⟨labels, runs⟩, ⟨names, served⟩, mirrors⟩
  obtain ⟨request, openedAt, createdAt, payment, loaded, start, bankAccount, job, rfl, invoicing, made, -, stored⟩ :=
    invoice_logged runs noted
  refine ⟨request, openedAt, createdAt, job, rfl, ?_⟩
  obtain ⟨calls, paymentId, base, pending, inside, batch, kept⟩ :=
    Service.returned_batch lawful begun served ((called_iff mirrors).mpr stored)
  obtain ⟨sameAccount, member, otherUrl, read⟩ :=
    Service.created_batch begun served job ((called_iff mirrors).mpr made) inside batch
  cases invoicing.read.symm.trans read
  have present := kept _ member
  rwa [sameAccount, mirrors.shared] at present

theorem missing (mirrored : Mirrored store host jobs db logged service) (lawful : store.Lawful) {run : ι}
    {answer : Except Exception Unit} (noted : (run, ⟨.inr (.log .accountCreated), answer⟩) ∈ logged.trace) :
    ∃ id, (jobs run).account = some id ∧ store.stream db id = [] ∧
      (run, ⟨.inl (.loadAsync id none), .ok none⟩) ∈ logged.trace := by
  rcases mirrored with ⟨begun, ⟨labels, runs⟩, ⟨names, served⟩, mirrors⟩
  obtain ⟨request, openedAt, createdAt, loaded, start, job, obtained, opens, asked⟩ := account_logged runs noted
  have recorded := (called_iff mirrors).mpr asked
  cases loaded with
  | some account =>
    cases obtained
    rw [Service.loaded_settled lawful begun served recorded] at opens
    cases opens
  | none =>
    refine ⟨request.accountId, by rw [job]; rfl, ?_, asked⟩
    by_contra present
    exact Service.load_finds lawful begun served present recorded

theorem opened (mirrored : Mirrored store host jobs db logged service) (lawful : store.Lawful) {id : Guid}
    {event : Event} (stored : event ∈ store.stream logged.shared id) (opens : event.opensAccount = true) :
    event ∈ store.stream db id ∨ ∃ run, (jobs run).account = some id ∧ Announced logged.trace run := by
  rcases mirrored with ⟨begun, ⟨labels, runs⟩, ⟨names, served⟩, mirrors⟩
  rw [← mirrors.shared] at stored
  apply (Service.stored_by lawful begun served stored).imp_right
  rintro ⟨run, account, middle, past, paymentId, earlier, between, pending, rfl, listed, member, -, -, storing⟩
  refine ⟨run, storing.batch.account, ?_⟩
  rcases (storing.batch.opens member opens).2 with ⟨request, openedAt, createdAt, job⟩
  rcases List.append_of_mem (mem_callsOf.mpr ((called_iff mirrors).mp listed)) with ⟨before, later, made⟩
  cases asked runs job made with
  | @storing _ _ _ _ _ _ _ enabled invoicing =>
    rw [← storing.uncommitted] at member
    have announced := invoicing.opens.symm.trans (List.any_eq_true.mpr ⟨event, member, opens⟩)
    rw [CreateInvoiceCommand.announcement, if_pos announced] at made
    cases enabled with
    | true =>
      refine Or.inl ?_
      rw [← mem_callsOf, made]
      simp [CreateInvoiceCommandLog.asked]
    | false =>
      exact Or.inr ⟨_, account, later, made⟩

/-- A run that has logged a new account and its invoice has stored the opening. -/
theorem opening (mirrored : Mirrored store host jobs db logged service) (lawful : store.Lawful) {run : ι}
    (announced : ∃ answer, (run, ⟨.inr (.log .accountCreated), answer⟩) ∈ logged.trace)
    (noted : ∃ invoiceId amount url answer,
      (run, ⟨.inr (.log (.invoiceCreated invoiceId amount url)), answer⟩) ∈ logged.trace) :
    ∃ account, (jobs run).account = some account.id ∧ (run, ⟨.storeAsync account, .ok ()⟩) ∈ service.trace ∧
      account.getUncommittedEvents.any Event.opensAccount = true := by
  rcases mirrored with ⟨begun, ⟨labels, runs⟩, ⟨names, served⟩, mirrors⟩
  rcases announced with ⟨_, announced⟩
  rcases noted with ⟨_, _, _, _, noted⟩
  obtain ⟨request, openedAt, createdAt, loaded, start, job, obtained, opens, found⟩ := account_logged runs announced
  obtain ⟨_, _, _, payment, again, begin, account, sameJob, -, invoicing, -, refound, stored⟩ :=
    invoice_logged runs noted
  cases job.symm.trans sameJob
  -- the run has loaded once, so what it announced is what it stored
  rcases Service.invoice_follows begun served job with ⟨rest, followed, -⟩
  cases (CreateInvoiceCommand.handle_stage followed).loaded_once ((called_iff mirrors).mpr found)
    ((called_iff mirrors).mpr refound)
  cases obtained.symm.trans invoicing.obtained
  have saved := (called_iff mirrors).mpr stored
  rcases Service.returned_batch lawful begun served saved with ⟨calls, paymentId, base, pending, -, batch, -⟩
  exact ⟨account, batch.account, mem_callsOf.mp saved, invoicing.opens.trans opens⟩

theorem first (mirrored : Mirrored store host jobs db logged service) (lawful : store.Lawful) {left right : ι}
    (sameAccount : (jobs left).account = (jobs right).account)
    (both : ∀ run ∈ [left, right], (∃ answer, (run, ⟨.inr (.log .accountCreated), answer⟩) ∈ logged.trace) ∧
      ∃ invoiceId amount url answer,
        (run, ⟨.inr (.log (.invoiceCreated invoiceId amount url)), answer⟩) ∈ logged.trace) :
    left = right := by
  rcases both left (by simp) with ⟨announced, noted⟩
  rcases mirrored.opening lawful announced noted with ⟨one, oneAccount, oneStored, oneOpens⟩
  rcases both right (by simp) with ⟨announced, noted⟩
  rcases mirrored.opening lawful announced noted with ⟨two, twoAccount, twoStored, twoOpens⟩
  have sameId : one.id = two.id := Option.some.inj (oneAccount.symm.trans (sameAccount.trans twoAccount))
  rcases mirrored.served with ⟨names, served⟩
  exact Service.opened_once lawful mirrored.begun served oneStored twoStored sameId oneOpens twoOpens

end Mirrored

/-- Whatever the order of the calls, and whichever of its calls the logger throws at: the log says of an invoice
    only what has been stored, tells of every account that is opened, and of a new account with its first invoice
    once. -/
theorem log_tells_truth (lawful : store.Lawful) (sound : SoundStore store db)
    (runs : (machine store).Runs Machine.anyStep (begin host jobs db) labels logged) :
    TellsTruth store jobs db logged := by
  rcases (begin_mirrors host jobs db).runs runs with ⟨names, service, served, mirrors⟩
  have mirrored : Mirrored store host jobs db logged service :=
    ⟨Service.begin_begun host jobs sound, ⟨labels, runs⟩, ⟨names, served⟩, mirrors⟩
  exact ⟨fun _ _ _ _ _ => mirrored.invoiced lawful, fun _ _ => mirrored.missing lawful,
    fun _ _ => mirrored.opened lawful, fun _ _ => mirrored.first lawful⟩

theorem paid_log_true :
    ∃ logged, (machine inMemory).exec (begin sampleHost Service.sampleJobs []) loggedInTurn = some logged ∧
      TellsTruth inMemory Service.sampleJobs [] logged := by
  have reached := Machine.exec_last (show ((machine inMemory).exec (begin sampleHost Service.sampleJobs [])
    loggedInTurn).isSome = true by decide +kernel)
  have sound : SoundStore inMemory [] := .unwritten fun _ => rfl
  exact ⟨_, reached, log_tells_truth inMemory_lawful sound (Machine.exec_runs _ _ _ _ reached)⟩

/-- In every run of the service a creation's log is one scope of its own account, whose id can be read off it. -/
theorem log_well_scoped (runs : (machine store).Runs Machine.anyStep (begin host jobs db) labels logged) {run : ι}
    {request : CreateInvoiceCommand.Request} {openedAt createdAt : DateTime}
    (job : jobs run = .createInvoice request openedAt createdAt) :
    (∃ text, LoggerExtensions.loggerMetadata request.accountId = [("accountId", text)] ∧
      Guid.parse (some text) = .ok request.accountId) ∧
    ∃ left, logged.thread run = some <$> left ∧
      CreateInvoiceCommand.WellScoped request (callsOf logged.trace run) left := by
  rcases invoice_follows runs job with ⟨left, followed, same⟩
  exact ⟨⟨_, rfl, Guid.parse_toString _⟩, left, same, CreateInvoiceCommand.handleLogged_scoped followed⟩

theorem paid_log_scoped :
    ∃ logged left, (machine inMemory).exec (begin sampleHost Service.sampleJobs []) loggedInTurn = some logged ∧
      CreateInvoiceCommand.WellScoped ⟨1, sampleAmount.value⟩ (callsOf logged.trace true) left := by
  have reached := Machine.exec_last (show ((machine inMemory).exec (begin sampleHost Service.sampleJobs [])
    loggedInTurn).isSome = true by decide +kernel)
  obtain ⟨-, left, -, bracketed⟩ := log_well_scoped (Machine.exec_runs _ _ _ _ reached)
    (show Service.sampleJobs true = .createInvoice ⟨1, sampleAmount.value⟩ 0 1 from rfl)
  exact ⟨_, left, reached, bracketed⟩

end LoggedService

end Yoomoney
