import EsYoomoney.Application.CreateInvoiceCommand
import EsYoomoney.Application.InvoiceStatusChangedEvent
import EsYoomoney.Persistence.Reachability

namespace Yoomoney

open EventSourcing DomainEvents BankAccountAggregate

/-- One run of a handler: its request and what its clock reads. -/
inductive Job where
  | createInvoice (request : CreateInvoiceCommand.Request) (openedAt createdAt : DateTime)
  | invoiceStatusChanged (request : InvoiceStatusChangedEvent.Event) (occuredAt : DateTime)

def Job.program (host : Host) : Job → Handler (Option CreateInvoiceCommand.Response)
  | createInvoice request openedAt createdAt => some <$> CreateInvoiceCommand.handle host openedAt createdAt request
  | invoiceStatusChanged request occuredAt => (fun _ => none) <$> InvoiceStatusChangedEvent.handle occuredAt request

def Job.account : Job → Option Guid
  | createInvoice request _ _ => some request.accountId
  | invoiceStatusChanged request _ => (Guid.parse request.invoice.merchantCustomerId).toOption

def IsAccount {ι : Type} (jobs : ι → Job) (id : Guid) : Prop := ∃ run, (jobs run).account = some id

abbrev Service (Db ι : Type) := Pool Db ι Call Answer Exception (Option CreateInvoiceCommand.Response)

abbrev Trace (ι : Type) := List (ι × Exchange Call Answer Exception)

def appended (id : Guid) : Exchange Call Answer Exception → List Event
  | ⟨.storeAsync aggregate, .ok _⟩ => if aggregate.id = id then aggregate.getUncommittedEvents else []
  | _ => []

def written {ι : Type} (trace : Trace ι) (id : Guid) : List Event := trace.flatMap fun entry => appended id entry.2

theorem written_append {ι : Type} (left right : Trace ι) (id : Guid) :
    written (left ++ right) id = written left id ++ written right id := List.flatMap_append

theorem written_singleton {ι : Type} (entry : ι × Exchange Call Answer Exception) (id : Guid) :
    written [entry] id = appended id entry.2 := List.flatMap_singleton _ _

/-- Every stream is an account's own and replays without overflow. -/
structure SoundStore {Db : Type} (store : IDocumentStore Db) (db : Db) : Prop where
  rooted : RootedStore store db
  replays : ∀ id, ∃ account, new.replay (store.stream db id) = .ok account

theorem SoundStore.unwritten {Db : Type} {store : IDocumentStore Db} {db : Db}
    (none : ∀ id, store.stream db id = []) : SoundStore store db :=
  ⟨fun id present => absurd (none id) present, fun id => ⟨new, by rw [none id]; rfl⟩⟩

theorem SoundStore.loads {Db : Type} {store : IDocumentStore Db} {db : Db} (sound : SoundStore store db)
    (id : Guid) : ∃ loaded, aggregated (store.stream db id) = .ok loaded := by
  rcases sound.replays id with ⟨account, replayed⟩
  unfold aggregated
  split
  · exact ⟨none, rfl⟩
  · rw [replayed]
    exact ⟨some account, rfl⟩

namespace Service

variable {Db ι : Type} {store : IDocumentStore Db} {host : Host} {jobs : ι → Job}

structure Begun (store : IDocumentStore Db) (host : Host) (jobs : ι → Job) (start : Service Db ι) : Prop where
  thread : ∀ run, start.thread run = (jobs run).program host
  trace : start.trace = []
  sound : SoundStore store start.shared

def begin (host : Host) (jobs : ι → Job) (db : Db) : Service Db ι := ⟨db, fun run => (jobs run).program host, []⟩

theorem begin_begun (host : Host) (jobs : ι → Job) {db : Db} (sound : SoundStore store db) :
    Begun store host jobs (begin host jobs db) := ⟨fun _ => rfl, rfl, sound⟩

def sampleJobs : Bool → Job
  | true => .createInvoice ⟨1, sampleAmount.value⟩ 0 1
  | false => .invoiceStatusChanged ⟨samplePayment⟩ 2

def oneAfterTheOther : List (Bool × Except Exception Payment) :=
  [true, true, true, false, false, false].map (·, .ok samplePayment)

variable [DecidableEq ι] {start service after : Service Db ι}
  {allowed : Service Db ι → ι × Except Exception Payment → Prop} {labels : List (ι × Except Exception Payment)}

abbrev machine (store : IDocumentStore Db) : Machine (Service Db ι) (ι × Except Exception Payment) :=
  Pool.machine (environment store)

theorem respond_stream (lawful : store.Lawful) (db : Db) (call : Call) (reply : Except Exception Payment) (id : Guid) :
    store.stream (respond store db call reply).2 id =
      store.stream db id ++ appended id ⟨call, (respond store db call reply).1⟩ := by
  cases call with
  | createPayment newPayment => exact (List.append_nil _).symm
  | existsAsync eventId => exact (List.append_nil _).symm
  | loadAsync loadedId version => exact (List.append_nil _).symm
  | storeAsync aggregate =>
    cases saved : EventStore.storeAsync store db aggregate with
    | error error => simp [respond, saved, appended]
    | ok db =>
      have kept := storeAsync_appended saved
      by_cases same : aggregate.id = id
      · subst same
        simp [respond, saved, appended, lawful.streams.append_stream kept]
      · simp [respond, saved, appended, same, lawful.streams.append_frame kept id (Ne.symm same)]

theorem invoice_follows (begun : Begun store host jobs start) (runs : (machine store).Runs allowed start labels service)
    {run : ι} {request : CreateInvoiceCommand.Request} {openedAt createdAt : DateTime}
    (job : jobs run = .createInvoice request openedAt createdAt) :
    ∃ left, (CreateInvoiceCommand.handle host openedAt createdAt request).Follows (callsOf service.trace run) left ∧
      service.thread run = some <$> left := by
  have follows := Pool.follows begun.trace runs run
  rw [begun.thread, job] at follows
  exact Program.Follows.of_map follows

theorem notification_follows (begun : Begun store host jobs start)
    (runs : (machine store).Runs allowed start labels service) {run : ι} {request : InvoiceStatusChangedEvent.Event}
    {occuredAt : DateTime} (job : jobs run = .invoiceStatusChanged request occuredAt) :
    ∃ left, (InvoiceStatusChangedEvent.handle occuredAt request).Follows (callsOf service.trace run) left ∧
      service.thread run = (fun _ => none) <$> left := by
  have follows := Pool.follows begun.trace runs run
  rw [begun.thread, job] at follows
  exact Program.Follows.of_map follows

/-- A stream after the calls of a trace: what it was, followed by what the runs have stored in it. -/
def streamAt (store : IDocumentStore Db) (start : Service Db ι) (trace : Trace ι) (id : Guid) : List Event :=
  store.stream start.shared id ++ written trace id

omit [DecidableEq ι] in
theorem streamAt_append (trace later : Trace ι) (id : Guid) :
    streamAt store start (trace ++ later) id = streamAt store start trace id ++ written later id := by
  rw [streamAt, streamAt, written_append, List.append_assoc]

theorem streams (lawful : store.Lawful) (begun : start.trace = [])
    (runs : (machine store).Runs allowed start labels service) (id : Guid) :
    store.stream service.shared id = streamAt store start service.trace id := by
  induction runs with
  | refl =>
    rw [begun]
    exact (List.append_nil _).symm
  | step past permitted taken ih =>
    rcases Pool.step_eq taken with ⟨call, next, waiting, rfl⟩
    dsimp only
    rw [streamAt_append, written_singleton, ← ih]
    exact respond_stream lawful _ _ _ _

theorem loads (lawful : store.Lawful) (begun : start.trace = [])
    (runs : (machine store).Runs allowed start labels service) {earlier later : Trace ι} {run : ι} {id : Guid}
    {answer : Except Exception (Option BankAccountAggregate)}
    (recorded : service.trace = earlier ++ (run, ⟨.loadAsync id none, answer⟩) :: later) :
    answer = aggregated (streamAt store start earlier id) := by
  rcases Pool.split begun runs recorded with ⟨middle, past, choice, next, reached, rfl, -, -, answered⟩
  rw [← streams lawful begun reached]
  exact answered.symm.trans (lawful.loadAsync_eq middle.shared id none)

end Service

end Yoomoney
