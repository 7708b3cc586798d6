import EsYoomoney.Library.Projection
import EsYoomoney.Application.Serializability

namespace Yoomoney

open EventSourcing DomainEvents BankAccountAggregate

theorem CreateInvoiceCommand.Stage.refused_last {host : Host} {openedAt createdAt : DateTime} {request : Request}
    {calls : List (Exchange Call Answer Exception)} {account : BankAccountAggregate} {error : Exception}
    {left : Handler Response}
    (stage : Stage host openedAt createdAt request (calls ++ [⟨.storeAsync account, .error error⟩]) left) :
    left = .fail error := by
  generalize whole : calls ++ [⟨.storeAsync account, .error error⟩] = all at stage
  have final := congrArg List.getLast? whole
  rw [List.getLast?_concat] at final
  cases stage <;> cases final
  rfl

theorem InvoiceStatusChangedEvent.Stage.refused_last {occuredAt : DateTime} {request : Event}
    {calls : List (Exchange Call Answer Exception)} {account : BankAccountAggregate} {error : Exception}
    {left : Handler Unit} (stage : Stage occuredAt request (calls ++ [⟨.storeAsync account, .error error⟩]) left) :
    left = .fail error := by
  generalize whole : calls ++ [⟨.storeAsync account, .error error⟩] = all at stage
  have final := congrArg List.getLast? whole
  rw [List.getLast?_concat] at final
  cases stage <;> cases final
  rfl

namespace Service

section Threads

variable {Db ι : Type} [DecidableEq ι] {store : IDocumentStore Db} {host : Host} {jobs : ι → Job}
  {start service : Service Db ι} {allowed : Service Db ι → ι × Except Exception Payment → Prop}
  {labels : List (ι × Except Exception Payment)} {run : ι}

theorem asks (begun : Begun store host jobs start) (runs : (machine store).Runs allowed start labels service)
    {eventId : Guid} {next} (waiting : service.thread run = .call (.existsAsync eventId) next) :
    ∃ request occuredAt, jobs run = .invoiceStatusChanged request occuredAt ∧
      Guid.parse request.invoice.id = .ok eventId := by
  cases job : jobs run with
  | createInvoice request openedAt createdAt =>
    rcases invoice_follows begun runs job with ⟨inner, followed, same⟩
    rcases Program.map_eq_call (same.symm.trans waiting) with ⟨rest, rfl⟩
    generalize callsOf service.trace run = calls at followed
    cases CreateInvoiceCommand.handle_stage followed
  | invoiceStatusChanged request occuredAt =>
    rcases notification_follows begun runs job with ⟨inner, followed, same⟩
    rcases Program.map_eq_call (same.symm.trans waiting) with ⟨rest, rfl⟩
    generalize callsOf service.trace run = calls at followed
    cases InvoiceStatusChangedEvent.handle_stage followed with
    | asking parsed => exact ⟨request, occuredAt, rfl, parsed⟩

theorem loads_own (begun : Begun store host jobs start) (runs : (machine store).Runs allowed start labels service)
    {id : Guid} {version : Option Nat} {next} (waiting : service.thread run = .call (.loadAsync id version) next) :
    (jobs run).account = some id := by
  cases job : jobs run with
  | createInvoice request openedAt createdAt =>
    rcases invoice_follows begun runs job with ⟨inner, followed, same⟩
    rcases Program.map_eq_call (same.symm.trans waiting) with ⟨rest, rfl⟩
    generalize callsOf service.trace run = calls at followed
    cases CreateInvoiceCommand.handle_stage followed
    rfl
  | invoiceStatusChanged request occuredAt =>
    rcases notification_follows begun runs job with ⟨inner, followed, same⟩
    rcases Program.map_eq_call (same.symm.trans waiting) with ⟨rest, rfl⟩
    generalize callsOf service.trace run = calls at followed
    cases InvoiceStatusChangedEvent.handle_stage followed with
    | loading parsed named => simp [Job.account, named, Except.toOption]

/-- A run whose store is refused throws what the store has thrown. -/
theorem refused_throws (begun : Begun store host jobs start) (runs : (machine store).Runs allowed start labels service)
    {account : BankAccountAggregate} {next} (waiting : service.thread run = .call (.storeAsync account) next)
    (error : Exception) : next (.error error) = .fail error := by
  cases job : jobs run with
  | createInvoice request openedAt createdAt =>
    rcases invoice_follows begun runs job with ⟨inner, followed, same⟩
    rcases Program.map_eq_call (same.symm.trans waiting) with ⟨rest, rfl⟩
    have thrown := (CreateInvoiceCommand.handle_stage (followed.snoc (.error error))).refused_last
    cases same.symm.trans waiting
    exact congrArg (some <$> ·) thrown
  | invoiceStatusChanged request occuredAt =>
    rcases notification_follows begun runs job with ⟨inner, followed, same⟩
    rcases Program.map_eq_call (same.symm.trans waiting) with ⟨rest, rfl⟩
    have thrown := (InvoiceStatusChangedEvent.handle_stage (followed.snoc (.error error))).refused_last
    cases same.symm.trans waiting
    exact congrArg ((fun _ => none) <$> ·) thrown

theorem unnamed_untouched (lawful : store.Lawful) (begun : Begun store host jobs start)
    (runs : (machine store).Runs allowed start labels service) {id : Guid} (unnamed : ¬ IsAccount jobs id) :
    store.stream service.shared id = store.stream start.shared id := by
  induction runs with
  | refl => rfl
  | step past permitted taken ih =>
    rcases step_streams lawful begun past (sound lawful begun past).rooted taken with
      same | ⟨account, _, _, _, _, pending, -, commit⟩
    · rw [same, ih]
    · have other : id ≠ account.id := by
        rintro rfl
        exact unnamed ⟨_, commit.batch.account⟩
      rw [commit.frame id other, ih]

end Threads

variable {Db Other ι : Type} [DecidableEq ι] {left : IDocumentStore Db} {right : IDocumentStore Other} {host : Host}
  {jobs : ι → Job} {start service : Service Db ι} {initial other : Service Other ι} {selected : ι → Bool}
  {accounts : Guid → Prop} {labels others : List (ι × Except Exception Payment)}

/-- The selected runs are those of the accounts. -/
structure Divides (jobs : ι → Job) (selected : ι → Bool) (accounts : Guid → Prop) : Prop where
  own : ∀ run id, selected run = true → (jobs run).account = some id → accounts id
  foreign : ∀ run id, selected run = false → (jobs run).account = some id → ¬ accounts id

/-- What the selected runs ask for is known on the one side as it is on the other. -/
def AsksAlike (left : IDocumentStore Db) (right : IDocumentStore Other) (selected : ι → Bool)
    (accounts : Guid → Prop) (start : Service Db ι) (initial : Service Other ι) : Prop :=
  ∀ labels others service other run eventId next, (machine left).Runs Machine.anyStep start labels service →
    (machine right).Runs Machine.anyStep initial others other →
    SameStreams left right accounts service.shared other.shared → selected run = true →
    service.thread run = .call (.existsAsync eventId) next →
    EventStore.existsAsync left service.shared eventId = EventStore.existsAsync right other.shared eventId

theorem store_alike (leftLawful : left.Lawful) (rightLawful : right.Lawful) (begun : Begun left host jobs start)
    (divides : Divides jobs selected accounts) (runs : (machine left).Runs Machine.anyStep start labels service)
    (same : SameStreams left right accounts service.shared other.shared) {run : ι} (mine : selected run = true)
    {account : BankAccountAggregate} {next} (waiting : service.thread run = .call (.storeAsync account) next)
    (reply : Except Exception Payment) :
    SameStreams left right accounts (respond left service.shared (.storeAsync account) reply).2
        (respond right other.shared (.storeAsync account) reply).2 ∧
      (next (respond left service.shared (.storeAsync account) reply).1).Alike
        (next (respond right other.shared (.storeAsync account) reply).1) := by
  obtain ⟨paymentId, earlier, between, pending, storing⟩ :=
    storing leftLawful begun runs (sound leftLawful begun runs).rooted waiting
  have known := divides.own run account.id mine storing.batch.account
  have past : streamAt left start earlier account.id <+: left.stream service.shared account.id := by
    rw [storing.current leftLawful begun.trace runs]
    exact List.prefix_append _ _
  have accepted := same.storeAsync_iff leftLawful rightLawful storing.live known past storing.batch.filled
    storing.batch.nodup
  cases here : EventStore.storeAsync left service.shared account with
  | ok saved =>
    obtain ⟨savedThere, there⟩ := accepted.mp ⟨saved, here⟩
    simp only [respond, here, there]
    exact ⟨same.stored leftLawful rightLawful here there, Or.inl rfl⟩
  | error error =>
    cases there : EventStore.storeAsync right other.shared account with
    | ok saved =>
      obtain ⟨savedHere, impossible⟩ := accepted.mpr ⟨saved, there⟩
      rw [here] at impossible
      cases impossible
    | error thrown =>
      simp only [respond, here, there]
      exact ⟨same, Or.inr ⟨⟨error, refused_throws begun runs waiting error⟩,
        ⟨thrown, refused_throws begun runs waiting thrown⟩⟩⟩

theorem projects (leftLawful : left.Lawful) (rightLawful : right.Lawful) (begun : Begun left host jobs start)
    (divides : Divides jobs selected accounts) (asked : AsksAlike left right selected accounts start initial) :
    Pool.Projects (environment left) (environment right) selected (SameStreams left right accounts) start initial where
  hidden := by
    intro labels service label after db past taken foreign same id known
    rcases step_streams leftLawful begun past (sound leftLawful begun past).rooted taken with
      unchanged | ⟨account, _, _, _, _, pending, -, commit⟩
    · rw [unchanged, same id known]
    · have apart : id ≠ account.id := by
        rintro rfl
        exact divides.foreign label.1 account.id foreign commit.batch.account known
      rw [commit.frame id apart, same id known]
  answered := by
    intro labels others service other run call next reply runs beside same mine waiting there
    cases call with
    | createPayment newPayment => exact ⟨same, Or.inl rfl⟩
    | existsAsync eventId =>
      refine ⟨same, Or.inl ?_⟩
      dsimp only [environment, respond]
      rw [asked labels others service other run eventId next runs beside same mine waiting]
    | loadAsync id version =>
      have known := divides.own run id mine (loads_own begun runs waiting)
      refine ⟨same, Or.inl ?_⟩
      dsimp only [environment, respond]
      rw [same.loadAsync leftLawful rightLawful known version]
    | storeAsync account => exact store_alike leftLawful rightLawful begun divides runs same mine waiting reply

/-- Accounts do not notice one another. Of any run, the steps of the handlers of some accounts alone are a run
    in which these handlers return or throw alike and these accounts get the same events. -/
theorem isolated (lawful : left.Lawful) (begun : Begun left host jobs start) (apart : PaymentsApart jobs)
    (accounts : Guid → Bool) (runs : (machine left).Runs Machine.anyStep start labels service) :
    ∃ alone, (machine left).Runs Machine.anyStep start
        (labels.filter fun label => (jobs label.1).account.any accounts) alone ∧
      (∀ run, (jobs run).account.any accounts = true → (service.thread run).Alike (alone.thread run)) ∧
      ∀ id, accounts id = true → left.stream service.shared id = left.stream alone.shared id := by
  have divides : Divides jobs (fun run => (jobs run).account.any accounts) fun id => accounts id = true := by
    constructor
    · intro run id mine named
      simpa [named] using mine
    · intro run id foreign named
      simpa [named] using foreign
  have asked : AsksAlike left left (fun run => (jobs run).account.any accounts) (fun id => accounts id = true) start
      start := by
    intro labels others service other run eventId next past beside same mine waiting
    rcases asks begun past waiting with ⟨request, occuredAt, job, parsed⟩
    have unnamed := apart run request occuredAt eventId job parsed
    rw [Bool.eq_iff_iff, existsAsync_account_iff lawful (sound lawful begun past).rooted,
      existsAsync_account_iff lawful (sound lawful begun beside).rooted, unnamed_untouched lawful begun past unnamed,
      unnamed_untouched lawful begun beside unnamed]
  obtain ⟨alone, reached, beside⟩ := Pool.projected ⟨fun _ _ => Or.inl rfl, fun _ _ => rfl⟩
    (projects lawful lawful begun divides asked) runs
  exact ⟨alone, reached, beside.threads, beside.shared⟩

/-- The handlers behave alike on any two lawful stores with the same streams, step by step. -/
theorem same_on_every_store (leftLawful : left.Lawful) (rightLawful : right.Lawful)
    (begun : Begun left host jobs start) (twin : Begun right host jobs initial)
    (same : ∀ id, left.stream start.shared id = right.stream initial.shared id)
    (runs : (machine left).Runs Machine.anyStep start labels service) :
    ∃ other, (machine right).Runs Machine.anyStep initial labels other ∧
      (∀ run, (service.thread run).Alike (other.thread run)) ∧
      ∀ id, left.stream service.shared id = right.stream other.shared id := by
  have divides : Divides jobs (fun _ => true) Everywhere := by
    constructor
    · intro run id mine named
      trivial
    · intro run id foreign
      cases foreign
  have asked : AsksAlike left right (fun _ => true) Everywhere start initial := by
    intro labels others service other run eventId next past beside streams mine waiting
    exact streams.existsAsync leftLawful rightLawful eventId
  have threads : ∀ run, (start.thread run).Alike (initial.thread run) := by
    intro run
    rw [begun.thread, twin.thread]
    exact Or.inl rfl
  obtain ⟨other, reached, beside⟩ := Pool.projected ⟨fun run _ => threads run, fun id _ => same id⟩
    (projects leftLawful rightLawful begun divides asked) runs
  rw [List.filter_eq_self.mpr fun _ _ => rfl] at reached
  exact ⟨other, reached, fun run => beside.threads run rfl, fun id => beside.shared id trivial⟩

/-- Two first invoices, for two accounts, and the notification of the first. -/
def twoAccounts : Nat → Job
  | 0 => sampleJobs true
  | 1 => .createInvoice ⟨2, sampleAmount.value⟩ 0 1
  | _ => sampleJobs false

theorem twoAccounts_apart : PaymentsApart twoAccounts := by
  have unnamed : ¬ IsAccount twoAccounts 7 := by
    rintro ⟨run, named⟩
    rcases run with _ | _ | run <;> cases named
  intro run request occuredAt eventId job parsed
  rcases run with _ | _ | run <;> cases job
  cases parsed
  exact unnamed

def mixed : List (Nat × Except Exception Payment) := [0, 1, 0, 1, 1, 0, 2, 2, 2].map (·, .ok samplePayment)

theorem first_account_isolated :
    ∃ service alone, (machine inMemory).exec (begin sampleHost twoAccounts []) mixed = some service ∧
      (machine inMemory).Runs Machine.anyStep (begin sampleHost twoAccounts [])
        ([0, 0, 0, 2, 2, 2].map (·, .ok samplePayment)) alone ∧
      inMemory.stream service.shared 1 = inMemory.stream alone.shared 1 := by
  have reached := Machine.exec_last
    (show ((machine inMemory).exec (begin sampleHost twoAccounts []) mixed).isSome = true by decide +kernel)
  have sound : SoundStore inMemory [] := .unwritten fun _ => rfl
  obtain ⟨alone, runs, -, streams⟩ := isolated inMemory_lawful (begin_begun sampleHost twoAccounts sound)
    twoAccounts_apart (· == 1) (Machine.exec_runs _ _ _ _ reached)
  exact ⟨_, alone, reached, runs, streams 1 rfl⟩

/-- A log like the other one, save for what it throws. -/
def rejecting (conflict : Exception) : IDocumentStore (List (Guid × Event)) where
  toStreamStore := logStore Guid Event Exception conflict
  query log := log.map (·.2)
  aggregateStream log id version :=
    aggregated (visible ((logStore Guid Event Exception conflict).stream log id) version)

theorem rejecting_lawful (conflict : Exception) : (rejecting conflict).Lawful where
  streams := logStore_lawful _
  query_iff log event := by
    simp [rejecting, logStore, List.mem_map, List.mem_filter]
  aggregateStream_eq _ _ _ := rfl

theorem racing_invoices_same_elsewhere :
    ∃ service other, (machine inMemory).exec (begin sampleHost racingInvoices []) inTurns = some service ∧
      (machine (rejecting (.domainException "Unexpected version"))).Runs Machine.anyStep
        (begin sampleHost racingInvoices []) inTurns other ∧
      ∀ run, (service.thread run).Alike (other.thread run) := by
  have reached := Machine.exec_last
    (show ((machine inMemory).exec (begin sampleHost racingInvoices []) inTurns).isSome = true by decide +kernel)
  have here : SoundStore inMemory [] := .unwritten fun _ => rfl
  have there : SoundStore (rejecting (.domainException "Unexpected version")) [] := .unwritten fun _ => rfl
  obtain ⟨other, runs, threads, -⟩ := same_on_every_store inMemory_lawful (rejecting_lawful _)
    (begin_begun sampleHost racingInvoices here) (begin_begun sampleHost racingInvoices there) (fun _ => rfl)
    (Machine.exec_runs _ _ _ _ reached)
  exact ⟨_, other, reached, runs, threads⟩

end Service

end Yoomoney
