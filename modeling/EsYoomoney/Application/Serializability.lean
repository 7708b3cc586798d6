import EsYoomoney.Library.Serial
import EsYoomoney.Application.Contention
import EsYoomoney.Application.FirstNotification
import EsYoomoney.Persistence.SameStreams

namespace Yoomoney

open EventSourcing DomainEvents BankAccountAggregate

/-- The answers a handler returns after: the payment's id is known, or its batch is stored. -/
def returns : Exchange Call Answer Exception → Bool
  | ⟨.existsAsync _, .ok known⟩ => known
  | ⟨.storeAsync _, .ok _⟩ => true
  | _ => false

def stores : Exchange Call Answer Exception → Bool
  | ⟨.storeAsync _, .ok _⟩ => true
  | _ => false

theorem unstored_of_unreturned {exchange : Exchange Call Answer Exception} (more : returns exchange = false) :
    stores exchange = false := by
  rcases exchange with ⟨call, answer⟩
  cases call with
  | storeAsync aggregate => cases answer <;> first | rfl | cases more
  | _ => rfl

theorem appended_of_unstored {exchange : Exchange Call Answer Exception} (unstored : stores exchange = false)
    (id : Guid) : appended id exchange = [] := by
  rcases exchange with ⟨call, answer⟩
  cases call with
  | storeAsync aggregate =>
    cases answer with
    | ok answer => cases unstored
    | error error => rfl
  | _ => rfl

variable {Db : Type} {store : IDocumentStore Db} {host : Host}

namespace CreateInvoiceCommand

variable {openedAt createdAt : DateTime} {request : Request} {payment : Payment} {paymentId : Guid} {url : Uri}
  {loaded : Option BankAccountAggregate} {bankAccount : BankAccountAggregate} {db after : Db}

theorem handle_alone (read : YoomoneyInvoiceService.result host payment = .ok (paymentId, url))
    (present : EventStore.loadAsync store db request.accountId none = .ok loaded)
    (made : invoiced openedAt createdAt request paymentId loaded = .ok bankAccount)
    (saved : EventStore.storeAsync store db bankAccount = .ok after) :
    (environment store).run (.ok payment) (handle host openedAt createdAt request) db =
      (.ok ⟨paymentId, url⟩, after) := by
  obtain ⟨start, account, obtained, performed⟩ := invoiced_ok openedAt createdAt request paymentId loaded
  rw [invoiced, obtained] at made
  have same : Except.ok account = .ok bankAccount := performed.symm.trans made
  cases same
  unfold handle YoomoneyInvoiceService.createInvoiceAsync
  rw [bind_assoc, Environment.run_perform]
  dsimp only [environment, respond]
  rw [read, Program.ofExcept_ok_bind]
  dsimp only
  rw [Environment.run_perform]
  dsimp only [respond]
  rw [present]
  dsimp only
  rw [obtained, Program.ofExcept_ok_bind, performed, Program.ofExcept_ok_bind, Environment.run_perform]
  dsimp only [respond]
  rw [saved]
  rfl

theorem Stage.returned_last {calls : List (Exchange Call Answer Exception)} {exchange : Exchange Call Answer Exception}
    {left : Handler Response} (stage : Stage host openedAt createdAt request (calls ++ [exchange]) left)
    (ends : returns exchange = true) :
    ∃ payment paymentId url loaded bankAccount,
      calls = [⟨creation host request, .ok payment⟩, ⟨CreateInvoiceCommand.loading request, .ok loaded⟩] ∧
      exchange = ⟨.storeAsync bankAccount, .ok ()⟩ ∧ left = .done ⟨paymentId, url⟩ ∧
      YoomoneyInvoiceService.result host payment = .ok (paymentId, url) ∧
      invoiced openedAt createdAt request paymentId loaded = .ok bankAccount := by
  generalize whole : calls ++ [exchange] = all at stage
  have final := congrArg List.getLast? whole
  rw [List.getLast?_concat] at final
  cases stage with
  | @returned payment paymentId url loaded bankAccount read made =>
    cases final
    have front := List.append_cancel_right (show calls ++ [_] = [_, _] ++ [_] from whole)
    exact ⟨payment, paymentId, url, loaded, bankAccount, front, rfl, rfl, read, made⟩
  | _ =>
    cases final
    try cases ends

end CreateInvoiceCommand

namespace InvoiceStatusChangedEvent

variable {reply : Except Exception Payment} {occuredAt : DateTime} {request : Event} {eventId accountId : Guid}
  {amount : Amount} {loaded account : BankAccountAggregate} {db after : Db}

theorem handle_alone_existing (parsed : Guid.parse request.invoice.id = .ok eventId)
    (known : EventStore.existsAsync store db eventId = true) :
    (environment store).run reply (handle occuredAt request) db = (.ok (), db) := by
  unfold handle
  dsimp only
  rw [parsed, Program.ofExcept_ok_bind, Environment.run_perform]
  dsimp only [environment, respond]
  rw [known]
  rfl

theorem handle_alone (credited : Credited occuredAt request eventId accountId amount loaded account)
    (unknown : EventStore.existsAsync store db eventId = false)
    (present : EventStore.loadAsync store db accountId none = .ok (some loaded))
    (saved : EventStore.storeAsync store db account = .ok after) :
    (environment store).run reply (handle occuredAt request) db = (.ok (), after) := by
  unfold handle
  dsimp only
  rw [credited.parsed, Program.ofExcept_ok_bind, Environment.run_perform]
  dsimp only [environment, respond]
  rw [unknown]
  simp only [Bool.false_eq_true, if_false]
  rw [credited.named, Program.ofExcept_ok_bind, Environment.run_perform]
  dsimp only [respond]
  rw [present, credited.priced]
  dsimp only
  rw [credited.performed, Program.ofExcept_ok_bind, ← bind_pure (IEsEventStore.storeAsync account),
    Environment.run_perform]
  dsimp only [respond]
  rw [saved]
  rfl

theorem Stage.returned_last {calls : List (Exchange Call Answer Exception)} {exchange : Exchange Call Answer Exception}
    {left : Handler Unit} (stage : Stage occuredAt request (calls ++ [exchange]) left)
    (ends : returns exchange = true) :
    left = .done () ∧
      ((∃ eventId, Guid.parse request.invoice.id = .ok eventId ∧ calls = [] ∧
          exchange = ⟨.existsAsync eventId, .ok true⟩) ∨
        ∃ eventId accountId amount loaded account,
          calls = [⟨.existsAsync eventId, .ok false⟩, ⟨.loadAsync accountId none, .ok (some loaded)⟩] ∧
          exchange = ⟨.storeAsync account, .ok ()⟩ ∧
          Credited occuredAt request eventId accountId amount loaded account) := by
  generalize whole : calls ++ [exchange] = all at stage
  have final := congrArg List.getLast? whole
  rw [List.getLast?_concat] at final
  cases stage with
  | @existing eventId parsed =>
    cases final
    have front := List.append_cancel_right (show calls ++ [_] = [] ++ [_] from whole)
    exact ⟨rfl, Or.inl ⟨eventId, parsed, front, rfl⟩⟩
  | @returned eventId accountId amount loaded account credited =>
    cases final
    have front := List.append_cancel_right (show calls ++ [_] = [_, _] ++ [_] from whole)
    exact ⟨rfl, Or.inr ⟨eventId, accountId, amount, loaded, account, front, rfl, credited⟩⟩
  | _ =>
    cases final
    try cases ends

end InvoiceStatusChangedEvent

namespace Service

variable {ι : Type} [DecidableEq ι] {jobs : ι → Job} {start service after : Service Db ι}
  {allowed : Service Db ι → ι × Except Exception Payment → Prop} {labels : List (ι × Except Exception Payment)}

/-- No payment that is notified has the id of an account. -/
def PaymentsApart (jobs : ι → Job) : Prop :=
  ∀ run request occuredAt eventId, jobs run = .invoiceStatusChanged request occuredAt →
    Guid.parse request.invoice.id = .ok eventId → ¬ IsAccount jobs eventId

/-- The provider's reply that a run has been given, if it has called the provider. -/
def RepliedWith (calls : List (Exchange Call Answer Exception)) (reply : Except Exception Payment) : Prop :=
  ∀ newPayment answer, ⟨.createPayment newPayment, answer⟩ ∈ calls → reply = answer

theorem Storing.reads {run : ι} {account : BankAccountAggregate} {paymentId : Guid} {earlier between : Trace ι}
    {pending : List Event}
    (storing : Storing store host jobs start service run account paymentId earlier between pending)
    (lawful : store.Lawful) (begun : start.trace = []) (runs : (machine store).Runs allowed start labels service)
    (unchanged : written between account.id = []) :
    ∃ answer, ⟨.loadAsync account.id none, .ok answer⟩ ∈ callsOf service.trace run ∧
      EventStore.loadAsync store service.shared account.id none = .ok answer := by
  rcases storing.loaded with ⟨answer, split⟩
  refine ⟨answer, mem_callsOf.mpr (by rw [split]; simp), ?_⟩
  rw [lawful.loadAsync_eq, storing.current lawful begun runs, unchanged, List.append_nil]
  exact (loads lawful begun runs split).symm

/-- A payment's id that was unknown when it was asked for is unknown as long as no account has it. -/
theorem unknown_later (lawful : store.Lawful) (begun : Begun store host jobs start)
    (runs : (machine store).Runs allowed start labels service) {run : ι} {eventId : Guid}
    (apart : ¬ IsAccount jobs eventId) (asked : ⟨.existsAsync eventId, .ok false⟩ ∈ callsOf service.trace run) :
    store.stream service.shared eventId = [] := by
  rcases answered lawful begun runs asked with ⟨middle, choice, whole, replied, grown⟩
  have unknown : EventStore.existsAsync store middle.shared eventId ≠ true := by
    intro known
    have answer : Except.ok (EventStore.existsAsync store middle.shared eventId) = .ok false := replied
    rw [known] at answer
    cases answer
  by_contra present
  rcases List.exists_mem_of_ne_nil _ present with ⟨event, stored⟩
  rcases stored_event lawful begun runs stored with initial | ⟨other, _, _, _, _, -, batch, -⟩
  · have rooted := whole.rooted eventId (List.ne_nil_of_mem ((grown eventId).1.subset initial))
    exact unknown ((lawful.existsAsync_iff _ _).mpr
      ⟨eventId, event, (grown eventId).1.subset initial, rooted.carried event ((grown eventId).1.subset initial)⟩)
  · exact apart ⟨other, batch.account⟩

section Step

variable {label : ι × Except Exception Payment} {exchange : Exchange Call Answer Exception}

theorem callsOf_step (traced : after.trace = service.trace ++ [(label.1, exchange)]) :
    callsOf after.trace label.1 = callsOf service.trace label.1 ++ [exchange] := by
  rw [traced, callsOf_append]
  simp [callsOf]

theorem step_quiet (lawful : store.Lawful) (taken : (machine store).step service label = some after)
    (traced : after.trace = service.trace ++ [(label.1, exchange)]) (unstored : stores exchange = false) (id : Guid) :
    store.stream after.shared id = store.stream service.shared id := by
  rcases Pool.step_eq taken with ⟨call, next, waiting, rfl⟩
  rcases List.append_cancel_left traced
  have nothing : appended id ⟨call, (respond store service.shared call label.2).1⟩ = [] :=
    appended_of_unstored unstored id
  have grown := respond_stream lawful service.shared call label.2 id
  rw [nothing, List.append_nil] at grown
  exact grown

theorem step_stored {account : BankAccountAggregate} (taken : (machine store).step service label = some after)
    (traced : after.trace = service.trace ++ [(label.1, ⟨.storeAsync account, .ok ()⟩)]) :
    (∃ next, service.thread label.1 = .call (.storeAsync account) next) ∧
      EventStore.storeAsync store service.shared account = .ok after.shared := by
  rcases Pool.step_eq taken with ⟨call, next, waiting, rfl⟩
  have entry := List.append_cancel_left traced
  simp only [List.cons.injEq, Prod.mk.injEq, Exchange.mk.injEq, true_and, and_true] at entry
  rcases entry with ⟨rfl, answer⟩
  refine ⟨⟨next, waiting⟩, ?_⟩
  have replied := eq_of_heq answer
  dsimp only [environment, respond] at replied ⊢
  cases saved : EventStore.storeAsync store service.shared account with
  | ok db => rfl
  | error error =>
    rw [saved] at replied
    cases replied

theorem step_known {eventId : Guid} (taken : (machine store).step service label = some after)
    (traced : after.trace = service.trace ++ [(label.1, ⟨.existsAsync eventId, .ok true⟩)]) :
    EventStore.existsAsync store service.shared eventId = true ∧ after.shared = service.shared := by
  rcases Pool.step_eq taken with ⟨call, next, waiting, rfl⟩
  have entry := List.append_cancel_left traced
  simp only [List.cons.injEq, Prod.mk.injEq, Exchange.mk.injEq, true_and, and_true] at entry
  rcases entry with ⟨rfl, answer⟩
  exact ⟨Except.ok.inj (eq_of_heq answer), rfl⟩

theorem step_commit (lawful : store.Lawful) (begun : Begun store host jobs start)
    (runs : (machine store).Runs allowed start labels service) {account : BankAccountAggregate}
    (taken : (machine store).step service label = some after)
    (traced : after.trace = service.trace ++ [(label.1, ⟨.storeAsync account, .ok ()⟩)]) :
    ∃ paymentId earlier between pending,
      Commit store host jobs start service after label.1 account paymentId earlier between pending := by
  obtain ⟨⟨next, waiting⟩, saved⟩ := step_stored taken traced
  obtain ⟨paymentId, earlier, between, pending, storing⟩ :=
    storing lawful begun runs (sound lawful begun runs).rooted waiting
  exact ⟨paymentId, earlier, between, pending, storing.commit lawful begun.trace runs saved⟩

/-- What a run does alone, on any database with the streams that it finds at its last call. -/
structure Alone (store : IDocumentStore Db) (start service after : Service Db ι) (run : ι)
    (reply : Except Exception Payment) (response : Option CreateInvoiceCommand.Response) : Prop where
  replied : RepliedWith (callsOf after.trace run) reply
  done : after.thread run = .done response
  same : ∀ db, SameStreams store store Everywhere db service.shared →
    ∃ final, (environment store).run reply (start.thread run) db = (.ok response, final) ∧
      SameStreams store store Everywhere final after.shared

theorem stored_anew (lawful : store.Lawful) (begun : Begun store host jobs start)
    (runs : (machine store).Runs allowed start labels service) {account : BankAccountAggregate}
    (taken : (machine store).step service label = some after)
    (traced : after.trace = service.trace ++ [(label.1, ⟨.storeAsync account, .ok ()⟩)]) :
    ∃ answer, ⟨.loadAsync account.id none, .ok answer⟩ ∈ callsOf service.trace label.1 ∧
      ∀ db, SameStreams store store Everywhere db service.shared →
        EventStore.loadAsync store db account.id none = .ok answer ∧
        ∃ final, EventStore.storeAsync store db account = .ok final ∧
          SameStreams store store Everywhere final after.shared := by
  have saved := (step_stored taken traced).2
  obtain ⟨paymentId, earlier, between, pending, commit⟩ := step_commit lawful begun runs taken traced
  obtain ⟨answer, asked, present⟩ := commit.storing.reads lawful begun.trace runs commit.unchanged
  refine ⟨answer, asked, fun db same => ⟨(same.loadAsync lawful lawful trivial none).trans present, ?_⟩⟩
  have past : store.stream service.shared account.id <+: store.stream db account.id := by
    rw [same _ trivial]
  obtain ⟨final, savedHere⟩ := (same.storeAsync_iff lawful lawful commit.live trivial past commit.batch.filled
    commit.batch.nodup).mpr ⟨_, saved⟩
  exact ⟨final, savedHere, same.stored lawful lawful savedHere saved⟩

theorem invoice_alone (lawful : store.Lawful) (begun : Begun store host jobs start)
    (runs : (machine store).Runs allowed start labels service) (permitted : allowed service label)
    (taken : (machine store).step service label = some after)
    (traced : after.trace = service.trace ++ [(label.1, exchange)]) (ends : returns exchange = true)
    {request : CreateInvoiceCommand.Request} {openedAt createdAt : DateTime}
    (job : jobs label.1 = .createInvoice request openedAt createdAt) :
    ∃ reply response, Alone store start service after label.1 reply response := by
  rcases invoice_follows begun (runs.step permitted taken) job with ⟨left, followed, same⟩
  have stage := CreateInvoiceCommand.handle_stage followed
  rw [callsOf_step traced] at stage
  obtain ⟨payment, paymentId, url, loaded, bankAccount, calls, rfl, rfl, read, made⟩ := stage.returned_last ends
  obtain ⟨answer, asked, anew⟩ := stored_anew lawful begun runs taken traced
  rw [calls] at asked
  simp only [List.mem_cons, Exchange.mk.injEq, reduceCtorEq, false_and, List.not_mem_nil, or_false, false_or,
    Call.loadAsync.injEq, and_true] at asked
  obtain ⟨sameAccount, sameAnswer⟩ := asked
  cases eq_of_heq sameAnswer
  refine ⟨.ok payment, some ⟨paymentId, url⟩, ?_, same, fun db agrees => ?_⟩
  · intro newPayment answer called
    rw [callsOf_step traced, calls] at called
    simp at called
    exact called.2.symm
  · obtain ⟨present, final, saved, kept⟩ := anew db agrees
    rw [sameAccount] at present
    refine ⟨final, ?_, kept⟩
    rw [begun.thread, job, Job.program, Environment.run_map,
      CreateInvoiceCommand.handle_alone read present made saved]
    rfl

theorem notification_alone (lawful : store.Lawful) (begun : Begun store host jobs start) (apart : PaymentsApart jobs)
    (runs : (machine store).Runs allowed start labels service) (permitted : allowed service label)
    (taken : (machine store).step service label = some after)
    (traced : after.trace = service.trace ++ [(label.1, exchange)]) (ends : returns exchange = true)
    {request : InvoiceStatusChangedEvent.Event} {occuredAt : DateTime}
    (job : jobs label.1 = .invoiceStatusChanged request occuredAt) :
    ∃ reply response, Alone store start service after label.1 reply response := by
  rcases notification_follows begun (runs.step permitted taken) job with ⟨left, followed, same⟩
  have stage := InvoiceStatusChangedEvent.handle_stage followed
  rw [callsOf_step traced] at stage
  rcases stage.returned_last ends with ⟨rfl, ⟨eventId, parsed, calls, rfl⟩ |
    ⟨eventId, accountId, amount, loaded, account, calls, rfl, credited⟩⟩
  · obtain ⟨known, unchanged⟩ := step_known taken traced
    refine ⟨.error .yandexCheckoutException, none, ?_, same, fun db agrees => ⟨db, ?_, ?_⟩⟩
    · intro newPayment answer called
      rw [callsOf_step traced, calls] at called
      simp at called
    · rw [← agrees.existsAsync lawful lawful] at known
      rw [begun.thread, job, Job.program, Environment.run_map,
        InvoiceStatusChangedEvent.handle_alone_existing parsed known]
      rfl
    · rw [unchanged]
      exact agrees
  · obtain ⟨answer, asked, anew⟩ := stored_anew lawful begun runs taken traced
    have known : ⟨.existsAsync eventId, .ok false⟩ ∈ callsOf service.trace label.1 := by simp [calls]
    have missing := unknown_later lawful begun runs (apart _ request occuredAt eventId job credited.parsed) known
    have unknown : EventStore.existsAsync store service.shared eventId = false := by
      rw [← Bool.not_eq_true, existsAsync_account_iff lawful (sound lawful begun runs).rooted]
      exact fun present => present missing
    rw [calls] at asked
    simp only [List.mem_cons, Exchange.mk.injEq, reduceCtorEq, false_and, List.not_mem_nil, or_false, false_or,
      Call.loadAsync.injEq, and_true] at asked
    obtain ⟨sameAccount, sameAnswer⟩ := asked
    cases eq_of_heq sameAnswer
    refine ⟨.error .yandexCheckoutException, none, ?_, same, fun db agrees => ?_⟩
    · intro newPayment answer called
      rw [callsOf_step traced, calls] at called
      simp at called
    · obtain ⟨present, final, saved, kept⟩ := anew db agrees
      rw [sameAccount] at present
      rw [← agrees.existsAsync lawful lawful] at unknown
      refine ⟨final, ?_, kept⟩
      rw [begun.thread, job, Job.program, Environment.run_map,
        InvoiceStatusChangedEvent.handle_alone credited unknown present saved]
      rfl

end Step

theorem atomic (lawful : store.Lawful) (begun : Begun store host jobs start) (apart : PaymentsApart jobs) :
    Pool.Atomic (environment store) start allowed (SameStreams store store Everywhere) returns RepliedWith where
  quiet := by
    intro labels service label after exchange runs permitted taken traced more db agrees id known
    rw [agrees id known, step_quiet lawful taken traced (unstored_of_unreturned more) id]
  whole := by
    intro labels service label after exchange runs permitted taken traced ends
    obtain ⟨reply, response, alone⟩ : ∃ reply response, Alone store start service after label.1 reply response := by
      cases job : jobs label.1 with
      | createInvoice request openedAt createdAt =>
        exact invoice_alone lawful begun runs permitted taken traced ends job
      | invoiceStatusChanged request occuredAt =>
        exact notification_alone lawful begun apart runs permitted taken traced ends job
    exact ⟨reply, response, alone.replied, alone.done, alone.same⟩

theorem returned_iff (begun : Begun store host jobs start) (runs : (machine store).Runs allowed start labels service)
    (run : ι) : run ∈ Pool.ended returns service.trace ↔ ∃ response, service.thread run = .done response := by
  have listed : run ∈ Pool.ended returns service.trace ↔
      ∃ exchange ∈ callsOf service.trace run, returns exchange = true := by
    simp [Pool.ended, callsOf]
  rw [listed]
  cases job : jobs run with
  | createInvoice request openedAt createdAt =>
    rcases invoice_follows begun runs job with ⟨left, followed, same⟩
    have stage := CreateInvoiceCommand.handle_stage followed
    generalize callsOf service.trace run = calls at stage
    rw [same, Program.map_returns_iff]
    cases stage <;> simp [returns]
  | invoiceStatusChanged request occuredAt =>
    rcases notification_follows begun runs job with ⟨left, followed, same⟩
    have stage := InvoiceStatusChangedEvent.handle_stage followed
    generalize callsOf service.trace run = calls at stage
    rw [same, Program.map_returns_iff]
    cases stage <;> simp [returns]

/-- Whatever the handlers do side by side, those that have returned have answered what they would have answered
    one after another, each alone, in the order of their last calls and with the replies the provider gave
    them, and the streams are those they would have left. The others have left nothing. -/
theorem serializable (lawful : store.Lawful) (begun : Begun store host jobs start) (apart : PaymentsApart jobs)
    (runs : (machine store).Runs Machine.anyStep start labels service) :
    ∃ order : List (ι × Except Exception Payment),
      order.map (·.1) = Pool.ended returns service.trace ∧ (order.map (·.1)).Nodup ∧
      (∀ run, run ∈ order.map (·.1) ↔ ∃ response, service.thread run = .done response) ∧
      (∀ entry ∈ order, RepliedWith (callsOf service.trace entry.1) entry.2) ∧
      let serial := (environment store).serial (order.map fun entry => (entry.2, (jobs entry.1).program host))
        start.shared
      (∀ id, store.stream serial.2 id = store.stream service.shared id) ∧
      ∃ responses : List (Option CreateInvoiceCommand.Response),
        serial.1 = responses.map .ok ∧ order.map (service.thread ·.1) = responses.map .done := by
  rcases Pool.serialized begun.trace (fun _ _ => rfl) (atomic lawful begun apart) runs with ⟨order, serialized⟩
  have programs : (order.map fun entry => (entry.2, start.thread entry.1)) =
      order.map fun entry => (entry.2, (jobs entry.1).program host) := by
    simp only [begun.thread]
  have state := serialized.state
  rcases serialized.results with ⟨responses, threads, answers⟩
  rw [programs] at state answers
  refine ⟨order, serialized.ended, serialized.nodup, fun run => ?_, serialized.chosen, fun id => state id trivial,
    responses, answers, threads⟩
  rw [serialized.ended]
  exact returned_iff begun runs run

theorem sampleJobs_apart : PaymentsApart sampleJobs := by
  intro run request occuredAt eventId job parsed
  cases run with
  | true => cases job
  | false =>
    cases job
    cases parsed
    exact invoice_not_account

def askedFirst : List (Bool × Except Exception Payment) :=
  [false, true, true, true, false, false].map (·, .ok samplePayment)

/-- The notification asks for its payment before the account is there, and comes after it all the same. -/
theorem interleaved_notification_serialized :
    ∃ service, ∃ order : List (Bool × Except Exception Payment),
      (machine inMemory).exec (begin sampleHost sampleJobs []) askedFirst = some service ∧
      order.map (·.1) = [true, false] ∧ ∀ id, inMemory.stream service.shared id = inMemory.stream
        ((environment inMemory).serial (order.map fun entry => (entry.2, (sampleJobs entry.1).program sampleHost))
          []).2 id := by
  have reached := Machine.exec_last
    (show ((machine inMemory).exec (begin sampleHost sampleJobs []) askedFirst).isSome = true by decide +kernel)
  have sound : SoundStore inMemory [] := .unwritten fun _ => rfl
  obtain ⟨order, ended, -, -, -, streams, -⟩ := serializable inMemory_lawful
    (begin_begun sampleHost sampleJobs sound) sampleJobs_apart (Machine.exec_runs _ _ _ _ reached)
  exact ⟨_, order, reached, ended.trans (by decide +kernel), fun id => (streams id).symm⟩

end Service

end Yoomoney
