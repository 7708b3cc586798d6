import EsYoomoney.Application.Contention

namespace Yoomoney

open EventSourcing DomainEvents BankAccountAggregate

/-- The one change a creation makes: the invoice, behind the opening of an account that had no stream, and
    no change of any balance. -/
structure InvoiceAppended {Db : Type} (store : IDocumentStore Db) (before after : Db)
    (request : CreateInvoiceCommand.Request) (openedAt createdAt : DateTime) (paymentId : Guid) : Prop where
  stream : store.stream after request.accountId = store.stream before request.accountId ++
    (if store.stream before request.accountId = [] then [.accountBalanceInitializedTo request.accountId openedAt]
      else []) ++ [.invoiceCreatedDomainEvent paymentId request.accountId request.amount createdAt]
  frame : ∀ other, other ≠ request.accountId → store.stream after other = store.stream before other
  balances : ∀ id account, EventStore.loadAsync store before id none = .ok (some account) →
    ∃ loaded, EventStore.loadAsync store after id none = .ok (some loaded) ∧ loaded.balance = account.balance
  opened : store.stream before request.accountId = [] →
    ∃ loaded, EventStore.loadAsync store after request.accountId none = .ok (some loaded) ∧
      loaded.balance = Decimal.zero

theorem Batch.creation {host : Host} {calls : List (Exchange Call Answer Exception)} {paymentId accountId : Guid}
    {base pending : List Event} {request : CreateInvoiceCommand.Request} {openedAt createdAt : DateTime}
    (batch : Batch host (.createInvoice request openedAt createdAt) calls paymentId accountId base pending) :
    pending = (if base = [] then [.accountBalanceInitializedTo request.accountId openedAt] else []) ++
      [.invoiceCreatedDomainEvent paymentId request.accountId request.amount createdAt] := by
  cases batch with
  | opening created read => rfl
  | further created read present => rw [if_neg present, List.nil_append]

theorem balanceAfter_creation (balance : Decimal) (base : List Event) (request : CreateInvoiceCommand.Request)
    (openedAt createdAt : DateTime) (paymentId : Guid) :
    balanceAfter balance ((if base = [] then [.accountBalanceInitializedTo request.accountId openedAt] else []) ++
      [.invoiceCreatedDomainEvent paymentId request.accountId request.amount createdAt]) = .ok balance := by
  split <;> rfl

namespace Service

variable {Db ι : Type} [DecidableEq ι] {store : IDocumentStore Db} {host : Host} {jobs : ι → Job}
  {start service after : Service Db ι} {allowed : Service Db ι → ι × Except Exception Payment → Prop}
  {labels : List (ι × Except Exception Payment)} {run : ι}

theorem Commit.loads (lawful : store.Lawful) {account : BankAccountAggregate} {paymentId : Guid}
    {earlier between : Trace ι} {pending : List Event}
    (commit : Commit store host jobs start service after run account paymentId earlier between pending) :
    ∃ loaded, EventStore.loadAsync store after.shared account.id none = .ok (some loaded) ∧
      balanceAfter Decimal.zero (store.stream service.shared account.id ++ pending) = .ok loaded.balance :=
  ⟨_, lawful.loadAsync_stored commit.live commit.stream commit.batch.filled, commit.live.balance⟩

theorem Commit.invoiceAppended (lawful : store.Lawful) {account : BankAccountAggregate} {paymentId : Guid}
    {earlier between : Trace ι} {pending : List Event}
    (commit : Commit store host jobs start service after run account paymentId earlier between pending)
    {request : CreateInvoiceCommand.Request} {openedAt createdAt : DateTime}
    (job : jobs run = .createInvoice request openedAt createdAt) :
    InvoiceAppended store service.shared after.shared request openedAt createdAt paymentId := by
  have batch := commit.batch
  rw [job] at batch
  have sameId := batch.invoice.1
  obtain ⟨loaded, present, posted⟩ := commit.loads lawful
  have stream := commit.stream
  have frame := commit.frame
  rw [batch.creation, sameId] at stream posted
  rw [sameId] at frame present
  have unmoved : ∀ balance, balanceAfter Decimal.zero (store.stream service.shared request.accountId) = .ok balance →
      loaded.balance = balance := by
    intro balance before
    rw [balanceAfter_append, before] at posted
    have created := (balanceAfter_creation balance _ request openedAt createdAt paymentId).symm.trans posted
    exact (Except.ok.inj created).symm
  refine ⟨by rw [stream, List.append_assoc], frame, fun id old before => ?_, fun missing => ?_⟩
  · by_cases own : id = request.accountId
    · subst own
      have live := (lawful.loadAsync_live before).1.balance
      rw [List.append_nil] at live
      exact ⟨loaded, present, unmoved old.balance live⟩
    · refine ⟨old, ?_, rfl⟩
      rw [lawful.loadAsync_eq] at before ⊢
      rw [frame id own]
      exact before
  · exact ⟨loaded, present, unmoved Decimal.zero (by rw [missing]; rfl)⟩

theorem respond_unstored {db after : Db} {exchange : Exchange Call Answer Exception}
    {reply : Except Exception Payment} (unstored : ∀ account, exchange ≠ ⟨.storeAsync account, .ok ()⟩)
    (answered : respond store db exchange.request reply = (exchange.answer, after)) : after = db := by
  rcases exchange with ⟨request, answer⟩
  cases request with
  | createPayment newPayment => exact (congrArg Prod.snd answered).symm
  | existsAsync eventId => exact (congrArg Prod.snd answered).symm
  | loadAsync id version => exact (congrArg Prod.snd answered).symm
  | storeAsync account =>
    simp only [respond] at answered
    split at answered <;> cases answered
    · exact absurd rfl (unstored account)
    · rfl

section Effect

variable {request : CreateInvoiceCommand.Request} {openedAt createdAt : DateTime}

theorem returned_invoice_appended (lawful : store.Lawful) (begun : Begun store host jobs start)
    (runs : (machine store).Runs allowed start labels service)
    (job : jobs run = .createInvoice request openedAt createdAt)
    {response : Option CreateInvoiceCommand.Response} (returned : service.thread run = .done response) :
    ∃ payment paymentId url account earlier choice before after,
      ⟨CreateInvoiceCommand.creation host request, .ok payment⟩ ∈ callsOf service.trace run ∧
      Guid.parse payment.id = .ok paymentId ∧ response = some ⟨paymentId, url⟩ ∧
      Pool.Moment (environment store) allowed start service labels earlier run ⟨.storeAsync account, .ok ()⟩ choice
        before after ∧
      InvoiceAppended store before.shared after.shared request openedAt createdAt paymentId := by
  rcases invoice_follows begun runs job with ⟨left, followed, same⟩
  rcases Program.map_eq_done (same.symm.trans returned) with ⟨value, rfl, answer⟩
  have stage := CreateInvoiceCommand.handle_stage followed
  generalize recorded : callsOf service.trace run = calls at stage
  cases stage with
  | @returned payment paymentId url loaded account read made =>
    have created : ⟨CreateInvoiceCommand.creation host request, .ok payment⟩ ∈ callsOf service.trace run := by
      simp [recorded]
    have called : ⟨.storeAsync account, .ok ()⟩ ∈ callsOf service.trace run := by simp [recorded]
    rcases List.append_of_mem (mem_callsOf.mp called) with ⟨earlier, later, split⟩
    obtain ⟨choice, before, after, moment⟩ := Pool.moment begun.trace runs split
    obtain ⟨past, rest, -, reached, -⟩ := moment.run
    obtain ⟨next, waiting⟩ := moment.waiting
    obtain ⟨otherId, front, between, pending, storing⟩ :=
      storing lawful begun reached (sound lawful begun reached).rooted waiting
    have saved : EventStore.storeAsync store before.shared account = .ok after.shared := by
      have answered := moment.answered
      simp only [environment, respond] at answered
      split at answered <;> cases answered
      assumption
    have commit := storing.commit lawful begun.trace reached saved
    have inside : ∀ exchange ∈ callsOf before.trace run, exchange ∈ callsOf service.trace run := by
      intro exchange member
      rw [split, callsOf_append, ← moment.trace]
      exact List.mem_append_left _ member
    obtain ⟨-, -, otherUrl, otherRead⟩ := created_batch begun runs job created inside commit.batch
    cases read.symm.trans otherRead
    exact ⟨payment, paymentId, url, account, earlier, choice, before, after, List.mem_cons_self,
      YoomoneyInvoiceService.result_id read, answer.symm, moment, commit.invoiceAppended lawful job⟩

theorem thrown_invoice_leaves_store (begun : Begun store host jobs start)
    (runs : (machine store).Runs allowed start labels service)
    (job : jobs run = .createInvoice request openedAt createdAt)
    {error : Exception} (thrown : service.thread run = .fail error) {earlier later : Trace ι}
    {exchange : Exchange Call Answer Exception} (recorded : service.trace = earlier ++ (run, exchange) :: later) :
    ∃ choice before after,
      Pool.Moment (environment store) allowed start service labels earlier run exchange choice before after ∧
      after.shared = before.shared := by
  obtain ⟨choice, before, after, moment⟩ := Pool.moment begun.trace runs recorded
  refine ⟨choice, before, after, moment, ?_⟩
  rcases invoice_follows begun runs job with ⟨left, followed, same⟩
  have failed := Program.map_eq_fail (same.symm.trans thrown)
  subst failed
  have called : exchange ∈ callsOf service.trace run := mem_callsOf.mpr (by rw [recorded]; simp)
  have stage := CreateInvoiceCommand.handle_stage followed
  generalize callsOf service.trace run = calls at stage called
  have unstored : ∀ account, exchange ≠ ⟨.storeAsync account, .ok ()⟩ := by
    rintro account rfl
    cases stage <;> simp at called
  exact respond_unstored unstored moment.answered

end Effect

/-- A run that has returned made one change, in the step that stored: its invoice is behind the account's
    events, and no balance and no other stream changed. A run that has thrown changed nothing in any step;
    its store call was refused because another run had stored in the account since its load, or because
    the payment has the id of the account it would have opened. -/
theorem created_invoice_effect (lawful : store.Lawful) (begun : Begun store host jobs start)
    (runs : (machine store).Runs allowed start labels service) {request : CreateInvoiceCommand.Request}
    {openedAt createdAt : DateTime} (job : jobs run = .createInvoice request openedAt createdAt) :
    (∀ response, service.thread run = .done response → ∃ payment paymentId url account earlier choice before after,
      ⟨CreateInvoiceCommand.creation host request, .ok payment⟩ ∈ callsOf service.trace run ∧
      Guid.parse payment.id = .ok paymentId ∧ response = some ⟨paymentId, url⟩ ∧
      Pool.Moment (environment store) allowed start service labels earlier run ⟨.storeAsync account, .ok ()⟩ choice
        before after ∧
      InvoiceAppended store before.shared after.shared request openedAt createdAt paymentId) ∧
    (∀ error, service.thread run = .fail error →
      (∀ earlier exchange later, service.trace = earlier ++ (run, exchange) :: later → ∃ choice before after,
        Pool.Moment (environment store) allowed start service labels earlier run exchange choice before after ∧
        after.shared = before.shared) ∧
      ∀ account refusal, ⟨.storeAsync account, .error refusal⟩ ∈ callsOf service.trace run →
        Overtaken service.trace run request.accountId ∨
        (⟨CreateInvoiceCommand.loading request, .ok none⟩ ∈ callsOf service.trace run ∧
          ∃ payment, ⟨CreateInvoiceCommand.creation host request, .ok payment⟩ ∈ callsOf service.trace run ∧
            Guid.parse payment.id = .ok request.accountId)) := by
  constructor
  · intro response returned
    exact returned_invoice_appended lawful begun runs job returned
  · intro error thrown
    constructor
    · intro earlier exchange later recorded
      exact thrown_invoice_leaves_store begun runs job thrown recorded
    · intro account refusal called
      refine (refused_invoice_cause lawful begun runs job called).imp_right ?_
      rintro ⟨missing, payment, url, created, read⟩
      exact ⟨missing, payment, created, YoomoneyInvoiceService.result_id read⟩

theorem first_invoice_opens_account :
    ∃ service before after, (machine inMemory).exec (begin sampleHost sampleJobs []) creationAlone = some service ∧
      InvoiceAppended inMemory before after ⟨1, sampleAmount.value⟩ 0 1 7 := by
  have sound : SoundStore inMemory [] := .unwritten fun _ => rfl
  have reached := Machine.exec_last
    (show ((machine inMemory).exec (begin sampleHost sampleJobs []) creationAlone).isSome = true from rfl)
  obtain ⟨payment, paymentId, url, account, earlier, choice, before, after, created, parsed, answer, moment, effect⟩ :=
    (created_invoice_effect inMemory_lawful (begin_begun sampleHost sampleJobs sound)
      (Machine.exec_runs _ _ _ _ reached) (show sampleJobs true = _ from rfl)).1 _ rfl
  cases answer
  exact ⟨_, before.shared, after.shared, reached, effect⟩

end Service

end Yoomoney
