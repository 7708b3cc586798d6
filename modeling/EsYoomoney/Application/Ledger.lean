import EsYoomoney.Application.Serializability
import EsYoomoney.Application.StreamsWellFormed

namespace Yoomoney

open EventSourcing DomainEvents BankAccountAggregate

def createdPayment : Exchange Call Answer Exception → Option Payment
  | ⟨.createPayment _, .ok payment⟩ => some payment
  | _ => none

namespace Job

/-- What a run has to record about its payment, by its request and the provider's reply. -/
def entry (host : Host) (calls : List (Exchange Call Answer Exception)) : Job → Option Event
  | createInvoice request _ createdAt => do
    let payment ← calls.findSome? createdPayment
    let (paymentId, _) ← (YoomoneyInvoiceService.result host payment).toOption
    some (.invoiceCreatedDomainEvent paymentId request.accountId request.amount createdAt)
  | invoiceStatusChanged request occuredAt => do
    let eventId ← (Guid.parse request.invoice.id).toOption
    let accountId ← (Guid.parse request.invoice.merchantCustomerId).toOption
    let amount ← request.invoice.amount
    some (.moneyDepositedDomainEvent eventId accountId amount.value amount.currency request.invoice occuredAt)

def opening : Job → List Event
  | createInvoice request openedAt _ => [.accountBalanceInitializedTo request.accountId openedAt]
  | invoiceStatusChanged _ _ => []

end Job

/-- The books: what has been recorded for each account. -/
abbrev Books := Guid → List Event

/-- A run enters its event in its account, which it opens first if nothing has been recorded there. -/
def Books.post (host : Host) (job : Job) (calls : List (Exchange Call Answer Exception)) (books : Books) : Books :=
  match job.entry host calls with
  | none => books
  | some event =>
    let opening := if books event.streamId = [] then job.opening else []
    Function.update books event.streamId (books event.streamId ++ opening ++ [event])

theorem Job.opening_opens (job : Job) : ∀ event ∈ job.opening, event.opensAccount = true := by
  cases job <;> simp [opening, Event.opensAccount]

theorem Job.opening_length (job : Job) : job.opening.length ≤ 1 := by
  cases job <;> simp [opening]

theorem Job.entry_plain {host : Host} {job : Job} {calls : List (Exchange Call Answer Exception)} {event : Event}
    (recorded : job.entry host calls = some event) : event.opensAccount = false ∧ event.withdraws = false := by
  cases job with
  | createInvoice request openedAt createdAt =>
    simp only [entry, Option.bind_eq_bind, Option.bind_eq_some_iff] at recorded
    rcases recorded with ⟨payment, -, ⟨paymentId, url⟩, -, same⟩
    cases same
    exact ⟨rfl, rfl⟩
  | invoiceStatusChanged request occuredAt =>
    simp only [entry, Option.bind_eq_bind, Option.bind_eq_some_iff] at recorded
    rcases recorded with ⟨eventId, -, accountId, -, amount, -, same⟩
    cases same
    exact ⟨rfl, rfl⟩

namespace Service

variable {Db ι : Type} [DecidableEq ι] {store : IDocumentStore Db} {host : Host} {jobs : ι → Job}
  {start service after : Service Db ι} {allowed : Service Db ι → ι × Except Exception Payment → Prop}
  {labels : List (ι × Except Exception Payment)}

/-- The runs that have stored, in the order in which they have. -/
abbrev committed (trace : Trace ι) : List ι := Pool.ended stores trace

def posted (host : Host) (jobs : ι → Job) (trace : Trace ι) (books : Books) : Books :=
  (committed trace).foldl (fun books run => books.post host (jobs run) (callsOf trace run)) books

omit [DecidableEq ι] in
theorem stored_exchange {exchange : Exchange Call Answer Exception} (stored : stores exchange = true) :
    ∃ account, exchange = ⟨.storeAsync account, .ok ()⟩ := by
  rcases exchange with ⟨call, answer⟩
  cases call with
  | storeAsync account =>
    cases answer with
    | ok answer => exact ⟨account, rfl⟩
    | error error => cases stored
  | _ => cases stored

theorem committed_returned (begun : Begun store host jobs start)
    (runs : (machine store).Runs allowed start labels service) {run : ι} (stored : run ∈ committed service.trace) :
    ∃ response, service.thread run = .done response := by
  apply (returned_iff begun runs run).mp
  simp only [committed, Pool.ended, List.mem_map, List.mem_filter] at stored ⊢
  rcases stored with ⟨entry, ⟨member, stored⟩, same⟩
  refine ⟨entry, ⟨member, ?_⟩, same⟩
  by_contra more
  rw [unstored_of_unreturned (by simpa using more)] at stored
  cases stored

theorem created_eq (begun : Begun store host jobs start) (runs : (machine store).Runs allowed start labels service)
    {run : ι} {request : CreateInvoiceCommand.Request} {openedAt createdAt : DateTime}
    (job : jobs run = .createInvoice request openedAt createdAt) {payment : Payment}
    (called : ⟨CreateInvoiceCommand.creation host request, .ok payment⟩ ∈ callsOf service.trace run) :
    (callsOf service.trace run).findSome? createdPayment = some payment := by
  rcases invoice_follows begun runs job with ⟨left, followed, -⟩
  have stage := CreateInvoiceCommand.handle_stage followed
  generalize callsOf service.trace run = calls at stage called
  cases stage <;> simp at called <;> exact congrArg some called.symm

section Step

variable {label : ι × Except Exception Payment} {exchange : Exchange Call Answer Exception}

theorem callsOf_other {run : ι} (traced : after.trace = service.trace ++ [(label.1, exchange)])
    (apart : run ≠ label.1) : callsOf after.trace run = callsOf service.trace run := by
  rw [traced, callsOf_append]
  simp [callsOf, Ne.symm apart]

/-- A step that stores posts its run's event. Any other step leaves the books as they are. -/
theorem posted_step (begun : Begun store host jobs start) (runs : (machine store).Runs allowed start labels service)
    (taken : (machine store).step service label = some after)
    (traced : after.trace = service.trace ++ [(label.1, exchange)]) (books : Books) :
    posted host jobs after.trace books =
      if stores exchange then
        (posted host jobs service.trace books).post host (jobs label.1) (callsOf after.trace label.1)
      else posted host jobs service.trace books := by
  have apart : ∀ run ∈ committed service.trace, run ≠ label.1 := by
    rintro run stored rfl
    rcases committed_returned begun runs stored with ⟨response, done⟩
    rcases Pool.step_eq taken with ⟨call, next, waiting, -⟩
    rw [waiting] at done
    cases done
  have earlier : ∀ books : Books,
      (committed service.trace).foldl (fun books run => books.post host (jobs run) (callsOf after.trace run)) books =
        posted host jobs service.trace books := by
    intro books
    apply List.foldl_ext
    intro books run stored
    rw [callsOf_other traced (apart run stored)]
  rw [posted, committed, traced, Pool.ended_snoc, ← traced, List.foldl_append, earlier]
  cases stores exchange <;> rfl

theorem Commit.posts (begun : Begun store host jobs start)
    (later : (machine store).Runs allowed start labels after) {account : BankAccountAggregate} {paymentId : Guid}
    {earlier between : Trace ι} {pending : List Event}
    (commit : Commit store host jobs start service after label.1 account paymentId earlier between pending)
    (traced : after.trace = service.trace ++ [(label.1, exchange)]) :
    Books.post host (jobs label.1) (callsOf after.trace label.1) (store.stream service.shared) =
      store.stream after.shared := by
  have effect : store.stream after.shared = Function.update (store.stream service.shared) account.id
      (store.stream service.shared account.id ++ pending) := by
    funext id
    by_cases own : id = account.id
    · subst own
      rw [Function.update_self, commit.stream]
    · rw [Function.update_of_ne own, commit.frame id own]
  rw [effect]
  have batch := commit.batch
  generalize account.id = accountId at batch
  generalize based : store.stream service.shared accountId = base at batch
  generalize job : jobs label.1 = request at batch
  cases batch with
  | @opening request openedAt createdAt _ payment paymentId url created read =>
    have called := callsOf_step traced ▸ List.mem_append_left [exchange] created
    rw [Books.post, Job.entry, created_eq begun later job called]
    simp [read, Except.toOption, Event.streamId, Job.opening, based]
  | @further request openedAt createdAt _ payment paymentId url _ created read present =>
    have called := callsOf_step traced ▸ List.mem_append_left [exchange] created
    rw [Books.post, Job.entry, created_eq begun later job called]
    simp [read, Except.toOption, Event.streamId, based, present]
  | crediting parsed named priced present =>
    rw [Books.post, Job.entry, parsed, named, priced]
    simp [Except.toOption, Event.streamId, based, present]

end Step

theorem stream_posted (lawful : store.Lawful) (begun : Begun store host jobs start)
    (runs : (machine store).Runs allowed start labels service) :
    store.stream service.shared = posted host jobs service.trace (store.stream start.shared) := by
  induction runs with
  | refl =>
    rw [posted, committed, begun.trace]
    rfl
  | @step labels service label after past permitted taken ih =>
    have later := past.step permitted taken
    obtain ⟨call, next, waiting, result⟩ := Pool.step_eq taken
    have traced := congrArg Pool.trace result
    rw [posted_step begun past taken traced, ← ih]
    cases stored : stores ⟨call, ((environment store).respond service.shared call label.2).1⟩ with
    | false =>
      funext id
      exact step_quiet lawful taken traced stored id
    | true =>
      obtain ⟨account, same⟩ : ∃ account, (⟨call, ((environment store).respond service.shared call label.2).1⟩ :
          Exchange Call Answer Exception) = ⟨.storeAsync account, .ok ()⟩ := stored_exchange stored
      rw [same] at traced
      obtain ⟨paymentId, earlier, between, pending, commit⟩ := step_commit lawful begun past taken traced
      exact (commit.posts begun later traced).symm

theorem committed_iff {trace : Trace ι} {run : ι} :
    run ∈ committed trace ↔ ∃ account, ⟨.storeAsync account, .ok ()⟩ ∈ callsOf trace run := by
  simp only [committed, Pool.ended, List.mem_map, List.mem_filter, mem_callsOf]
  constructor
  · rintro ⟨⟨stored, exchange⟩, ⟨member, stores⟩, rfl⟩
    rcases stored_exchange stores with ⟨account, rfl⟩
    exact ⟨account, member⟩
  · rintro ⟨account, member⟩
    exact ⟨_, ⟨member, rfl⟩, rfl⟩

theorem committed_nodup (begun : Begun store host jobs start)
    (runs : (machine store).Runs allowed start labels service) : (committed service.trace).Nodup := by
  induction runs with
  | refl =>
    rw [committed, begun.trace]
    exact List.nodup_nil
  | @step labels service label after past permitted taken ih =>
    rcases Pool.step_eq taken with ⟨call, next, waiting, result⟩
    rw [congrArg Pool.trace result, committed, Pool.ended_snoc]
    split
    · rw [List.nodup_append]
      refine ⟨ih, List.nodup_singleton _, ?_⟩
      rintro run stored other own rfl
      rw [List.mem_singleton.mp own] at stored
      rcases committed_returned begun past stored with ⟨response, done⟩
      rw [waiting] at done
      cases done
    · rwa [List.append_nil]

/-- The store keeps the books: each run that has stored has posted its event once, in the order in which they
    have stored, and nothing else has been recorded. -/
theorem keeps_books (lawful : store.Lawful) (begun : Begun store host jobs start)
    (runs : (machine store).Runs allowed start labels service) :
    store.stream service.shared = posted host jobs service.trace (store.stream start.shared) ∧
      (committed service.trace).Nodup ∧ ∀ run, run ∈ committed service.trace ↔
        ∃ account, ⟨.storeAsync account, .ok ()⟩ ∈ callsOf service.trace run :=
  ⟨stream_posted lawful begun runs, committed_nodup begun runs, fun _ => committed_iff⟩

theorem asked_interleaved_books :
    ∃ service, (machine inMemory).exec (begin sampleHost sampleJobs []) askedFirst = some service ∧
      committed service.trace = [true, false] ∧
      inMemory.stream service.shared = posted sampleHost sampleJobs service.trace fun _ => [] := by
  have reached := Machine.exec_last
    (show ((machine inMemory).exec (begin sampleHost sampleJobs []) askedFirst).isSome = true by decide +kernel)
  have sound : SoundStore inMemory [] := .unwritten fun _ => rfl
  have kept := keeps_books inMemory_lawful (begin_begun sampleHost sampleJobs sound)
    (Machine.exec_runs _ _ _ _ reached)
  exact ⟨_, reached, by decide +kernel, kept.1⟩

/-- What the runs that have stored have recorded for an account. -/
def recorded (host : Host) (jobs : ι → Job) (trace : Trace ι) (id : Guid) : List Event :=
  ((committed trace).filterMap fun run => (jobs run).entry host (callsOf trace run)).filter (·.streamId = id)

/-- An account's page in the books is what it was, with an opening if it was empty, and what has been recorded. -/
theorem posted_page (trace : Trace ι) (books : Books) (id : Guid) :
    ∃ opening, posted host jobs trace books id = books id ++ opening ++ recorded host jobs trace id ∧
      (∀ event ∈ opening, event.opensAccount = true) ∧ opening.length ≤ 1 ∧ (books id ≠ [] → opening = []) := by
  unfold posted recorded
  induction committed trace using List.reverseRecOn with
  | nil => exact ⟨[], by simp⟩
  | append_singleton runs run ih =>
    rcases ih with ⟨opening, page, opens, single, none⟩
    rw [List.foldl_concat, List.filterMap_append, List.filter_append]
    generalize runs.foldl (fun books run => books.post host (jobs run) (callsOf trace run)) books = before at page ⊢
    generalize (runs.filterMap fun run => (jobs run).entry host (callsOf trace run)).filter (·.streamId = id) = old
      at page ⊢
    rw [Books.post]
    cases entered : (jobs run).entry host (callsOf trace run) with
    | none => exact ⟨opening, by simpa [entered] using page, opens, single, none⟩
    | some event =>
      by_cases own : event.streamId = id
      · subst own
        by_cases empty : before event.streamId = []
        · rw [empty] at page
          simp only [List.nil_eq, List.append_eq_nil_iff] at page
          refine ⟨(jobs run).opening, ?_, (jobs run).opening_opens, (jobs run).opening_length, fun present =>
            absurd page.1.1 present⟩
          simp [entered, empty, page.1.1, page.2]
        · refine ⟨opening, ?_, opens, single, none⟩
          simp only [if_neg empty, List.append_nil, Function.update_self]
          simp [entered, page]
      · refine ⟨opening, ?_, opens, single, none⟩
        simp [entered, own, Function.update_of_ne (Ne.symm own), page]

theorem recorded_plain {trace : Trace ι} {id : Guid} {event : Event} (member : event ∈ recorded host jobs trace id) :
    event.opensAccount = false ∧ event.withdraws = false := by
  rcases List.mem_filterMap.mp (List.mem_of_mem_filter member) with ⟨run, -, entered⟩
  exact Job.entry_plain entered

def credits (host : Host) (jobs : ι → Job) (trace : Trace ι) (id : Guid) : List Decimal :=
  (recorded host jobs trace id).filterMap Event.depositedAmount

omit [DecidableEq ι] in
theorem loaded_before (lawful : store.Lawful) {db : Db} {id : Guid} {old : Option BankAccountAggregate}
    (loaded : EventStore.loadAsync store db id none = .ok old) :
    balanceAfter Decimal.zero (store.stream db id) = .ok (old.elim Decimal.zero (·.balance)) ∧
      (old.elim 0 (·.version) = (store.stream db id).length) ∧ (old = none ↔ store.stream db id = []) := by
  cases old with
  | none =>
    have missing := (lawful.loadAsync_none_iff db id none).mp loaded
    rw [missing]
    exact ⟨rfl, rfl, by simp⟩
  | some account =>
    obtain ⟨live, present⟩ := lawful.loadAsync_live loaded
    have balance := live.balance
    have version := live.version
    simp only [List.append_nil, List.length_nil, Nat.add_zero] at balance version
    exact ⟨balance, version, by simp [present]⟩

/-- An empty page is opened by the first event that is recorded on it. -/
theorem opened_page (rooted : RootedStore store service.shared) {id : Guid} {opening : List Event}
    (page : store.stream service.shared id = opening ++ recorded host jobs service.trace id)
    (filled : store.stream service.shared id ≠ []) : opening ≠ [] := by
  rintro rfl
  rcases (rooted id filled).opening with ⟨occuredAt, rest, opened⟩
  rw [page, List.nil_append] at opened
  have plain := @recorded_plain _ _ host jobs service.trace id (.accountBalanceInitializedTo id occuredAt)
    (by rw [opened]; exact List.mem_cons_self)
  cases plain.1

/-- An account's balance has grown by what the runs that have stored have credited to it, and its version by the
    number of events they have recorded, one more if one of them has opened it. -/
theorem balances_add_up (lawful : store.Lawful) (begun : Begun store host jobs start)
    (runs : (machine store).Runs Machine.anyStep start labels service) {id : Guid}
    {old : Option BankAccountAggregate} {new : BankAccountAggregate}
    (before : EventStore.loadAsync store start.shared id none = .ok old)
    (after : EventStore.loadAsync store service.shared id none = .ok (some new)) :
    let amounts := credits host jobs service.trace id
    Decimal.sumFrom (old.elim Decimal.zero (·.balance)) amounts = .ok new.balance ∧
      new.version = old.elim 1 (·.version) + (recorded host jobs service.trace id).length ∧
      ((∀ count, decimalFormat.Representable
          ((old.elim Decimal.zero (·.balance)).units + ((amounts.take count).map (·.units)).sum)) →
        new.balance.units = (old.elim Decimal.zero (·.balance)).units + (amounts.map (·.units)).sum) := by
  dsimp only
  have page := congrFun (stream_posted lawful begun runs) id
  obtain ⟨opening, same, opens, single, untouched⟩ :=
    @posted_page _ _ host jobs service.trace (store.stream start.shared) id
  rw [same, List.append_assoc] at page
  obtain ⟨balanceBefore, versionBefore, missing⟩ := loaded_before lawful before
  obtain ⟨live, filled⟩ := lawful.loadAsync_live after
  have summed : Decimal.sumFrom (old.elim Decimal.zero (·.balance)) (credits host jobs service.trace id) =
      .ok new.balance := by
    have balance := live.balance
    have kept : ∀ event ∈ opening ++ recorded host jobs service.trace id, event.withdraws = false := by
      intro event member
      rcases List.mem_append.mp member with first | later
      · have opened := opens event first
        cases event <;> first | rfl | cases opened
      · exact (recorded_plain later).2
    have uncredited : opening.filterMap Event.depositedAmount = [] := by
      rw [List.filterMap_eq_nil_iff]
      intro event first
      have opened := opens event first
      cases event <;> first | rfl | cases opened
    rw [List.append_nil, Option.getD_none, visible, if_pos rfl, page, balanceAfter_append, balanceBefore] at balance
    have posted : balanceAfter (old.elim Decimal.zero (·.balance)) (opening ++ recorded host jobs service.trace id) =
      .ok new.balance := balance
    rwa [balanceAfter_deposits _ kept, List.filterMap_append, uncredited, List.nil_append] at posted
  refine ⟨summed, ?_, Decimal.sumFrom_units summed⟩
  have version := live.version
  rw [Option.getD_none, visible, if_pos rfl, page, List.length_append, List.length_append] at version
  cases old with
  | some account =>
    have present : store.stream start.shared id ≠ [] := fun empty => by cases missing.mpr empty
    rw [untouched present] at version
    simp only [Option.elim_some] at versionBefore ⊢
    simp only [List.length_nil] at version
    omega
  | none =>
    have empty := missing.mp rfl
    rw [empty, List.nil_append] at page
    have opened := List.length_pos_of_ne_nil (opened_page (sound lawful begun runs).rooted page filled)
    rw [empty] at version
    simp only [Option.elim_none, List.length_nil] at version ⊢
    omega

theorem opened_account_balance :
    ∃ service new, (machine inMemory).exec (begin sampleHost sampleJobs []) askedFirst = some service ∧
      EventStore.loadAsync inMemory service.shared 1 none = .ok (some new) ∧
      Decimal.sumFrom Decimal.zero (credits sampleHost sampleJobs service.trace 1) = .ok new.balance ∧
      new.version = 1 + (recorded sampleHost sampleJobs service.trace 1).length := by
  have reached := Machine.exec_last
    (show ((machine inMemory).exec (begin sampleHost sampleJobs []) askedFirst).isSome = true by decide +kernel)
  have sound : SoundStore inMemory [] := .unwritten fun _ => rfl
  have loaded : EventStore.loadAsync inMemory ((machine inMemory).last (begin sampleHost sampleJobs [])
    askedFirst).shared 1 none = .ok (some _) := rfl
  have added := @balances_add_up _ _ _ inMemory sampleHost sampleJobs _ _ _ inMemory_lawful
    (begin_begun sampleHost sampleJobs sound) (Machine.exec_runs _ _ _ _ reached) 1 none _ rfl loaded
  exact ⟨_, _, reached, loaded, added.1, added.2.1⟩

end Service

end Yoomoney
