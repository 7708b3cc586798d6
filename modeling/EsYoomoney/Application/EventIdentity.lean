import EsYoomoney.Library.UniqueTags
import EsYoomoney.Application.Batches

namespace Yoomoney

open EventSourcing DomainEvents BankAccountAggregate

def EventIdsUnique {Db : Type} (store : IDocumentStore Db) (db : Db) : Prop :=
  UniqueTags (fun event => some event.eventId) (store.stream db)

/-- The creation and the deposit of one invoice. -/
def Twins (first second : Event) : Prop :=
  ∃ invoice, (first.createdInvoice = some invoice ∧ second.depositedInvoice = some invoice) ∨
    (first.depositedInvoice = some invoice ∧ second.createdInvoice = some invoice)

def shareInvoice (first second : Event) : Bool :=
  (first.createdInvoice.isSome && first.createdInvoice = second.depositedInvoice) ||
    (first.depositedInvoice.isSome && first.depositedInvoice = second.createdInvoice)

theorem Twins.shareInvoice {first second : Event} (twins : Twins first second) :
    shareInvoice first second = true := by
  rcases twins with ⟨invoice, ⟨created, deposited⟩ | ⟨deposited, created⟩⟩ <;>
    simp [Yoomoney.shareInvoice, created, deposited]

namespace Batch

variable {host : Host} {job : Job} {calls : List (Exchange Call Answer Exception)} {paymentId accountId : Guid}
  {base pending : List Event}

inductive About (host : Host) : Job → List (Exchange Call Answer Exception) → Guid → Event → Prop where
  | created {request openedAt createdAt calls payment paymentId url event}
      (created : ⟨CreateInvoiceCommand.creation host request, .ok payment⟩ ∈ calls)
      (read : YoomoneyInvoiceService.result host payment = .ok (paymentId, url))
      (tag : event.createdInvoice = some paymentId) :
      About host (.createInvoice request openedAt createdAt) calls paymentId event
  | notified {request occuredAt calls paymentId event} (parsed : Guid.parse request.invoice.id = .ok paymentId)
      (tag : event.depositedInvoice = some paymentId) :
      About host (.invoiceStatusChanged request occuredAt) calls paymentId event

theorem eventId (batch : Batch host job calls paymentId accountId base pending) {event : Event}
    (member : event ∈ pending) :
    (event.eventId = accountId ∧ base = []) ∨ (event.eventId = paymentId ∧ About host job calls paymentId event) := by
  cases batch with
  | opening created read =>
    simp only [List.mem_cons, List.not_mem_nil, or_false] at member
    rcases member with rfl | rfl
    · exact Or.inl ⟨rfl, rfl⟩
    · exact Or.inr ⟨rfl, .created created read rfl⟩
  | further created read present =>
    cases List.mem_singleton.mp member
    exact Or.inr ⟨rfl, .created created read rfl⟩
  | crediting parsed named priced present =>
    cases List.mem_singleton.mp member
    exact Or.inr ⟨rfl, .notified parsed rfl⟩

end Batch

def createdId : Exchange Call Answer Exception → Option Guid
  | ⟨.createPayment _, .ok payment⟩ => (Guid.parse payment.id).toOption
  | _ => none

theorem createdId_creation {host : Host} {request : CreateInvoiceCommand.Request} {payment : Payment}
    {paymentId : Guid} {url : Uri} (read : YoomoneyInvoiceService.result host payment = .ok (paymentId, url)) :
    createdId ⟨CreateInvoiceCommand.creation host request, .ok payment⟩ = some paymentId := by
  simp [createdId, YoomoneyInvoiceService.result_id read, Except.toOption]

theorem createdId_respond {Db : Type} {store : IDocumentStore Db} {db : Db} {call : Call}
    {reply : Except Exception Payment} {paymentId : Guid}
    (created : createdId ⟨call, (respond store db call reply).1⟩ = some paymentId) :
    ∃ newPayment payment, call = .createPayment newPayment ∧ reply = .ok payment ∧
      Guid.parse payment.id = .ok paymentId := by
  cases call with
  | createPayment newPayment =>
    cases reply with
    | error error => cases created
    | ok payment =>
      refine ⟨newPayment, payment, rfl, rfl, ?_⟩
      simp only [respond, createdId] at created
      cases parsed : Guid.parse payment.id with
      | error error =>
        rw [parsed] at created
        cases created
      | ok id =>
        rw [parsed] at created
        cases created
        rfl
  | existsAsync eventId => cases created
  | loadAsync id version => cases created
  | storeAsync account => cases created

def thirdPayment : Payment := { samplePayment with id := some "00000000-0000-0000-0000-000000000009" }

namespace Service

variable {Db ι : Type} {store : IDocumentStore Db} {host : Host} {jobs : ι → Job} {start service after : Service Db ι}

structure NotifiedOnce (jobs : ι → Job) : Prop where
  once : ∀ {run other request occuredAt otherRequest otherAt eventId},
    jobs run = .invoiceStatusChanged request occuredAt → jobs other = .invoiceStatusChanged otherRequest otherAt →
    Guid.parse request.invoice.id = .ok eventId → Guid.parse otherRequest.invoice.id = .ok eventId → run = other
  apart : ∀ {run request occuredAt eventId}, jobs run = .invoiceStatusChanged request occuredAt →
    Guid.parse request.invoice.id = .ok eventId → ¬ IsAccount jobs eventId

/-- The provider gives a payment an id that it has not given before and that is no account's. -/
def FreshPayment (jobs : ι → Job) (service : Service Db ι) (label : ι × Except Exception Payment) : Prop :=
  ∀ newPayment next payment paymentId, service.thread label.1 = .call (.createPayment newPayment) next →
    label.2 = .ok payment → Guid.parse payment.id = .ok paymentId →
    ¬ IsAccount jobs paymentId ∧ ∀ entry ∈ service.trace, createdId entry.2 ≠ some paymentId

/-- A store call finds no twin of the events it brings. -/
def TwinFree (store : IDocumentStore Db) (service : Service Db ι) (label : ι × Except Exception Payment) : Prop :=
  ∀ account next, service.thread label.1 = .call (.storeAsync account) next →
    ∀ event ∈ account.getUncommittedEvents, ∀ id, ∀ old ∈ store.stream service.shared id, ¬ Twins event old

variable [DecidableEq ι] {labels : List (ι × Except Exception Payment)}
  {allowed : Service Db ι → ι × Except Exception Payment → Prop}

structure DistinctPayments (jobs : ι → Job) (trace : Trace ι) : Prop where
  once : ∀ first ∈ trace, ∀ second ∈ trace, ∀ paymentId, createdId first.2 = some paymentId →
    createdId second.2 = some paymentId → first.1 = second.1
  apart : ∀ entry ∈ trace, ∀ paymentId, createdId entry.2 = some paymentId → ¬ IsAccount jobs paymentId

theorem distinctPayments (begun : start.trace = [])
    (fresh : ∀ service label, allowed service label → FreshPayment jobs service label)
    (runs : (machine store).Runs allowed start labels service) : DistinctPayments jobs service.trace := by
  induction runs with
  | refl =>
    rw [begun]
    exact ⟨by simp, by simp⟩
  | @step labels before label final past permitted taken ih =>
    rcases Pool.step_eq taken with ⟨call, next, waiting, rfl⟩
    have new : ∀ paymentId, createdId ⟨call, (respond store before.shared call label.2).1⟩ = some paymentId →
        ¬ IsAccount jobs paymentId ∧ ∀ entry ∈ before.trace, createdId entry.2 ≠ some paymentId := by
      intro paymentId created
      rcases createdId_respond created with ⟨newPayment, payment, rfl, replied, parsed⟩
      exact fresh before label permitted newPayment next payment paymentId waiting replied parsed
    constructor
    · intro first here second there paymentId firstId secondId
      rcases List.mem_append.mp here with old | last
      · rcases List.mem_append.mp there with older | latest
        · exact ih.once first old second older paymentId firstId secondId
        · rw [List.mem_singleton.mp latest] at secondId
          exact absurd firstId ((new paymentId secondId).2 first old)
      · rw [List.mem_singleton.mp last] at firstId ⊢
        rcases List.mem_append.mp there with older | latest
        · exact absurd secondId ((new paymentId firstId).2 second older)
        · rw [List.mem_singleton.mp latest]
    · intro entry member paymentId created
      rcases List.mem_append.mp member with old | last
      · exact ih.apart entry old paymentId created
      · rw [List.mem_singleton.mp last] at created
        exact (new paymentId created).1

section Runs

variable {run other : ι} {calls otherCalls : List (Exchange Call Answer Exception)} {paymentId : Guid}
  {event old : Event}

theorem about_apart (notified : NotifiedOnce jobs) (distinct : DistinctPayments jobs service.trace)
    (mine : ∀ exchange ∈ calls, exchange ∈ callsOf service.trace run)
    (about : Batch.About host (jobs run) calls paymentId event) : ¬ IsAccount jobs paymentId := by
  generalize job : jobs run = performed at about
  cases about with
  | created created read tag =>
    exact distinct.apart _ (mem_callsOf.mp (mine _ created)) paymentId (createdId_creation read)
  | notified parsed tag => exact notified.apart job parsed

theorem about_same (notified : NotifiedOnce jobs) (distinct : DistinctPayments jobs service.trace)
    (mine : ∀ exchange ∈ calls, exchange ∈ callsOf service.trace run)
    (theirs : ∀ exchange ∈ otherCalls, exchange ∈ callsOf service.trace other)
    (about : Batch.About host (jobs run) calls paymentId event)
    (otherAbout : Batch.About host (jobs other) otherCalls paymentId old) : run = other ∨ Twins event old := by
  generalize job : jobs run = performed at about
  generalize otherJob : jobs other = otherPerformed at otherAbout
  cases about with
  | created created read tag =>
    cases otherAbout with
    | created otherCreated otherRead otherTag =>
      exact Or.inl (distinct.once _ (mem_callsOf.mp (mine _ created)) _ (mem_callsOf.mp (theirs _ otherCreated))
        paymentId (createdId_creation read) (createdId_creation otherRead))
    | notified otherParsed otherTag => exact Or.inr ⟨paymentId, Or.inl ⟨tag, otherTag⟩⟩
  | notified parsed tag =>
    cases otherAbout with
    | created otherCreated otherRead otherTag => exact Or.inr ⟨paymentId, Or.inr ⟨tag, otherTag⟩⟩
    | notified otherParsed otherTag => exact Or.inl (notified.once job otherJob parsed otherParsed)

end Runs

theorem Commit.fresh (lawful : store.Lawful) (begun : Begun store host jobs start)
    (unwritten : ∀ id, store.stream start.shared id = []) (notified : NotifiedOnce jobs)
    (runs : (machine store).Runs allowed start labels service)
    (distinct : DistinctPayments jobs service.trace) {run : ι} {account : BankAccountAggregate}
    {paymentId : Guid} {earlier between : Trace ι} {pending : List Event}
    (commit : Commit store host jobs start service after run account paymentId earlier between pending)
    (apart : ∀ event ∈ pending, ∀ id, ∀ old ∈ store.stream service.shared id, ¬ Twins event old) :
    ∀ event ∈ pending, ∀ id, ∀ old ∈ store.stream service.shared id, old.eventId ≠ event.eventId := by
  intro event member id old stored same
  rcases stored_event lawful begun runs stored with initial | ⟨other, calls, otherPayment, base, otherPending,
    theirs, otherBatch, otherMember, exchange, called, wrote⟩
  · rw [unwritten id] at initial
    cases initial
  have account := commit.batch.account
  have otherAccount := otherBatch.account
  -- an id is the account's own (an opening) or a payment's, for the new event and for the old one
  rcases commit.batch.eventId member with ⟨opened, missing⟩ | ⟨paid, about⟩
  · rcases otherBatch.eventId otherMember with ⟨otherOpened, -⟩ | ⟨otherPaid, otherAbout⟩
    · have sameStream := otherOpened.symm.trans (same.trans opened)
      subst sameStream
      rw [missing] at stored
      cases stored
    · have isAccount : otherPayment = _ := otherPaid.symm.trans (same.trans opened)
      exact about_apart notified distinct theirs otherAbout ⟨run, by rw [isAccount]; exact account⟩
  · rcases otherBatch.eventId otherMember with ⟨otherOpened, -⟩ | ⟨otherPaid, otherAbout⟩
    · have isAccount : paymentId = id := paid.symm.trans (same.symm.trans otherOpened)
      exact about_apart notified distinct (fun _ inside => inside) about ⟨other, by rw [isAccount]; exact otherAccount⟩
    · have samePayment : otherPayment = paymentId := otherPaid.symm.trans (same.trans paid)
      subst samePayment
      rcases about_same notified distinct (fun _ inside => inside) theirs about otherAbout with rfl | twins
      · exact wrote (commit.storing.first exchange called id)
      · exact apart event member id old stored twins

/-- Runs whose store calls never bring the twin of a stored event keep the event ids unique, however they
    interleave: openings, creations among themselves and deposits among themselves never share one. -/
theorem event_ids_unique (lawful : store.Lawful) (begun : Begun store host jobs start)
    (unwritten : ∀ id, store.stream start.shared id = []) (notified : NotifiedOnce jobs)
    (runs : (machine store).Runs (fun service label => FreshPayment jobs service label ∧ TwinFree store service label)
      start labels service) : EventIdsUnique store service.shared := by
  induction runs with
  | refl => exact .of_empty unwritten
  | step past permitted taken ih =>
    have rooted := (sound lawful begun past).rooted
    rcases step_streams lawful begun past rooted taken with same | ⟨account, next, _, _, _, pending, waiting, commit⟩
    · have unchanged : store.stream _ = store.stream _ := funext same
      unfold EventIdsUnique
      rw [unchanged]
      exact ih
    have distinct := distinctPayments begun.trace (fun _ _ promised => promised.1) past
    have apart := permitted.2 account next waiting
    rw [commit.storing.uncommitted] at apart
    have fresh := commit.fresh lawful begun unwritten notified past distinct apart
    apply ih.append commit.stream commit.frame
    · apply (List.pairwise_map.mp commit.distinct).imp
      intro first second different name firstId secondId
      exact different (Option.some.inj (firstId.trans secondId.symm))
    · intro event member name eventId id old stored oldId
      exact fresh event member id old stored (Option.some.inj (oldId.trans eventId.symm))

theorem sampleJobs_notifiedOnce : NotifiedOnce sampleJobs where
  once := by
    intro run other request occuredAt otherRequest otherAt eventId job otherJob parsed otherParsed
    cases run with
    | true => cases job
    | false =>
      cases other with
      | true => cases otherJob
      | false => rfl
  apart := by
    intro run request occuredAt eventId job parsed account
    cases run with
    | true => cases job
    | false =>
      cases job
      cases parsed
      rcases account with ⟨other, named⟩
      cases other with
      | true => cases named
      | false => cases named

/-- Two invoices of an account, and the payment of a third that somebody else has created. -/
def threePayments : Fin 3 → Job
  | 0 => .createInvoice ⟨1, sampleAmount.value⟩ 0 1
  | 1 => .createInvoice ⟨1, sampleAmount.value⟩ 2 3
  | 2 => .invoiceStatusChanged ⟨thirdPayment⟩ 4

theorem threePayments_account {id : Guid} (account : IsAccount threePayments id) : id = 1 := by
  rcases account with ⟨run, named⟩
  match run with
  | 0 | 1 | 2 =>
    cases named
    rfl

theorem threePayments_notifiedOnce : NotifiedOnce threePayments where
  once := by
    intro run other request occuredAt otherRequest otherAt eventId job otherJob parsed otherParsed
    match run with
    | 0 | 1 => cases job
    | 2 =>
      match other with
      | 0 | 1 => cases otherJob
      | 2 => rfl
  apart := by
    intro run request occuredAt eventId job parsed account
    have own := threePayments_account account
    subst own
    match run with
    | 0 | 1 => cases job
    | 2 =>
      cases job
      cases parsed

def isNew (service : Service (List (Guid × Event)) (Fin 3)) (reply : Except Exception Payment) : Call → Bool
  | .createPayment newPayment => (createdId ⟨.createPayment newPayment, reply⟩).all fun paymentId =>
      paymentId ≠ 1 && service.trace.all fun entry => createdId entry.2 ≠ some paymentId
  | .storeAsync account => account.getUncommittedEvents.all fun event =>
      service.shared.all fun entry => !shareInvoice event entry.2
  | _ => true

/-- The call that a run waits for brings no id that there is already. -/
def BringsNew (service : Service (List (Guid × Event)) (Fin 3)) (label : Fin 3 × Except Exception Payment) : Prop :=
  (service.thread label.1).Awaits (isNew service label.2 · = true)

instance (service : Service (List (Guid × Event)) (Fin 3)) (label : Fin 3 × Except Exception Payment) :
    Decidable (BringsNew service label) :=
  inferInstanceAs (Decidable ((service.thread label.1).Awaits (isNew service label.2 · = true)))

theorem BringsNew.fresh {service : Service (List (Guid × Event)) (Fin 3)} {label : Fin 3 × Except Exception Payment}
    (new : BringsNew service label) : FreshPayment threePayments service label := by
  intro newPayment next payment paymentId waiting replied parsed
  have created : createdId ⟨.createPayment newPayment, label.2⟩ = some paymentId := by
    simp [createdId, replied, parsed, Except.toOption]
  have unused := new.called waiting
  simp only [isNew, created, Option.all_some, Bool.and_eq_true, List.all_eq_true, decide_eq_true_eq] at unused
  exact ⟨fun account => unused.1 (threePayments_account account), unused.2⟩

theorem BringsNew.twinFree {service : Service (List (Guid × Event)) (Fin 3)}
    {label : Fin 3 × Except Exception Payment} (new : BringsNew service label) : TwinFree inMemory service label := by
  intro account next waiting event pending id old stored
  rcases List.mem_map.mp stored with ⟨entry, kept, rfl⟩
  have unlike := new.called waiting
  simp only [isNew, List.all_eq_true, Bool.not_eq_true'] at unlike
  intro twins
  have apart := unlike event pending entry (List.mem_of_mem_filter kept)
  rw [twins.shareInvoice] at apart
  cases apart

def threePaymentsInTurn : List (Fin 3 × Except Exception Payment) :=
  [(0, .ok samplePayment), (1, .ok otherPayment)] ++ [0, 0, 2, 1, 1, 2, 2].map (·, .ok thirdPayment)

theorem three_payments_ids_unique :
    ∃ service, (machine inMemory).exec (begin sampleHost threePayments []) threePaymentsInTurn = some service ∧
      (inMemory.stream service.shared 1).map Event.eventId = [1, 7, 8, 9] ∧ EventIdsUnique inMemory service.shared := by
  have sound : SoundStore inMemory [] := .unwritten fun _ => rfl
  have reached := Machine.exec_last (show ((machine inMemory).exec (begin sampleHost threePayments [])
    threePaymentsInTurn).isSome = true by decide +kernel)
  have permits : (machine inMemory).Permits BringsNew (begin sampleHost threePayments []) threePaymentsInTurn := by
    decide +kernel
  have runs := (Machine.permitted_runs permits reached).mono fun service label new =>
    show FreshPayment threePayments service label ∧ TwinFree inMemory service label from ⟨new.fresh, new.twinFree⟩
  exact ⟨_, reached, by decide +kernel, event_ids_unique inMemory_lawful (begin_begun sampleHost threePayments sound)
    (fun _ => rfl) threePayments_notifiedOnce runs⟩

theorem paid_invoice_repeats_event_id :
    ∃ service, (machine inMemory).exec (begin sampleHost sampleJobs []) oneAfterTheOther = some service ∧
      NotifiedOnce sampleJobs ∧ service.trace.filterMap (createdId ·.2) = [7] ∧ ¬ IsAccount sampleJobs 7 ∧
      ¬ EventIdsUnique inMemory service.shared := by
  refine ⟨_, rfl, sampleJobs_notifiedOnce, rfl, ?_, fun unique => ?_⟩
  · intro account
    rcases account with ⟨other, named⟩
    cases other <;> cases named
  · have same := unique 1 1 1 2 _ _ 7 rfl rfl rfl rfl
    exact absurd same.2 (by decide)

end Service

end Yoomoney
