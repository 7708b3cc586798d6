import EsYoomoney.Library.UniqueTags
import EsYoomoney.Application.Batches

namespace Yoomoney

open EventSourcing DomainEvents BankAccountAggregate

def CreditedOnce {Db : Type} (store : IDocumentStore Db) (db : Db) : Prop :=
  UniqueTags Event.depositedInvoice (store.stream db)

def DepositsNamed {Db : Type} (store : IDocumentStore Db) (db : Db) (named : Guid → Guid) : Prop :=
  ∀ id, ∀ event ∈ store.stream db id, ∀ invoice, event.depositedInvoice = some invoice → named invoice = id

namespace Batch

variable {host : Host} {job : Job} {calls : List (Exchange Call Answer Exception)} {paymentId accountId : Guid}
  {base pending : List Event}

theorem deposited (batch : Batch host job calls paymentId accountId base pending) {event : Event} {invoice : Guid}
    (member : event ∈ pending) (deposited : event.depositedInvoice = some invoice) :
    ∃ request occuredAt, job = .invoiceStatusChanged request occuredAt ∧
      Guid.parse request.invoice.id = .ok invoice ∧
      Guid.parse request.invoice.merchantCustomerId = .ok accountId := by
  cases batch with
  | opening created read =>
    simp only [List.mem_cons, List.not_mem_nil, or_false] at member
    rcases member with rfl | rfl <;> cases deposited
  | further created read present =>
    cases List.mem_singleton.mp member
    cases deposited
  | @crediting request occuredAt _ _ _ _ _ parsed named priced present =>
    cases List.mem_singleton.mp member
    cases deposited
    exact ⟨request, occuredAt, rfl, parsed, named⟩

theorem deposits_once (batch : Batch host job calls paymentId accountId base pending) :
    pending.Pairwise fun first second =>
      ∀ invoice, first.depositedInvoice = some invoice → second.depositedInvoice ≠ some invoice := by
  cases batch with
  | opening created read => simp [Event.depositedInvoice]
  | further created read present => exact List.pairwise_singleton _ _
  | crediting parsed named priced present => exact List.pairwise_singleton _ _

end Batch

namespace Service

variable {Db ι : Type} {store : IDocumentStore Db} {host : Host} {jobs : ι → Job} {start service after : Service Db ι}

def NotificationsNamed (jobs : ι → Job) (named : Guid → Guid) : Prop :=
  ∀ run request occuredAt eventId accountId, jobs run = .invoiceStatusChanged request occuredAt →
    Guid.parse request.invoice.id = .ok eventId → Guid.parse request.invoice.merchantCustomerId = .ok accountId →
    named eventId = accountId

/-- When a notification run loads its account, no deposit of its invoice is in the stream. -/
def LoadsUncredited (store : IDocumentStore Db) (jobs : ι → Job) (service : Service Db ι)
    (label : ι × Except Exception Payment) : Prop :=
  ∀ request occuredAt eventId accountId next, jobs label.1 = .invoiceStatusChanged request occuredAt →
    Guid.parse request.invoice.id = .ok eventId → service.thread label.1 = .call (.loadAsync accountId none) next →
    ∀ event ∈ store.stream service.shared accountId, event.depositedInvoice ≠ some eventId

variable [DecidableEq ι] {labels : List (ι × Except Exception Payment)}

theorem Commit.credits (lawful : store.Lawful) (begun : start.trace = []) {named : Guid → Guid}
    (notified : NotificationsNamed jobs named)
    (runs : (machine store).Runs (LoadsUncredited store jobs) start labels service) {run : ι}
    {account : BankAccountAggregate} {paymentId : Guid} {earlier between : Trace ι} {pending : List Event}
    (commit : Commit store host jobs start service after run account paymentId earlier between pending)
    (once : CreditedOnce store service.shared) (placed : DepositsNamed store service.shared named) :
    CreditedOnce store after.shared ∧ DepositsNamed store after.shared named := by
  constructor
  · apply once.append commit.stream commit.frame commit.batch.deposits_once
    intro event member invoice deposited other old stored paid
    rcases commit.batch.deposited member deposited with ⟨request, occuredAt, job, parsed, addressed⟩
    by_cases own : other = account.id
    · subst own
      rcases commit.loading lawful begun runs with ⟨middle, choice, next, permitted, waiting, same⟩
      -- the accepted version froze the stream since the load, and the load saw no such deposit
      apply permitted request occuredAt invoice account.id next job parsed waiting old _ paid
      rw [same]
      exact stored
    · have mine := notified run request occuredAt invoice account.id job parsed addressed
      exact own ((placed other old stored invoice paid).symm.trans mine)
  · intro id event member invoice deposited
    by_cases own : id = account.id
    · subst own
      rw [commit.stream] at member
      rcases List.mem_append.mp member with stored | added
      · exact placed _ event stored invoice deposited
      · rcases commit.batch.deposited added deposited with ⟨request, occuredAt, job, parsed, addressed⟩
        exact notified run request occuredAt invoice account.id job parsed addressed
    · rw [commit.frame id own] at member
      exact placed id event member invoice deposited

/-- A run in which each notification loads its account before any deposit of its invoice is in the
    stream, and the notifications of one invoice name one account, never credits an invoice twice. -/
theorem credited_once (lawful : store.Lawful) (begun : Begun store host jobs start) {named : Guid → Guid}
    (notified : NotificationsNamed jobs named) (once : CreditedOnce store start.shared)
    (placed : DepositsNamed store start.shared named)
    (runs : (machine store).Runs (LoadsUncredited store jobs) start labels service) :
    CreditedOnce store service.shared ∧
      ∀ id, ((store.stream service.shared id).filterMap Event.depositedInvoice).Nodup := by
  have kept : CreditedOnce store service.shared ∧ DepositsNamed store service.shared named := by
    induction runs with
    | refl => exact ⟨once, placed⟩
    | step past permitted taken ih =>
      have rooted := (sound lawful begun past).rooted
      rcases step_streams lawful begun past rooted taken with same | ⟨account, _, _, _, _, pending, -, commit⟩
      · have unchanged : store.stream _ = store.stream _ := funext same
        unfold CreditedOnce DepositsNamed
        rw [unchanged]
        exact ih
      · exact commit.credits lawful begun.trace notified past ih.1 ih.2
  exact ⟨kept.1, kept.1.nodup⟩

def findsNothing {ι : Type} (service : Service (List (Guid × Event)) ι) : Call → Bool
  | .loadAsync _ _ => service.shared.all fun entry => entry.2.depositedInvoice.isNone
  | _ => true

/-- A run that waits for a load finds no deposits in the log. -/
def FindsNoDeposits {ι : Type} (service : Service (List (Guid × Event)) ι) (label : ι × Except Exception Payment) :
    Prop := (service.thread label.1).Awaits (findsNothing service · = true)

instance {ι : Type} (service : Service (List (Guid × Event)) ι) (label : ι × Except Exception Payment) :
    Decidable (FindsNoDeposits service label) :=
  inferInstanceAs (Decidable ((service.thread label.1).Awaits (findsNothing service · = true)))

theorem FindsNoDeposits.loads {ι : Type} {jobs : ι → Job} {service : Service (List (Guid × Event)) ι}
    {label : ι × Except Exception Payment} (finds : FindsNoDeposits service label) :
    LoadsUncredited inMemory jobs service label := by
  intro request occuredAt eventId accountId next job parsed waiting event member deposited
  rcases List.mem_map.mp member with ⟨entry, kept, rfl⟩
  have nothing := finds.called waiting
  simp only [findsNothing, List.all_eq_true, Option.isNone_iff_eq_none] at nothing
  rw [nothing entry (List.mem_of_mem_filter kept)] at deposited
  cases deposited

def redelivered : Nat → Job
  | 0 => sampleJobs true
  | _ => sampleJobs false

theorem redelivered_named : NotificationsNamed redelivered fun _ => 1 := by
  intro run request occuredAt eventId accountId job parsed addressed
  cases run with
  | zero => cases job
  | succ run =>
    cases job
    cases addressed
    rfl

/-- Two notifications of the invoice ask and load before either stores. -/
def redeliveredInTurns : List (Nat × Except Exception Payment) :=
  [0, 0, 0, 1, 2, 1, 2, 1, 2].map (·, .ok samplePayment)

theorem racing_notifications_credit_once :
    ∃ service, (machine inMemory).exec (begin sampleHost redelivered []) redeliveredInTurns = some service ∧
      CreditedOnce inMemory service.shared ∧
      (inMemory.stream service.shared 1).filterMap Event.depositedInvoice = [7] ∧
      ∃ account, (2, ⟨.storeAsync account, .error .concurrencyException⟩) ∈ service.trace := by
  have sound : SoundStore inMemory [] := .unwritten fun _ => rfl
  have reached := Machine.exec_last (show ((machine inMemory).exec (begin sampleHost redelivered [])
    redeliveredInTurns).isSome = true by decide +kernel)
  have permits : (machine inMemory).Permits FindsNoDeposits (begin sampleHost redelivered []) redeliveredInTurns := by
    decide +kernel
  have runs := (Machine.permitted_runs permits reached).mono fun service label finds =>
    show LoadsUncredited inMemory redelivered service label from finds.loads
  exact ⟨_, reached, (credited_once inMemory_lawful (begin_begun sampleHost redelivered sound) redelivered_named
    (.of_empty fun _ => rfl) (fun _ _ member => by cases member) runs).1, by decide +kernel, _,
    @List.mem_of_getElem? _ _ 8 _ rfl⟩

theorem redelivery_credits_twice :
    ∃ service account, (machine inMemory).exec (begin sampleHost redelivered [])
        ([0, 0, 0, 1, 1, 1, 2, 2, 2].map (·, .ok samplePayment)) = some service ∧
      EventStore.loadAsync inMemory service.shared 1 none = .ok (some account) ∧
      account.balance = Decimal.ofNat 200 (by decide) ∧ ¬ CreditedOnce inMemory service.shared := by
  refine ⟨_, _, rfl, rfl, by decide +kernel, fun once => ?_⟩
  have same := once 1 1 2 3 _ _ 7 rfl rfl rfl rfl
  exact absurd same.2 (by decide)

end Service

end Yoomoney
