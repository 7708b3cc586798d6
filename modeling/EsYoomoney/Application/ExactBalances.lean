import EsYoomoney.Application.Contention

namespace Yoomoney

open EventSourcing DomainEvents BankAccountAggregate

abbrev Whole (places : Nat) (units : Int) : Prop := (10 ^ places : Int) ∣ units

/-- How much money has been moved in and out. -/
def turnover (events : List Event) : Nat := (events.map (·.change.natAbs)).sum

def capacity (places : Nat) : Nat := 2 ^ 96 * 10 ^ places

theorem net_le_turnover (events : List Event) : (net events).natAbs ≤ turnover events := by
  induction events with
  | nil => exact Nat.le_refl 0
  | cons event events ih =>
    have sum : net (event :: events) = event.change + net events := rfl
    have total : turnover (event :: events) = event.change.natAbs + turnover events := rfl
    omega

theorem turnover_initial {earlier later : List Event} (initial : earlier <+: later) :
    turnover earlier ≤ turnover later := by
  rcases initial with ⟨rest, rfl⟩
  rw [turnover, turnover, List.map_append, List.sum_append]
  exact Nat.le_add_right _ _

theorem net_whole {places : Nat} {events : List Event} (whole : ∀ event ∈ events, Whole places event.change) :
    Whole places (net events) := by
  induction events with
  | nil => exact Int.dvd_zero _
  | cons event events ih =>
    rcases List.forall_mem_cons.mp whole with ⟨first, rest⟩
    exact Int.dvd_add first (ih rest)

/-- Below the capacity the appliers neither round nor overflow. -/
theorem balanceAfter_exact {places : Nat} (within : places ≤ 28) {balance : Decimal} {events : List Event}
    (start : Whole places balance.units) (whole : ∀ event ∈ events, Whole places event.change)
    (bounded : balance.units.natAbs + turnover events < capacity places) :
    ∃ final, balanceAfter balance events = .ok final ∧ final.units = balance.units + net events := by
  induction events generalizing balance with
  | nil => exact ⟨balance, rfl, (Int.add_zero _).symm⟩
  | cons event events ih =>
    rcases List.forall_mem_cons.mp whole with ⟨first, rest⟩
    have total : turnover (event :: events) = event.change.natAbs + turnover events := rfl
    have sum : net (event :: events) = event.change + net events := rfl
    have next : Whole places (balance.units + event.change) := Int.dvd_add start first
    have fits : decimalFormat.Representable (balance.units + event.change) := by
      apply decimalFormat.representable_of_dvd within next
      unfold capacity at bounded
      dsimp only
      omega
    have posted := Event.post_exact fits
    obtain ⟨final, after, units⟩ := @ih ⟨_, fits⟩ next rest (by dsimp only; omega)
    refine ⟨final, ?_, by rw [units, sum, Int.add_assoc]⟩
    rw [balanceAfter, posted]
    exact after

theorem aggregated_exact {places : Nat} (within : places ≤ 28) {events : List Event} {account : BankAccountAggregate}
    (loaded : aggregated events = .ok (some account)) (whole : ∀ event ∈ events, Whole places event.change)
    (bounded : turnover events < capacity places) : account.balance.units = net events := by
  have balance := (Live.loaded (aggregated_some loaded).1).balance
  rw [List.append_nil] at balance
  obtain ⟨final, after, units⟩ := @balanceAfter_exact places within Decimal.zero events (Int.dvd_zero _) whole
    (by simpa [Decimal.zero, DecimalFormat.Value.zero] using bounded)
  cases balance.symm.trans after
  rw [units]
  exact Int.zero_add _

theorem construct_perform (operation : Operation) (occuredAt : DateTime) (account : BankAccountAggregate) :
    construct (operation.perform occuredAt) account =
      ((operation.event account.id occuredAt).post account.balance).map
        (account.recorded (operation.event account.id occuredAt)) := by
  unfold construct
  rw [perform_run]
  cases (operation.event account.id occuredAt).post account.balance <;> rfl

/-- A deposit that keeps below the capacity goes through. -/
theorem deposit_exact {places : Nat} (within : places ≤ 28) {base : List Event} {loaded : BankAccountAggregate}
    (aggregation : aggregated base = .ok (some loaded)) (whole : ∀ event ∈ base, Whole places event.change)
    {amount : Decimal} (priced : Whole places amount.units)
    (bounded : turnover base + amount.units.natAbs < capacity places) (invoiceId : Guid) (currency : String)
    (metadata : Payment) (occuredAt : DateTime) :
    ∃ account, construct (deposit invoiceId amount currency metadata occuredAt) loaded = .ok account := by
  have units := aggregated_exact within aggregation whole (by omega)
  have small := net_le_turnover base
  have fits : decimalFormat.Representable (loaded.balance.units + amount.units) := by
    rw [units]
    apply decimalFormat.representable_of_dvd within (Int.dvd_add (net_whole whole) priced)
    unfold capacity at bounded
    dsimp only
    omega
  have ran := construct_perform (.deposit invoiceId amount currency metadata) occuredAt loaded
  have posted : ((Operation.deposit invoiceId amount currency metadata).event loaded.id occuredAt).post loaded.balance =
      .ok ⟨loaded.balance.units + amount.units, fits⟩ := Decimal.add_exact fits
  rw [posted] at ran
  exact ⟨_, ran⟩

namespace InvoiceStatusChangedEvent

/-- A run that has loaded its account goes on to store it if the deposit on it goes through. -/
theorem goes_on {occuredAt : DateTime} {request : Event} {eventId accountId : Guid} {amount : Amount}
    {loaded account : BankAccountAggregate} {left : Handler Unit}
    (follows : (handle occuredAt request).Follows
      [⟨.existsAsync eventId, .ok false⟩, ⟨.loadAsync accountId none, .ok (some loaded)⟩] left)
    (priced : request.invoice.amount = some amount)
    (performed : construct (deposit eventId amount.value amount.currency request.invoice occuredAt) loaded =
      .ok account) :
    ∃ next, left = .call (.storeAsync account) next := by
  unfold handle at follows
  rcases follows.of_ofExcept with ⟨error, -, none, -⟩ | ⟨parsedId, -, wellFormed⟩
  · cases none
  rcases wellFormed.of_perform with ⟨none, -⟩ | ⟨error, one, -⟩ | ⟨known, calls, both, asked⟩
  · cases none
  · cases one
  cases both
  rcases Program.Follows.of_ofExcept asked with ⟨error, -, none, -⟩ | ⟨namedId, -, addressed⟩
  · cases none
  rcases addressed.of_perform with ⟨none, -⟩ | ⟨error, one, -⟩ | ⟨found, calls, one, present⟩
  · cases none
  · cases one
  cases one
  dsimp only at present
  rw [priced] at present
  dsimp only at present
  rw [performed, Program.ofExcept_ok_bind, ← bind_pure (IEsEventStore.storeAsync account)] at present
  rcases present.of_perform with ⟨-, next, rfl⟩ | ⟨error, one, -⟩ | ⟨answer, calls, one, -⟩
  · exact ⟨next, rfl⟩
  · cases one
  · cases one

end InvoiceStatusChangedEvent

namespace Service

variable {Db ι : Type} [DecidableEq ι] {store : IDocumentStore Db} {host : Host} {jobs : ι → Job}
  {start service : Service Db ι} {allowed : Service Db ι → ι × Except Exception Payment → Prop}
  {labels : List (ι × Except Exception Payment)} {places : Nat}

/-- All amounts, of what is stored and of what is notified, are whole multiples of one decimal place. -/
structure WholeAmounts (store : IDocumentStore Db) (jobs : ι → Job) (db : Db) (places : Nat) : Prop where
  stored : ∀ id, ∀ event ∈ store.stream db id, Whole places event.change
  notified : ∀ run request occuredAt amount, jobs run = .invoiceStatusChanged request occuredAt →
    request.invoice.amount = some amount → Whole places amount.value.units

theorem streams_whole (lawful : store.Lawful) (begun : Begun store host jobs start)
    (whole : WholeAmounts store jobs start.shared places)
    (runs : (machine store).Runs allowed start labels service) (id : Guid) :
    ∀ event ∈ store.stream service.shared id, Whole places event.change := by
  intro event stored
  rcases stored_event lawful begun runs stored with
    initial | ⟨run, calls, paymentId, base, pending, -, batch, member, -⟩
  · exact whole.stored id event initial
  · generalize job : jobs run = request at batch
    cases batch with
    | opening created read =>
      simp only [List.mem_cons, List.not_mem_nil, or_false] at member
      rcases member with rfl | rfl <;> exact Int.dvd_zero _
    | further created read present =>
      cases List.mem_singleton.mp member
      exact Int.dvd_zero _
    | crediting parsed named priced present =>
      cases List.mem_singleton.mp member
      exact whole.notified run _ _ _ job priced

theorem loaded_goes_on (lawful : store.Lawful) (begun : Begun store host jobs start) (within : places ≤ 28)
    (whole : WholeAmounts store jobs start.shared places) (runs : (machine store).Runs allowed start labels service)
    {run : ι} {request : InvoiceStatusChangedEvent.Event} {occuredAt : DateTime}
    (job : jobs run = .invoiceStatusChanged request occuredAt) {id : Guid} {loaded : BankAccountAggregate}
    (called : ⟨.loadAsync id none, .ok (some loaded)⟩ ∈ callsOf service.trace run) {amount : Amount}
    (priced : request.invoice.amount = some amount)
    (bounded : turnover (store.stream service.shared id) + amount.value.units.natAbs < capacity places) :
    (∃ account next, service.thread run = .call (.storeAsync account) next) ∨
      ∃ account answer, ⟨.storeAsync account, answer⟩ ∈ callsOf service.trace run := by
  rcases List.append_of_mem (mem_callsOf.mp called) with ⟨earlier, later, split⟩
  have aggregation := (loads lawful begun.trace runs split).symm
  have initial : streamAt store start earlier id <+: store.stream service.shared id := by
    rw [streams lawful begun.trace runs, split, streamAt_append]
    exact List.prefix_append _ _
  have stored := streams_whole lawful begun whole runs id
  have less := turnover_initial initial
  have performed := deposit_exact within aggregation (fun event member => stored event (initial.subset member))
    (whole.notified run request occuredAt amount job priced) (by omega)
  rcases notification_follows begun runs job with ⟨left, followed, same⟩
  have stage := InvoiceStatusChangedEvent.handle_stage followed
  generalize recorded : callsOf service.trace run = calls at stage followed called
  cases stage with
  | priceless missing => cases priced.symm.trans missing
  | @overflowing eventId accountId other =>
    obtain ⟨account, deposited⟩ := performed eventId amount.currency request.invoice occuredAt
    have own : id = accountId ∧ loaded = other := by simpa using called
    rcases own with ⟨rfl, rfl⟩
    obtain ⟨next, waiting⟩ := InvoiceStatusChangedEvent.goes_on followed priced deposited
    cases waiting
  | storing credited => exact Or.inl ⟨_, _, by rw [same]; rfl⟩
  | refused credited => exact Or.inr ⟨_, _, List.mem_cons_of_mem _ (List.mem_cons_of_mem _ List.mem_cons_self)⟩
  | returned credited => exact Or.inr ⟨_, _, List.mem_cons_of_mem _ (List.mem_cons_of_mem _ List.mem_cons_self)⟩
  | _ => simp at called

/-- With amounts of a whole number of some decimal place, and as long as an account's turnover is below what its decimal
    can hold of that place, its balance is exactly what came in less what went out, and no deposit overflows. -/
theorem whole_amounts_exact (lawful : store.Lawful) (begun : Begun store host jobs start) (within : places ≤ 28)
    (whole : WholeAmounts store jobs start.shared places) (runs : (machine store).Runs allowed start labels service)
    (id : Guid) :
    (∀ account, EventStore.loadAsync store service.shared id none = .ok (some account) →
      turnover (store.stream service.shared id) < capacity places →
      account.balance.units = net (store.stream service.shared id)) ∧
    ∀ run request occuredAt amount loaded, jobs run = .invoiceStatusChanged request occuredAt →
      request.invoice.amount = some amount →
      (run, ⟨.loadAsync id none, .ok (some loaded)⟩) ∈ service.trace →
      turnover (store.stream service.shared id) + amount.value.units.natAbs < capacity places →
      (∃ account next, service.thread run = .call (.storeAsync account) next) ∨
        ∃ account answer, (run, ⟨.storeAsync account, answer⟩) ∈ service.trace := by
  constructor
  · intro account loaded bounded
    rw [lawful.loadAsync_eq, Option.getD_none, visible, if_pos rfl] at loaded
    exact aggregated_exact within loaded (streams_whole lawful begun whole runs id) bounded
  · intro run request occuredAt amount loaded job priced called bounded
    rcases loaded_goes_on lawful begun within whole runs job (mem_callsOf.mpr called) priced bounded with
      waiting | ⟨account, answer, stored⟩
    · exact Or.inl waiting
    · exact Or.inr ⟨account, answer, mem_callsOf.mp stored⟩

theorem sampleJobs_whole : WholeAmounts inMemory sampleJobs [] 26 := by
  refine ⟨fun _ _ member => (by cases member), ?_⟩
  intro run request occuredAt amount job priced
  cases run with
  | true => cases job
  | false =>
    cases job
    cases priced
    decide +kernel

theorem hundred_roubles_exact :
    ∃ service account, (machine inMemory).exec (begin sampleHost sampleJobs []) oneAfterTheOther = some service ∧
      EventStore.loadAsync inMemory service.shared 1 none = .ok (some account) ∧
      account.balance.units = 100 * 10 ^ 28 := by
  have reached := Machine.exec_last
    (show ((machine inMemory).exec (begin sampleHost sampleJobs []) oneAfterTheOther).isSome = true by decide +kernel)
  have sound : SoundStore inMemory [] := .unwritten fun _ => rfl
  have loaded : EventStore.loadAsync inMemory ((machine inMemory).last (begin sampleHost sampleJobs [])
    oneAfterTheOther).shared 1 none = .ok (some _) := rfl
  have exact := (whole_amounts_exact inMemory_lawful (begin_begun sampleHost sampleJobs sound) (by decide)
    sampleJobs_whole (Machine.exec_runs _ _ _ _ reached) 1).1 _ loaded (by decide +kernel)
  refine ⟨_, _, reached, loaded, exact.trans ?_⟩
  decide +kernel

end Service

end Yoomoney
