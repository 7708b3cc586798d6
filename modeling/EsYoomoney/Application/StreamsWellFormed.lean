import EsYoomoney.Application.Batches

namespace Yoomoney

open EventSourcing DomainEvents BankAccountAggregate

structure WellFormed (id : Guid) (events : List Event) : Prop where
  opening : ∃ occuredAt rest, events = .accountBalanceInitializedTo id occuredAt :: rest ∧
    ∀ event ∈ rest, event.opensAccount = false
  carried : ∀ event ∈ events, event.streamId = id

theorem balanceAfter_deposits (balance : Decimal) {events : List Event}
    (kept : ∀ event ∈ events, event.withdraws = false) :
    balanceAfter balance events = Decimal.sumFrom balance (events.filterMap Event.depositedAmount) := by
  induction events generalizing balance with
  | nil => rfl
  | cons event events ih =>
    rcases List.forall_mem_cons.mp kept with ⟨here, rest⟩
    cases event with
    | accountBalanceInitializedTo accountId occuredAt => exact ih balance rest
    | invoiceCreatedDomainEvent invoiceId accountId amount occuredAt => exact ih balance rest
    | moneyDepositedDomainEvent invoiceId accountId amount currency metadata occuredAt =>
      simp only [balanceAfter, Event.post, List.filterMap_cons, Event.depositedAmount, Decimal.sumFrom, Bind.bind]
      cases balance.add amount with
      | error error => rfl
      | ok next => exact ih next rest
    | moneyWithdrawnDomainEvent operationId accountId amount occuredAt => cases here

namespace Batch

variable {host : Host} {job : Job} {calls : List (Exchange Call Answer Exception)} {paymentId accountId : Guid}
  {base pending : List Event}

theorem withdraws (batch : Batch host job calls paymentId accountId base pending) :
    ∀ event ∈ pending, event.withdraws = false := by
  cases batch <;> simp [Event.withdraws]

theorem wellFormed (batch : Batch host job calls paymentId accountId base pending)
    (formed : base ≠ [] → WellFormed accountId base) : WellFormed accountId (base ++ pending) := by
  have extended : base ≠ [] → (∀ event ∈ pending, event.opensAccount = false) →
      WellFormed accountId (base ++ pending) := by
    intro present closed
    rcases formed present with ⟨⟨occuredAt, rest, same, single⟩, carried⟩
    refine ⟨⟨occuredAt, rest ++ pending, by rw [same]; rfl, ?_⟩, ?_⟩
    · intro event member
      exact (List.mem_append.mp member).elim (single event) (closed event)
    · intro event member
      exact (List.mem_append.mp member).elim (carried event) (batch.carried event)
  cases batch with
  | opening created read =>
    exact ⟨⟨_, _, rfl, by simp [Event.opensAccount]⟩, by simp [Event.streamId]⟩
  | further created read present => exact extended present (by simp [Event.opensAccount])
  | crediting parsed named priced present => exact extended present (by simp [Event.opensAccount])

end Batch

namespace Service

variable {Db ι : Type} [DecidableEq ι] {store : IDocumentStore Db} {host : Host} {jobs : ι → Job}
  {start service : Service Db ι} {allowed : Service Db ι → ι × Except Exception Payment → Prop}
  {labels : List (ι × Except Exception Payment)}

theorem wellFormed (lawful : store.Lawful) (begun : Begun store host jobs start)
    (unwritten : ∀ id, store.stream start.shared id = [])
    (runs : (machine store).Runs allowed start labels service) :
    (∀ id, store.stream service.shared id ≠ [] → WellFormed id (store.stream service.shared id)) ∧
      ∀ id, ∀ event ∈ store.stream service.shared id, event.withdraws = false := by
  induction runs with
  | refl =>
    refine ⟨fun id present => absurd (unwritten id) present, fun id event member => ?_⟩
    rw [unwritten id] at member
    cases member
  | step past permitted taken ih =>
    have rooted := (sound lawful begun past).rooted
    rcases step_streams lawful begun past rooted taken with same | ⟨account, _, _, _, _, pending, -, commit⟩
    · simpa only [same] using ih
    constructor
    · intro id present
      by_cases own : id = account.id
      · subst own
        rw [commit.stream]
        exact commit.batch.wellFormed (ih.1 _)
      · rw [commit.frame id own] at present ⊢
        exact ih.1 id present
    · intro id event member
      by_cases own : id = account.id
      · subst own
        rw [commit.stream] at member
        exact (List.mem_append.mp member).elim (ih.2 _ event) (commit.batch.withdraws event)
      · rw [commit.frame id own] at member
        exact ih.2 id event member

/-- Whatever the handlers do, in whatever order: a stream with events is well formed and loads as an
    account of its id and length whose balance is the sum of its deposits. -/
theorem streams_well_formed (lawful : store.Lawful) (begun : Begun store host jobs start)
    (unwritten : ∀ id, store.stream start.shared id = [])
    (runs : (machine store).Runs Machine.anyStep start labels service) {id : Guid}
    (present : store.stream service.shared id ≠ []) :
    WellFormed id (store.stream service.shared id) ∧
    ∃ account, EventStore.loadAsync store service.shared id none = .ok (some account) ∧ account.id = id ∧
      account.version = (store.stream service.shared id).length ∧
      let amounts := (store.stream service.shared id).filterMap Event.depositedAmount
      Decimal.sumFrom Decimal.zero amounts = .ok account.balance ∧
      ((∀ count, decimalFormat.Representable ((amounts.take count).map (·.units)).sum) →
        account.balance.units = (amounts.map (·.units)).sum) := by
  rcases wellFormed lawful begun unwritten runs with ⟨formed, kept⟩
  have whole := sound lawful begun runs
  refine ⟨formed id present, ?_⟩
  rcases whole.loads id with ⟨loaded, aggregation⟩
  cases loaded with
  | none => exact absurd ((aggregated_none_iff _).mp aggregation) present
  | some account =>
    rcases aggregated_live aggregation (whole.rooted id) with ⟨live, -, identified⟩
    have summed := live.balance
    rw [List.append_nil, balanceAfter_deposits Decimal.zero (kept id)] at summed
    refine ⟨account, ?_, identified, ?_, summed, ?_⟩
    · rw [lawful.loadAsync_eq]
      exact aggregation
    · simpa using live.version
    · intro representable
      have zero : Decimal.zero.units = 0 := rfl
      have exact := Decimal.sumFrom_units summed (by simpa [zero] using representable)
      simpa [zero] using exact

theorem paid_stream_well_formed :
    ∃ service account, (machine inMemory).exec (begin sampleHost sampleJobs []) oneAfterTheOther = some service ∧
      WellFormed 1 (inMemory.stream service.shared 1) ∧
      EventStore.loadAsync inMemory service.shared 1 none = .ok (some account) ∧ account.version = 3 := by
  have runs := Machine.exec_runs (machine inMemory) (begin sampleHost sampleJobs []) oneAfterTheOther _ rfl
  have sound : SoundStore inMemory [] := .unwritten fun _ => rfl
  have begun := begin_begun sampleHost sampleJobs sound
  obtain ⟨formed, account, loaded, -, version, -⟩ := streams_well_formed inMemory_lawful begun
    (fun _ => rfl) runs (show inMemory.stream _ 1 ≠ [] by decide +kernel)
  exact ⟨_, account, rfl, formed, loaded, version⟩

end Service

end Yoomoney
