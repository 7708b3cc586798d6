import EsYoomoney.Application.Ledger
import EsYoomoney.Library.Counting
import EsYoomoney.Messaging.CapturedCredits

namespace Yoomoney

open EventSourcing DomainEvents

def Event.credits (invoice : Guid) (event : Event) : Bool := event.depositedInvoice = some invoice

def Begun.pays (invoice : Guid) : Begun → Bool
  | createInvoice _ _ _ => false
  | published publication => Guid.parse publication.invoice.id = .ok invoice

theorem Job.entry_credits {host : Host} {begun : Begun} {calls : List (Exchange Call Answer Exception)} {event : Event}
    {invoice : Guid} (entered : begun.job.entry host calls = some event)
    (credits : Event.credits invoice event = true) : begun.pays invoice = true := by
  cases begun with
  | createInvoice request openedAt createdAt =>
    simp only [Begun.job, Job.entry, Option.bind_eq_bind, Option.bind_eq_some_iff] at entered
    rcases entered with ⟨payment, -, ⟨paymentId, url⟩, -, same⟩
    cases same
    simp [Event.credits, Event.depositedInvoice] at credits
  | published publication =>
    simp only [Begun.job, Job.entry, Option.bind_eq_bind, Option.bind_eq_some_iff] at entered
    rcases entered with ⟨eventId, parsed, accountId, -, amount, -, same⟩
    cases same
    have own : eventId = invoice := by simpa [Event.credits, Event.depositedInvoice] using credits
    subst own
    cases read : Guid.parse publication.invoice.id with
    | error error =>
      rw [read] at parsed
      cases parsed
    | ok parsedId =>
      rw [read] at parsed
      cases parsed
      simp [Begun.pays, read]

namespace Service

variable {Db ι : Type} [DecidableEq ι] {store : IDocumentStore Db} {host : Host} {jobs : ι → Job}
  {start service : Service Db ι} {allowed : Service Db ι → ι × Except Exception Payment → Prop}
  {labels : List (ι × Except Exception Payment)}

/-- What an account's stream holds of an invoice's deposits: those of the start, and those that runs have entered. -/
theorem deposits_counted (lawful : store.Lawful) (begun : Begun store host jobs start)
    (runs : (machine store).Runs allowed start labels service) (id invoice : Guid) :
    (store.stream service.shared id).countP (Event.credits invoice) =
      (store.stream start.shared id).countP (Event.credits invoice) +
        (recorded host jobs service.trace id).countP (Event.credits invoice) := by
  obtain ⟨opening, page, opens, -, -⟩ :=
    @posted_page _ _ host jobs service.trace (store.stream start.shared) id
  have uncounted : opening.countP (Event.credits invoice) = 0 := by
    rw [List.countP_eq_zero]
    intro event member
    have opened := opens event member
    cases event with
    | accountBalanceInitializedTo accountId occuredAt => simp [Event.credits, Event.depositedInvoice]
    | _ => cases opened
  rw [stream_posted lawful begun runs, page, List.countP_append, List.countP_append, uncounted, Nat.add_zero]

end Service

namespace Intake

variable {Db : Type} {store : IDocumentStore Db} {host : Host} {intake : Intake Db} {labels : List Label}
  {payments : List Payment} {db : Db} {origin : Nat → Begun} {allowed : Intake Db → Label → Prop}

/-- The handler runs behind the intake are a run of the service. -/
theorem served (runs : (machine store host).Runs allowed (start payments db) labels intake)
    (origins : Origins origin intake) :
    ∃ calls service, (Service.machine store).Runs Machine.anyStep (Service.begin host (jobs origin) db) calls service ∧
      Serves host origin intake service := by
  induction runs with
  | refl => exact ⟨[], _, .refl, .nothing db none⟩
  | step past permitted taken ih =>
    cases step_effect taken with
    | create => exact ih origins
    | advance => exact ih origins
    | notify => exact ih origins
    | receivePayment sent => exact ih origins
    | fetchPaymentsForCapture => exact ih origins
    | consume produced =>
      rcases ih origins.of_begin.1 with ⟨calls, service, served, serves⟩
      exact ⟨calls, service, served, serves.begin origins.of_begin.2⟩
    | publish fetched =>
      rcases ih origins.of_begin.1 with ⟨calls, service, served, serves⟩
      exact ⟨calls, service, served, serves.begin origins.of_begin.2⟩
    | createInvoice =>
      rcases ih origins.of_begin.1 with ⟨calls, service, served, serves⟩
      exact ⟨calls, service, served, serves.begin origins.of_begin.2⟩
    | call called =>
      rcases ih origins with ⟨calls, service, served, serves⟩
      rcases serves.step called with ⟨other, answered, after⟩
      exact ⟨_, other, served.step True.intro answered, after⟩

/-- Every deposit takes a publication of its own: of an invoice no more deposits are added, in all accounts together,
    than the webhook's consumer and the worker have published it, however often and in whatever order, and no handler
    run stores twice. -/
theorem credits_within_publications (lawful : store.Lawful) (sound : SoundStore store db)
    (runs : (machine store host).Runs Machine.anyStep (start payments db) labels intake) (accounts : Finset Guid)
    (invoice : Guid) :
    ∑ id ∈ accounts, (store.stream intake.service.shared id).countP (Event.credits invoice) ≤
      ∑ id ∈ accounts, (store.stream db id).countP (Event.credits invoice) + intake.begun.countP (Begun.pays invoice) ∧
    (Service.committed intake.service.trace).Nodup := by
  let nothing : Begun := .createInvoice ⟨Guid.Empty, Decimal.zero⟩ 0 0
  let origin : Nat → Begun := fun run => intake.begun[run]?.getD nothing
  have origins : Origins origin intake := fun run begun found => by simp [origin, found]
  obtain ⟨calls, service, reached, serves⟩ := served runs origins
  have begun := Service.begin_begun host (jobs origin) sound
  have once := Service.committed_nodup begun reached
  refine ⟨?_, serves.trace ▸ once⟩
  simp only [serves.shared, Service.deposits_counted lawful begun reached, Finset.sum_add_distrib]
  apply Nat.add_le_add_left
  refine le_trans (sum_countP_le accounts Event.streamId (Event.credits invoice) _) ?_
  rw [List.countP_filterMap]
  refine le_trans (List.countP_mono_left ?_)
    (countP_le_of_nodup once (Begun.pays invoice)
      (fun run => (origin run).pays invoice) ?_)
  · intro run _ counted
    cases entered : (jobs origin run).entry host (callsOf service.trace run) with
    | none =>
      rw [entered] at counted
      cases counted
    | some event =>
      rw [entered] at counted
      exact Job.entry_credits entered counted
  · intro run stored pays
    obtain ⟨account, called⟩ := Service.committed_iff.mp stored
    have running := serves.called (run, _) (serves.trace ▸ mem_callsOf.mp called)
    have found := List.getElem?_eq_getElem running
    refine ⟨_, found, ?_⟩
    rwa [← origins run _ found]

def redeliveredCourse : List Label :=
  webhookCourse ++ .consume 0 3 :: List.replicate 3 (.call 2 (.ok pendingPayment))

theorem redelivery_within_publications :
    ∃ intake, (machine inMemory sampleHost).exec (start [] []) redeliveredCourse = some intake ∧
      ∑ id ∈ {1, 2}, (inMemory.stream intake.service.shared id).countP (Event.credits 7) = 2 ∧
      2 ≤ intake.begun.countP (Begun.pays 7) := by
  have reached := Machine.exec_last
    (show ((machine inMemory sampleHost).exec (start [] []) redeliveredCourse).isSome = true by decide +kernel)
  have counted : ∑ id ∈ ({1, 2} : Finset Guid), (inMemory.stream ((machine inMemory sampleHost).last (start [] [])
      redeliveredCourse).service.shared id).countP (Event.credits 7) = 2 := by decide +kernel
  have ⟨bound, _⟩ := credits_within_publications inMemory_lawful (.unwritten fun _ => rfl)
    (Machine.exec_runs _ _ _ _ reached) {1, 2} 7
  have nothing : ∑ id ∈ ({1, 2} : Finset Guid), (inMemory.stream ([] : List (Guid × Event)) id).countP
      (Event.credits 7) = 0 := by decide +kernel
  rw [counted, nothing, Nat.zero_add] at bound
  exact ⟨_, reached, counted, bound⟩

end Intake

end Yoomoney
