import EsYoomoney.Messaging.CapturedCredits

namespace Yoomoney

open EventSourcing

namespace Polling

inductive Call where
  | isCancellationRequested
  | fetchPaymentsForCaptureAsync
  | publish (paymentPaidEvent : InvoiceStatusChangedIntegrationEvent)
  | delay

abbrev Answer : Call → Type
  | .isCancellationRequested => Bool
  | .fetchPaymentsForCaptureAsync => List Payment
  | .publish _ => Unit
  | .delay => Unit

abbrev Worker (α : Type) := Program Call Answer Exception α

def publishEvents (invoices : List Payment) : Worker Unit :=
  invoices.forM fun invoice => Program.perform (Call.publish ⟨invoice⟩)

/-- The loop, watched for some rounds: it returns whether it was canceled in one of them. -/
def executeAsync : Nat → Worker Bool
  | 0 => pure false
  | rounds + 1 => do
    if ← Program.perform Call.isCancellationRequested then
      return true
    else
      let invoices ← Program.perform Call.fetchPaymentsForCaptureAsync
      publishEvents invoices
      Program.perform Call.delay
      executeAsync rounds

def round (invoices : List Payment) (rounds : Nat) : Worker Bool := do
  publishEvents invoices
  Program.perform Call.delay
  executeAsync rounds

theorem round_cons (invoice : Payment) (invoices : List Payment) (rounds : Nat) :
    round (invoice :: invoices) rounds =
      Program.perform (Call.publish ⟨invoice⟩) >>= fun _ => round invoices rounds := by
  have first : publishEvents (invoice :: invoices) =
      Program.perform (Call.publish ⟨invoice⟩) >>= fun _ => publishEvents invoices := rfl
  rw [round, first, bind_assoc]
  rfl

/-- Where the loop is at work, which of the invoices that it has fetched it has still to publish there, and for how
    many rounds more it is watched. -/
inductive Position : Worker Bool → List Payment → Nat → Prop where
  | checking (rounds : Nat) : Position (executeAsync rounds) [] rounds
  | fetching (rounds : Nat) : Position
      (Program.perform Call.fetchPaymentsForCaptureAsync >>= fun invoices => round invoices rounds) [] (rounds + 1)
  | publishing (invoices : List Payment) (rounds : Nat) : Position (round invoices rounds) invoices (rounds + 1)

/-- What stops the loop. -/
inductive Stops : Exchange Call Answer Exception → Worker Bool → Prop where
  | canceled : Stops ⟨.isCancellationRequested, .ok true⟩ (.done true)
  | failed {request error} : Stops ⟨request, .error error⟩ (.fail error)

/-- What the loop's next call is about, and where it stands once that has gone well. -/
inductive Turn : List Payment → Nat → (request : Call) → (Except Exception (Answer request) → Worker Bool) → Prop where
  | isCancellationRequested {rounds next} (canceled : next (.ok true) = .done true)
      (running : Position (next (.ok false)) [] rounds) : Turn [] rounds .isCancellationRequested next
  | fetchPaymentsForCaptureAsync {rounds next} (fetched : ∀ invoices, Position (next (.ok invoices)) invoices rounds) :
      Turn [] rounds .fetchPaymentsForCaptureAsync next
  | publish {rounds invoice invoices next} (published : Position (next (.ok ())) invoices rounds) :
      Turn (invoice :: invoices) rounds (.publish ⟨invoice⟩) next
  | delay {rounds next} (delayed : Position (next (.ok ())) [] rounds) : Turn [] (rounds + 1) .delay next

namespace Position

variable {worker left : Worker Bool} {remaining : List Payment} {rounds : Nat} {request : Call}
  {next : Except Exception (Answer request) → Worker Bool} {calls : List (Exchange Call Answer Exception)}

theorem turn (position : Position worker remaining rounds) (waiting : worker = .call request next) :
    Turn remaining rounds request next ∧ ∀ error, next (.error error) = .fail error := by
  cases position with
  | checking rounds =>
    cases rounds with
    | zero => cases waiting
    | succ rounds =>
      cases waiting
      exact ⟨.isCancellationRequested rfl (.fetching rounds), fun error => rfl⟩
  | fetching rounds =>
    cases waiting
    exact ⟨.fetchPaymentsForCaptureAsync fun invoices => .publishing invoices rounds, fun error => rfl⟩
  | publishing invoices rounds =>
    cases remaining with
    | nil =>
      cases waiting
      exact ⟨.delay (.checking rounds), fun error => rfl⟩
    | cons invoice invoices =>
      rw [round_cons] at waiting
      cases waiting
      exact ⟨.publish (.publishing invoices rounds), fun error => rfl⟩

theorem finished (position : Position worker remaining rounds) (finished : worker.Finished) :
    worker = .done false ∧ remaining = [] ∧ rounds = 0 := by
  cases position with
  | checking rounds =>
    cases rounds with
    | zero => exact ⟨rfl, rfl, rfl⟩
    | succ rounds => cases finished
  | fetching rounds => cases finished
  | publishing invoices rounds =>
    cases remaining with
    | nil => cases finished
    | cons invoice invoices =>
      rw [round_cons] at finished
      cases finished

end Position

def fetched : Exchange Call Answer Exception → List Payment
  | ⟨.fetchPaymentsForCaptureAsync, .ok invoices⟩ => invoices
  | _ => []

def published : Exchange Call Answer Exception → Option Payment
  | ⟨.publish paymentPaidEvent, .ok _⟩ => some paymentPaidEvent.invoice
  | _ => none

def delayed : Exchange Call Answer Exception → Bool
  | ⟨.delay, .ok _⟩ => true
  | _ => false

theorem Stops.nothing {exchange : Exchange Call Answer Exception} {outcome : Worker Bool}
    (stops : Stops exchange outcome) :
    fetched exchange = [] ∧ published exchange = none ∧ delayed exchange = false := by
  cases stops with
  | canceled => exact ⟨rfl, rfl, rfl⟩
  | @failed request error => cases request <;> exact ⟨rfl, rfl, rfl⟩

theorem Stops.last {exchange : Exchange Call Answer Exception} {outcome left : Worker Bool}
    {calls : List (Exchange Call Answer Exception)} (stops : Stops exchange outcome)
    (later : outcome.Follows calls left) : calls = [] ∧ left = outcome := by
  cases stops with
  | canceled => exact later.of_done
  | failed => exact later.of_fail

def Smooth (calls : List (Exchange Call Answer Exception)) : Prop :=
  ∀ exchange ∈ calls, ∀ outcome, ¬ Stops exchange outcome

/-- A call of the loop stops it, or takes what it fetches or publishes to or from the invoices that are left. -/
theorem Position.answered {worker : Worker Bool} {remaining : List Payment} {rounds : Nat} {request : Call}
    {next : Except Exception (Answer request) → Worker Bool} (position : Position worker remaining rounds)
    (waiting : worker = .call request next) (answer : Except Exception (Answer request)) :
    Stops ⟨request, answer⟩ (next answer) ∧ (∀ result, next answer = .done result → remaining = []) ∨
      Smooth [⟨request, answer⟩] ∧ ∃ rest fewer, Position (next answer) rest fewer ∧
        remaining ++ fetched ⟨request, answer⟩ = (published ⟨request, answer⟩).toList ++ rest ∧
        rounds = fewer + if delayed ⟨request, answer⟩ then 1 else 0 := by
  obtain ⟨turn, failing⟩ := position.turn waiting
  cases answer with
  | error error =>
    rw [failing]
    exact Or.inl ⟨.failed, fun result same => by cases same⟩
  | ok answer =>
    have smooth : request ≠ .isCancellationRequested → Smooth [⟨request, .ok answer⟩] := by
      intro other exchange member outcome stops
      cases List.mem_singleton.mp member
      cases stops
      exact other rfl
    cases turn with
    | isCancellationRequested canceled running =>
      cases answer with
      | true =>
        rw [canceled]
        exact Or.inl ⟨.canceled, fun _ _ => rfl⟩
      | false =>
        refine Or.inr ⟨?_, _, _, running, rfl, rfl⟩
        intro exchange member outcome stops
        cases List.mem_singleton.mp member
        cases stops
    | fetchPaymentsForCaptureAsync fetched => exact Or.inr ⟨smooth (by simp), _, _, fetched answer, rfl, rfl⟩
    | publish published => exact Or.inr ⟨smooth (by simp), _, _, published, List.append_nil _, rfl⟩
    | delay delayed => exact Or.inr ⟨smooth (by simp), _, _, delayed, rfl, rfl⟩

/-- Where calls leave the loop, with the invoices of them that it has not published. -/
structure Account (remaining : List Payment) (rounds : Nat) (calls : List (Exchange Call Answer Exception))
    (left : Worker Bool) (rest : List Payment) : Prop where
  invoices : remaining ++ calls.flatMap fetched = calls.filterMap published ++ rest
  place : (∃ fewer, Position left rest fewer ∧ rounds = fewer + calls.countP delayed) ∧ Smooth calls ∨
    (∃ front exchange, calls = front ++ [exchange] ∧ Stops exchange left ∧ Smooth front) ∧
      ∀ result, left = .done result → rest = []

theorem Position.account {worker left : Worker Bool} {remaining : List Payment} {rounds : Nat}
    {calls : List (Exchange Call Answer Exception)} (position : Position worker remaining rounds)
    (follows : worker.Follows calls left) : ∃ rest, Account remaining rounds calls left rest := by
  induction follows generalizing remaining rounds with
  | nil => exact ⟨remaining, by simp, Or.inl ⟨⟨rounds, position, rfl⟩, fun _ member => by cases member⟩⟩
  | @cons request next answer calls left later ih =>
    rcases position.answered rfl answer with ⟨stops, settled⟩ | ⟨smooth, rest, fewer, onward, moved, counted⟩
    · obtain ⟨none, unpublished, -⟩ := stops.nothing
      obtain ⟨rfl, rfl⟩ := stops.last later
      refine ⟨remaining, by simp [none, unpublished], Or.inr ⟨⟨[], _, rfl, stops, ?_⟩, settled⟩⟩
      intro exchange member
      cases member
    · obtain ⟨last, account⟩ := ih onward
      refine ⟨last, ?_, ?_⟩
      · have taken : (⟨request, answer⟩ :: calls).filterMap published =
            (published ⟨request, answer⟩).toList ++ calls.filterMap published := by
          rw [List.filterMap_cons]
          cases published ⟨request, answer⟩ <;> rfl
        rw [List.flatMap_cons, ← List.append_assoc, moved, List.append_assoc, account.invoices, taken,
          List.append_assoc]
      · refine account.place.imp ?_ ?_
        · rintro ⟨⟨further, place, rounds⟩, none⟩
          refine ⟨⟨further, place, ?_⟩, List.forall_mem_cons.mpr ⟨smooth _ List.mem_cons_self, none⟩⟩
          rw [counted, List.countP_cons, rounds, Nat.add_assoc]
        · rintro ⟨⟨front, exchange, rfl, stops, none⟩, settled⟩
          exact ⟨⟨_ :: front, exchange, rfl, stops, List.forall_mem_cons.mpr ⟨smooth _ List.mem_cons_self, none⟩⟩,
            settled⟩

/-- The loop publishes what it fetches, in its order, everything once, before it waits or looks again. Nothing but
    its cancellation or an exception stops it, and then it calls nothing more. -/
theorem publishes_what_it_fetches {rounds : Nat} {calls : List (Exchange Call Answer Exception)} {left : Worker Bool}
    (follows : (executeAsync rounds).Follows calls left) :
    ∃ rest, calls.flatMap fetched = calls.filterMap published ++ rest ∧
      (∀ request next, left = .call request next →
        rest = [] ∨ ∃ invoice others, rest = invoice :: others ∧ request = .publish ⟨invoice⟩) ∧
      (∀ result, left = .done result → rest = []) ∧
      (left.Finished → left = .done false ∧ calls.countP delayed = rounds ∨
        ∃ front exchange, calls = front ++ [exchange] ∧ Stops exchange left) ∧
      Smooth calls.dropLast := by
  obtain ⟨rest, account⟩ := (Position.checking rounds).account follows
  refine ⟨rest, account.invoices, ?_⟩
  rcases account.place with ⟨⟨fewer, position, counted⟩, smooth⟩ | ⟨⟨front, exchange, rfl, stops, smooth⟩, settled⟩
  · refine ⟨?_, ?_, ?_, fun exchange member => smooth exchange (List.mem_of_mem_dropLast member)⟩
    · intro request next waiting
      cases (position.turn waiting).1 with
      | isCancellationRequested canceled running => exact Or.inl rfl
      | fetchPaymentsForCaptureAsync fetched => exact Or.inl rfl
      | publish published => exact Or.inr ⟨_, _, rfl, rfl⟩
      | delay delayed => exact Or.inl rfl
    · rintro result rfl
      exact (position.finished True.intro).2.1
    · intro finished
      obtain ⟨same, -, none⟩ := position.finished finished
      exact Or.inl ⟨same, by omega⟩
  · rw [List.dropLast_concat]
    refine ⟨?_, settled, fun _ => Or.inr ⟨front, exchange, rfl, stops⟩, smooth⟩
    rintro request next rfl
    cases stops

theorem failed_publication_left_over :
    ∃ calls rest, (executeAsync 1).Follows calls (.fail .yandexCheckoutException) ∧
      calls.flatMap fetched = [samplePayment, otherPayment] ∧
      calls.flatMap fetched = calls.filterMap published ++ rest ∧ calls.filterMap published = [samplePayment] := by
  have follows : (executeAsync 1).Follows [⟨.isCancellationRequested, .ok false⟩,
      ⟨.fetchPaymentsForCaptureAsync, .ok [samplePayment, otherPayment]⟩, ⟨.publish ⟨samplePayment⟩, .ok ()⟩,
      ⟨.publish ⟨otherPayment⟩, .error .yandexCheckoutException⟩] (.fail .yandexCheckoutException) :=
    .cons (.cons (.cons (.cons .nil)))
  obtain ⟨rest, accounted, -⟩ := publishes_what_it_fetches follows
  exact ⟨_, rest, follows, rfl, accounted, rfl⟩

end Polling

/-- The intake with the worker's loop itself in it. -/
structure Polled (Db : Type) where
  intake : Intake Db
  worker : Polling.Worker Bool

namespace Polled

open Polling

variable {Db : Type} {store : IDocumentStore Db} {host : Host}

/-- What comes to the loop from outside: whether it is canceled, whether its call fails, and the handler's clock. -/
structure Choice where
  canceled : Bool
  failure : Option Exception
  occuredAt : DateTime

inductive Label where
  | other (label : Intake.Label)
  | work (choice : Choice)

def start (payments : List Payment) (db : Db) (rounds : Nat) : Polled Db :=
  ⟨Intake.start payments db, executeAsync rounds⟩

def perform (host : Host) (intake : Intake Db) (choice : Choice) :
    (request : Polling.Call) → Polling.Answer request × Intake Db
  | .isCancellationRequested => (choice.canceled, intake)
  | .fetchPaymentsForCaptureAsync => (YoomoneyInvoiceService.fetchPaymentsForCaptureAsync intake.payments, intake)
  | .publish paymentPaidEvent =>
    ((), intake.publish host .paymentsPaidProcessingWorker paymentPaidEvent.invoice choice.occuredAt)
  | .delay => ((), intake)

def step (store : IDocumentStore Db) (host : Host) (polled : Polled Db) : Label → Option (Polled Db)
  | .other .fetchPaymentsForCapture => none
  | .other (.publish _) => none
  | .other label => (Intake.step store host polled.intake label).map fun intake => { polled with intake }
  | .work choice =>
    match polled.worker, choice.failure with
    | .call _ next, some error => some { polled with worker := next (.error error) }
    | .call request next, none =>
      let performed := perform host polled.intake choice request
      some ⟨performed.2, next (.ok performed.1)⟩
    | _, _ => none

def machine (store : IDocumentStore Db) (host : Host) : Machine (Polled Db) Label := ⟨step store host⟩

/-- The worker as the list of invoices that it has still to publish, in place of its loop. -/
inductive Abstracts (polled : Polled Db) : Intake Db → Prop where
  | standing {remaining : List Payment}
      (place : (∃ rounds, Position polled.worker remaining rounds) ∨ polled.worker.Finished) :
      Abstracts polled { polled.intake with invoices := remaining }

/-- The step of the list that a step stands for, if it stands for one. -/
def Label.abstract (worker : Worker Bool) : Label → Option Intake.Label
  | other label => some label
  | work choice =>
    match worker, choice.failure with
    | .call .fetchPaymentsForCaptureAsync _, none => some .fetchPaymentsForCapture
    | .call (.publish _) _, none => some (.publish choice.occuredAt)
    | _, _ => none

/-- A condition on the steps with the worker as a list, as one on the steps with its loop. -/
def Lifted (permitted : Intake Db → Intake.Label → Prop) (polled : Polled Db) (label : Label) : Prop :=
  ∀ name intake, label.abstract polled.worker = some name → Abstracts polled intake → permitted intake name

theorem step_other {polled after : Polled Db} {label : Intake.Label} (remaining : List Payment)
    (taken : step store host polled (.other label) = some after) :
    Intake.step store host { polled.intake with invoices := remaining } label =
      some { after.intake with invoices := remaining } ∧ after.worker = polled.worker := by
  have moved (other : ∃ next, Intake.step store host polled.intake label = some next ∧
      { polled with intake := next } = after)
      (alike : Intake.step store host { polled.intake with invoices := remaining } label =
        (Intake.step store host polled.intake label).map fun next => { next with invoices := remaining }) :
      Intake.step store host { polled.intake with invoices := remaining } label =
        some { after.intake with invoices := remaining } ∧ after.worker = polled.worker := by
    obtain ⟨next, stepped, rfl⟩ := other
    rw [alike, stepped]
    exact ⟨rfl, rfl⟩
  cases label with
  | fetchPaymentsForCapture => cases taken
  | publish occuredAt => cases taken
  | create payment =>
    refine moved (Option.map_eq_some_iff.mp taken) ?_
    dsimp only [Intake.step]
    split <;> rfl
  | advance id status => exact moved (Option.map_eq_some_iff.mp taken) rfl
  | notify notification => exact moved (Option.map_eq_some_iff.mp taken) rfl
  | receivePayment position =>
    refine moved (Option.map_eq_some_iff.mp taken) ?_
    dsimp only [Intake.step]
    cases polled.intake.notifications[position]? <;> rfl
  | consume position occuredAt =>
    refine moved (Option.map_eq_some_iff.mp taken) ?_
    dsimp only [Intake.step]
    cases polled.intake.topic[position]? <;> rfl
  | createInvoice request openedAt createdAt => exact moved (Option.map_eq_some_iff.mp taken) rfl
  | call run reply =>
    refine moved (Option.map_eq_some_iff.mp taken) ?_
    dsimp only [Intake.step]
    cases Pool.step (environment store) polled.intake.service (run, reply) <;> rfl

theorem step_work {polled after : Polled Db} {choice : Choice} {remaining : List Payment} {rounds : Nat}
    (place : Position polled.worker remaining rounds) (taken : step store host polled (.work choice) = some after) :
    Abstracts after { polled.intake with invoices := remaining } ∨ ∃ label next,
      (Label.work choice).abstract polled.worker = some label ∧
        Intake.step store host { polled.intake with invoices := remaining } label = some next ∧
        Abstracts after next := by
  cases waiting : polled.worker with
  | done result =>
    simp only [step, waiting] at taken
    cases taken
  | fail error =>
    simp only [step, waiting] at taken
    cases taken
  | call request next =>
    obtain ⟨turn, failing⟩ := place.turn waiting
    cases failure : choice.failure with
    | some error =>
      simp only [step, waiting, failure] at taken
      cases taken
      left
      refine .standing (Or.inr ?_)
      show (next (.error error)).Finished
      rw [failing]
      exact True.intro
    | none =>
      simp only [step, waiting, failure] at taken
      cases taken
      cases turn with
      | isCancellationRequested canceled running =>
        left
        refine .standing ?_
        dsimp only [perform]
        cases choice.canceled with
        | true =>
          rw [canceled]
          exact Or.inr True.intro
        | false => exact Or.inl ⟨_, running⟩
      | fetchPaymentsForCaptureAsync fetched =>
        refine Or.inr ⟨.fetchPaymentsForCapture, _, ?_, rfl, .standing (Or.inl ⟨_, fetched _⟩)⟩
        simp only [Label.abstract, failure]
      | publish published =>
        refine Or.inr ⟨.publish choice.occuredAt, _, ?_, rfl, .standing (Or.inl ⟨_, published⟩)⟩
        simp only [Label.abstract, failure]
      | delay delayed => exact Or.inl (.standing (Or.inl ⟨_, delayed⟩))

/-- Every run of the system with the worker's loop in it is a run of the system with the worker as a list of invoices
    to publish, under every condition that its steps meet: the loop fetches only when it has none left, and publishes
    the first of them. -/
theorem loop_refines_worker {allowed : Polled Db → Label → Prop} {permitted : Intake Db → Intake.Label → Prop}
    (lifted : ∀ polled label, allowed polled label → Lifted permitted polled label) {payments : List Payment} {db : Db}
    {rounds : Nat} {labels : List Label} {polled : Polled Db}
    (runs : (machine store host).Runs allowed (start payments db rounds) labels polled) :
    ∃ names intake, (Intake.machine store host).Runs permitted (Intake.start payments db) names intake ∧
      Abstracts polled intake := by
  apply runs.simulated (.standing (Or.inl ⟨rounds, .checking rounds⟩))
  intro before label after intake abstracts may taken
  have permits := fun name named => lifted before label may name intake named abstracts
  cases abstracts with
  | @standing remaining place =>
    cases label with
    | other label =>
      obtain ⟨stepped, same⟩ := step_other remaining taken
      refine Or.inr ⟨label, _, permits label rfl, stepped, .standing ?_⟩
      rwa [same]
    | work choice =>
      have stepped : step store host before (.work choice) = some after := taken
      rcases place with ⟨rounds, position⟩ | finished
      · rcases step_work position stepped with still | ⟨name, next, named, answered, standing⟩
        · exact Or.inl still
        · exact Or.inr ⟨name, next, permits name named, answered, standing⟩
      · cases worker : before.worker with
        | call request next =>
          rw [worker] at finished
          cases finished
        | done result =>
          simp only [step, worker] at stepped
          cases stepped
        | fail error =>
          simp only [step, worker] at stepped
          cases stepped

def quiet : Choice := ⟨false, none, 2⟩

def pollingRound : List Label :=
  [.other (.create Intake.pendingPayment), .other (.advance Intake.pendingPayment.id .waitingForCapture),
    .work quiet, .work quiet, .other (.advance Intake.pendingPayment.id .succeeded), .work quiet, .work quiet]

theorem polling_round_refined :
    ∃ polled names intake, (machine inMemory sampleHost).exec (start [] [] 1) pollingRound = some polled ∧
      polled.worker = .done false ∧
      (Intake.machine inMemory sampleHost).Runs (fun intake _ => intake.WorkerCaptured) (Intake.start [] []) names
        intake ∧ (∃ publication, intake.begun = [.published publication] ∧ publication.captured = true) := by
  have reached := Machine.exec_last
    (show ((machine inMemory sampleHost).exec (start [] [] 1) pollingRound).isSome = true by decide +kernel)
  have permits : (machine inMemory sampleHost).Permits (fun polled _ => polled.intake.WorkerCaptured) (start [] [] 1)
      pollingRound := by decide +kernel
  have lifted (polled : Polled (List (Guid × DomainEvents.Event))) (label : Label)
      (captured : polled.intake.WorkerCaptured) : Lifted (fun intake _ => intake.WorkerCaptured) polled label := by
    intro name intake _ abstracts
    cases abstracts with
    | standing place => exact captured
  obtain ⟨names, intake, runs, abstracts⟩ := loop_refines_worker lifted (Machine.permitted_runs permits reached)
  cases abstracts with
  | standing place => exact ⟨_, names, _, reached, rfl, runs, _, rfl, rfl⟩

end Polled

end Yoomoney
