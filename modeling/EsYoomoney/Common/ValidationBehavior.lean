import EsYoomoney.Common.FunctionalResult
import EsYoomoney.Library.Program
import EsYoomoney.System.Values
import Mathlib.Algebra.BigOperators.Group.List.Basic
import Mathlib.Data.List.Infix
import Mathlib.Data.List.ReduceOption

namespace Yoomoney

open EventSourcing FunctionalResult

structure ValidationFailure where
  propertyName : String
  errorMessage : String
deriving DecidableEq, Repr

def FunctionalResult.OperationError.ofFailure (failure : ValidationFailure) : OperationError :=
  .new failure.propertyName failure.errorMessage

/-- The list of failures is the context's own: every result of `Validate` refers to it. -/
structure ValidationContext (TRequest : Type) where
  instanceToValidate : TRequest
  failures : List (Option ValidationFailure)

/-- What a validator adds to the failures of the context it is given. -/
abbrev Validator (TRequest : Type) := ValidationContext TRequest → List (Option ValidationFailure)

variable {TRequest : Type}

def Validator.validate (validator : Validator TRequest) (context : ValidationContext TRequest) :
    ValidationContext TRequest :=
  { context with failures := context.failures ++ validator context }

namespace ValidationBehavior

def createValidationResult (errors : List OperationError) : (responseType : ResponseType) → Response responseType
  | .result => .validation (ApplicationValidationResult.withErrors errors)
  | .resultT _ defaultValue => .validation (ApplicationValidationResultT.withErrors defaultValue errors)

theorem createValidationResult_isError (responseType : ResponseType) (errors : List OperationError) :
    (createValidationResult errors responseType).isError = true := by
  cases responseType <;> rfl

theorem createValidationResult_errors (responseType : ResponseType) (errors : List OperationError) :
    (createValidationResult errors responseType).errors responseType = some errors := by
  cases responseType <;> rfl

/-- `Select` runs a validator once `SelectMany` has read the list to the end for the one before it. -/
def enumerate : List (Validator TRequest) → ValidationContext TRequest → List (Option ValidationFailure)
  | [], _ => []
  | validator :: validators, context =>
    (validator.validate context).failures ++ enumerate validators (validator.validate context)

def errors (validators : List (Validator TRequest)) (request : TRequest) : List OperationError :=
  (enumerate validators ⟨request, []⟩).reduceOption.map .ofFailure

/-- A request's way through the behaviors: the one call goes to the rest of the pipeline. -/
abbrev Handling (responseType : ResponseType) :=
  Program Unit (fun _ => Response responseType) Exception (Response responseType)

def next (responseType : ResponseType) : Handling responseType := Program.perform ()

def handle (responseType : ResponseType) (validators : List (Validator TRequest)) (request : TRequest) :
    Handling responseType :=
  if validators.isEmpty then next responseType
  else if (errors validators request).length ≠ 0 then
    pure (createValidationResult (errors validators request) responseType)
  else next responseType

/-- The failures each validator adds, validator by validator. -/
def reported : List (Validator TRequest) → ValidationContext TRequest → List ValidationFailure
  | [], _ => []
  | validator :: validators, context =>
    (validator context).reduceOption ++ reported validators (validator.validate context)

/-- Each failure is there once, in order, and can be told from any other by its error. -/
structure Carries (errors : List OperationError) (failures : List ValidationFailure) : Prop where
  once : errors = failures.map .ofFailure
  recoverable : ∀ failure ∈ failures, ∀ other, OperationError.ofFailure other = .ofFailure failure →
    other.propertyName = failure.propertyName ∧ other.errorMessage = failure.errorMessage

structure Exact (responseType : ResponseType) (validators : List (Validator TRequest)) (request : TRequest) :
    Prop where
  passes : reported validators ⟨request, []⟩ = [] → handle responseType validators request = next responseType
  refuses : reported validators ⟨request, []⟩ ≠ [] →
    ∃ response errors, handle responseType validators request = pure response ∧ response.isError = true ∧
      response.errors responseType = some errors ∧ Carries errors (reported validators ⟨request, []⟩)

theorem reported_cons (validator : Validator TRequest) (validators : List (Validator TRequest))
    (context : ValidationContext TRequest) : reported (validator :: validators) context =
      (validator context).reduceOption ++ reported validators (validator.validate context) := rfl

theorem reported_sublist (validators : List (Validator TRequest)) (context : ValidationContext TRequest) :
    (reported validators context).Sublist (enumerate validators context).reduceOption := by
  induction validators generalizing context with
  | nil => exact .slnil
  | cons validator validators ih =>
    rw [reported, enumerate, Validator.validate, List.reduceOption_append, List.reduceOption_append,
      List.append_assoc]
    exact ((List.Sublist.refl _).append (ih _)).trans (List.sublist_append_right _ _)

/-- Every validator has the failures of those before it read once more. -/
theorem length_enumerate (validators : List (Validator TRequest)) (context : ValidationContext TRequest) :
    validators.length * context.failures.reduceOption.length + (reported validators context).length ≤
      (enumerate validators context).reduceOption.length := by
  induction validators generalizing context with
  | nil => simp [reported, enumerate]
  | cons validator validators ih =>
    have later := ih (validator.validate context)
    have more : validators.length * context.failures.reduceOption.length ≤
        validators.length * (validator.validate context).failures.reduceOption.length := by
      apply Nat.mul_le_mul_left
      simp [Validator.validate, List.reduceOption_append]
    have added : (validator.validate context).failures.reduceOption.length =
        context.failures.reduceOption.length + (validator context).reduceOption.length := by
      simp [Validator.validate, List.reduceOption_append]
    rw [reported, enumerate, List.reduceOption_append, List.length_append, List.length_append, List.length_cons,
      Nat.succ_mul]
    omega

theorem enumerate_nil {validators : List (Validator TRequest)} {context : ValidationContext TRequest}
    (clean : context.failures.reduceOption = []) (nothing : reported validators context = []) :
    (enumerate validators context).reduceOption = [] := by
  induction validators generalizing context with
  | nil => rfl
  | cons validator validators ih =>
    rw [reported, List.append_eq_nil_iff] at nothing
    have still : (validator.validate context).failures.reduceOption = [] := by
      rw [Validator.validate, List.reduceOption_append, clean, nothing.1, List.append_nil]
    rw [enumerate, List.reduceOption_append, still, ih still nothing.2, List.append_nil]

theorem enumerate_once_iff {validators : List (Validator TRequest)} {context : ValidationContext TRequest}
    (clean : context.failures.reduceOption = []) :
    (enumerate validators context).reduceOption = reported validators context ↔
      reported validators.dropLast context = [] := by
  induction validators generalizing context with
  | nil => exact iff_of_true rfl rfl
  | cons first validators ih =>
    cases validators with
    | nil => simp [enumerate, reported, Validator.validate, List.reduceOption_append, clean]
    | cons second validators =>
      have after : (first.validate context).failures.reduceOption = (first context).reduceOption := by
        rw [Validator.validate, List.reduceOption_append, clean, List.nil_append]
      rw [List.dropLast_cons_cons, reported_cons first, reported_cons first, enumerate, List.reduceOption_append,
        after, List.append_cancel_left_eq, List.append_eq_nil_iff]
      by_cases silent : (first context).reduceOption = []
      · rw [ih (after.trans silent)]
        exact (and_iff_right silent).symm
      · refine iff_of_false (fun same => ?_) fun both => silent both.1
        -- the second validator's list starts with the first one's failures again
        have longer := length_enumerate (second :: validators) (first.validate context)
        have counted : 0 < (first context).reduceOption.length := List.length_pos_of_ne_nil silent
        rw [same, after, List.length_cons, Nat.succ_mul] at longer
        omega

theorem errors_nil_iff (validators : List (Validator TRequest)) (request : TRequest) :
    errors validators request = [] ↔ reported validators ⟨request, []⟩ = [] := by
  rw [errors, List.map_eq_nil_iff]
  constructor
  · intro empty
    have reads := reported_sublist validators ⟨request, []⟩
    rw [empty] at reads
    exact List.sublist_nil.mp reads
  · exact enumerate_nil rfl

theorem handle_passes {validators : List (Validator TRequest)} {request : TRequest} (responseType : ResponseType)
    (nothing : reported validators ⟨request, []⟩ = []) :
    handle responseType validators request = next responseType := by
  simp [handle, (errors_nil_iff validators request).mpr nothing]

theorem handle_refuses {validators : List (Validator TRequest)} {request : TRequest} (responseType : ResponseType)
    (failed : reported validators ⟨request, []⟩ ≠ []) :
    handle responseType validators request =
      pure (createValidationResult (errors validators request) responseType) := by
  have found : (errors validators request).length ≠ 0 := by
    intro empty
    exact failed ((errors_nil_iff validators request).mp (List.length_eq_zero_iff.mp empty))
  cases validators with
  | nil => exact absurd rfl failed
  | cons validator validators =>
    rw [handle, if_neg (by simp), if_pos found]

theorem refused_response {validators : List (Validator TRequest)} {request : TRequest} (responseType : ResponseType)
    (failed : reported validators ⟨request, []⟩ ≠ []) :
    ∃ response, handle responseType validators request = pure response ∧ response.isError = true ∧
      response.errors responseType = some (errors validators request) :=
  ⟨_, handle_refuses responseType failed, createValidationResult_isError responseType _,
    createValidationResult_errors responseType _⟩

theorem handle_next_iff (responseType : ResponseType) (validators : List (Validator TRequest)) (request : TRequest) :
    handle responseType validators request = next responseType ↔ reported validators ⟨request, []⟩ = [] := by
  constructor
  · intro called
    by_contra failed
    rw [handle_refuses responseType failed] at called
    cases called
  · exact handle_passes responseType

theorem errors_once_iff (validators : List (Validator TRequest)) (request : TRequest) :
    errors validators request = (reported validators ⟨request, []⟩).map .ofFailure ↔
      reported validators.dropLast ⟨request, []⟩ = [] := by
  rw [← enumerate_once_iff rfl, errors]
  constructor
  · intro same
    exact ((reported_sublist _ _).eq_of_length (by simpa using congrArg List.length same.symm)).symm
  · exact congrArg _

/-- An error is the same whatever failure it was made of. -/
theorem Carries.nil {errors : List OperationError} {failures : List ValidationFailure}
    (carries : Carries errors failures) : failures = [] := by
  by_contra present
  obtain ⟨failure, member⟩ := List.exists_mem_of_ne_nil failures present
  have same := carries.recoverable failure member ⟨failure.propertyName ++ ".", failure.errorMessage⟩ rfl
  have longer := congrArg String.length same.1
  simp at longer

theorem exact_iff_nothing_reported (responseType : ResponseType) (validators : List (Validator TRequest))
    (request : TRequest) : Exact responseType validators request ↔ reported validators ⟨request, []⟩ = [] := by
  constructor
  · intro behaves
    by_contra failed
    obtain ⟨_, _, _, _, _, carries⟩ := behaves.refuses failed
    exact failed carries.nil
  · intro nothing
    exact ⟨fun _ => handle_passes responseType nothing, fun failed => absurd nothing failed⟩

theorem two_failures_make_three_equal_errors :
    let validators : List (Validator Unit) :=
      [fun _ => [some ⟨"Amount", "Too small"⟩], fun _ => [some ⟨"Email", "Not an address"⟩]]
    errors validators () = [.new "Amount" "Too small", .new "Amount" "Too small", .new "Email" "Not an address"] ∧
      OperationError.new "Amount" "Too small" = .new "Email" "Not an address" ∧
      ¬Exact .result validators () := by
  refine ⟨rfl, rfl, fun behaves => ?_⟩
  obtain ⟨_, _, _, _, _, carries⟩ := behaves.refuses (by decide)
  exact absurd carries.nil (by decide)

/-- What each validator reports, beside those before it. -/
def reports : List (Validator TRequest) → ValidationContext TRequest → List (List ValidationFailure)
  | [], _ => []
  | validator :: validators, context =>
    (validator context).reduceOption :: reports validators (validator.validate context)

theorem length_reports (validators : List (Validator TRequest)) (context : ValidationContext TRequest) :
    (reports validators context).length = validators.length := by
  induction validators generalizing context with
  | nil => rfl
  | cons validator validators ih => rw [reports, List.length_cons, ih, List.length_cons]

theorem reported_eq (validators : List (Validator TRequest)) (context : ValidationContext TRequest) :
    reported validators context = (reports validators context).flatten := by
  induction validators generalizing context with
  | nil => rfl
  | cons validator validators ih => rw [reported, reports, List.flatten_cons, ih]

theorem inits_front {α : Type} (items : List α) : items.inits = [] :: items.inits.tail := by
  cases items with
  | nil => rfl
  | cons item items => rw [List.inits_cons, List.tail_cons]

/-- Behind each validator the list is read from its start: the failures of all validators so far. -/
theorem enumerate_eq (validators : List (Validator TRequest)) (context : ValidationContext TRequest) :
    (enumerate validators context).reduceOption =
      (reports validators context).inits.tail.flatMap fun front => context.failures.reduceOption ++ front.flatten := by
  induction validators generalizing context with
  | nil => rfl
  | cons validator validators ih =>
    have added : (validator.validate context).failures.reduceOption =
        context.failures.reduceOption ++ (validator context).reduceOption := by
      rw [Validator.validate, List.reduceOption_append]
    rw [enumerate, List.reduceOption_append, ih, added, reports, List.inits_cons, List.tail_cons, List.flatMap_map]
    rw [inits_front (reports validators (validator.validate context)), List.flatMap_cons]
    simp only [List.tail_cons, List.flatten_cons, List.flatten_nil, List.append_nil, List.append_assoc]

/-- The failures of the first of some validators are read as often as there are validators, those of the second once
    less, and so on. -/
theorem length_fronts {α : Type} (parts : List (List α)) :
    (parts.inits.tail.flatMap List.flatten).length =
      (parts.zipIdx.map fun part => (parts.length - part.2) * part.1.length).sum := by
  have shifted : ∀ (parts : List (List α)) (before : Nat),
      (parts.inits.tail.flatMap List.flatten).length =
        ((parts.zipIdx before).map fun part => (before + parts.length - part.2) * part.1.length).sum := by
    intro parts
    induction parts with
    | nil =>
      intro before
      rfl
    | cons part parts ih =>
      intro before
      have front : (parts.inits.map fun front => (part :: front).flatten.length).sum =
          (parts.length + 1) * part.length + (parts.inits.tail.flatMap List.flatten).length := by
        have each : (parts.inits.map fun front => (part :: front).flatten.length) =
            parts.inits.map fun front => part.length + front.flatten.length := by
          simp only [List.flatten_cons, List.length_append]
        have rest : (parts.inits.map fun front => front.flatten.length).sum =
            (parts.inits.tail.flatMap List.flatten).length := by
          rw [inits_front, List.map_cons, List.sum_cons, List.length_flatMap, List.tail_cons]
          exact Nat.zero_add _
        rw [each, List.sum_map_add, rest, List.map_const', List.sum_replicate, List.length_inits, Nat.nsmul_eq_mul]
      have later := ih (before + 1)
      rw [List.inits_cons, List.tail_cons, List.flatMap_map, List.length_flatMap, front, later, List.zipIdx_cons,
        List.map_cons, List.sum_cons, List.length_cons]
      have whole : before + (parts.length + 1) - before = parts.length + 1 := by omega
      have same : before + 1 + parts.length = before + (parts.length + 1) := by omega
      rw [whole, same]
  simpa using shifted parts 0

/-- What the behavior does with a request: it goes on when no validator reports a failure, and otherwise answers with
    an error for every time a failure is read. -/
theorem validation_outcome (responseType : ResponseType) (validators : List (Validator TRequest)) (request : TRequest) :
    handle responseType validators request = next responseType ∧
        (∀ failures ∈ reports validators ⟨request, []⟩, failures = []) ∨
      (∃ failures ∈ reports validators ⟨request, []⟩, failures ≠ []) ∧ ∃ response errors,
        handle responseType validators request = pure response ∧ response.isError = true ∧
        response.errors responseType = some errors ∧
        errors = ((reports validators ⟨request, []⟩).inits.tail.flatMap List.flatten).map .ofFailure ∧
        errors.length = ((reports validators ⟨request, []⟩).zipIdx.map fun reported =>
          (validators.length - reported.2) * reported.1.length).sum := by
  by_cases nothing : ∀ failures ∈ reports validators ⟨request, []⟩, failures = []
  · refine Or.inl ⟨handle_passes responseType ?_, nothing⟩
    rwa [reported_eq, List.flatten_eq_nil_iff]
  · have failed : reported validators ⟨request, []⟩ ≠ [] := by rwa [reported_eq, ne_eq, List.flatten_eq_nil_iff]
    obtain ⟨response, answered, failing, listed⟩ := refused_response responseType failed
    have form : errors validators request =
        ((reports validators ⟨request, []⟩).inits.tail.flatMap List.flatten).map .ofFailure := by
      rw [errors, enumerate_eq]
      rfl
    refine Or.inr ⟨by simpa using nothing, response, _, answered, failing, listed, form, ?_⟩
    rw [form, List.length_map, length_fronts, length_reports]

example : (errors [fun _ => [some ⟨"Amount", "Too small"⟩], fun _ => [], fun _ => [some ⟨"Email", "Not an address"⟩]]
    ()).length = 4 := rfl

end ValidationBehavior

end Yoomoney
