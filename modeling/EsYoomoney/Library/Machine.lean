import Mathlib.Data.List.Basic

namespace EventSourcing

structure Machine (State Label : Type) where
  step : State → Label → Option State

namespace Machine

variable {State Label : Type} {machine : Machine State Label}

/-- The runs all of whose steps are allowed in the state they are taken in. -/
inductive Runs (machine : Machine State Label) (allowed : State → Label → Prop) (start : State) :
    List Label → State → Prop where
  | refl : Runs machine allowed start [] start
  | step {labels middle label final} (past : Runs machine allowed start labels middle)
      (permitted : allowed middle label) (taken : machine.step middle label = some final) :
      Runs machine allowed start (labels ++ [label]) final

def anyStep : State → Label → Prop := fun _ _ => True

def exec (machine : Machine State Label) (start : State) (labels : List Label) : Option State :=
  labels.foldlM machine.step start

def last (machine : Machine State Label) (start : State) (labels : List Label) : State :=
  (machine.exec start labels).getD start

theorem exec_last {start : State} {labels : List Label} (done : (machine.exec start labels).isSome = true) :
    machine.exec start labels = some (machine.last start labels) := by
  rcases Option.isSome_iff_exists.mp done with ⟨final, reached⟩
  rw [last, reached]
  rfl

theorem Runs.invariant {allowed : State → Label → Prop} {start final : State} {labels : List Label}
    (runs : machine.Runs allowed start labels final) {property : State → Prop} (initial : property start)
    (preserved : ∀ before label after, property before → allowed before label →
      machine.step before label = some after → property after) : property final := by
  induction runs with
  | refl => exact initial
  | step past permitted taken ih => exact preserved _ _ _ ih permitted taken

theorem Runs.append {allowed : State → Label → Prop} {start middle final : State} {first second : List Label}
    (left : machine.Runs allowed start first middle) (right : machine.Runs allowed middle second final) :
    machine.Runs allowed start (first ++ second) final := by
  induction right with
  | refl => simpa using left
  | step past permitted taken ih =>
    rw [← List.append_assoc]
    exact ih.step permitted taken

theorem Runs.mono {allowed wider : State → Label → Prop} {start final : State} {labels : List Label}
    (runs : machine.Runs allowed start labels final)
    (weaker : ∀ state label, allowed state label → wider state label) : machine.Runs wider start labels final := by
  induction runs with
  | refl => exact .refl
  | step past permitted taken ih => exact ih.step (weaker _ _ permitted) taken

/-- A machine each of whose steps another one answers with a step, or stands still at, does what that one does. -/
theorem Runs.simulated {Abstract Name : Type} {abstract : Machine Abstract Name} {relates : State → Abstract → Prop}
    {allowed : State → Label → Prop} {permitted : Abstract → Name → Prop} {start final : State} {begin : Abstract}
    {labels : List Label} (runs : machine.Runs allowed start labels final) (initial : relates start begin)
    (answered : ∀ before label after other, relates before other → allowed before label →
      machine.step before label = some after → relates after other ∨
        ∃ name next, permitted other name ∧ abstract.step other name = some next ∧ relates after next) :
    ∃ names other, abstract.Runs permitted begin names other ∧ relates final other := by
  induction runs with
  | refl => exact ⟨[], begin, .refl, initial⟩
  | step past permitted taken ih =>
    rcases ih with ⟨names, other, reached, related⟩
    rcases answered _ _ _ other related permitted taken with still | ⟨name, next, may, moved, follows⟩
    · exact ⟨names, other, reached, still⟩
    · exact ⟨names ++ [name], next, reached.step may moved, follows⟩

def Permits (machine : Machine State Label) (allowed : State → Label → Prop) (start : State) : List Label → Prop
  | [] => True
  | label :: labels =>
    allowed start label ∧ ∀ next, machine.step start label = some next → Permits machine allowed next labels

instance Permits.decidable (machine : Machine State Label) (allowed : State → Label → Prop)
    [∀ state label, Decidable (allowed state label)] (start : State) (labels : List Label) :
    Decidable (machine.Permits allowed start labels) :=
  match labels with
  | [] => isTrue True.intro
  | label :: labels =>
    have : Decidable (∀ next, machine.step start label = some next → machine.Permits allowed next labels) :=
      match machine.step start label with
      | none => isTrue fun _ same => by cases same
      | some next =>
        have := Permits.decidable machine allowed next labels
        decidable_of_iff (machine.Permits allowed next labels)
          ⟨fun permits _ same => Option.some.inj same ▸ permits, fun all => all next rfl⟩
    inferInstanceAs (Decidable (_ ∧ _))

theorem Permits.mono {allowed wider : State → Label → Prop} {start : State} {labels : List Label}
    (permits : machine.Permits allowed start labels)
    (weaker : ∀ state label, allowed state label → wider state label) : machine.Permits wider start labels := by
  induction labels generalizing start with
  | nil => exact True.intro
  | cons label labels ih => exact ⟨weaker _ _ permits.1, fun next taken => ih (permits.2 next taken)⟩

theorem permits_anyStep (machine : Machine State Label) (start : State) (labels : List Label) :
    machine.Permits anyStep start labels := by
  induction labels generalizing start with
  | nil => trivial
  | cons label labels ih => exact ⟨trivial, fun next _ => ih next⟩

theorem permitted_runs {allowed : State → Label → Prop} {start final : State} {labels : List Label}
    (permits : machine.Permits allowed start labels) (done : machine.exec start labels = some final) :
    machine.Runs allowed start labels final := by
  induction labels generalizing start with
  | nil =>
    cases done
    exact .refl
  | cons label labels ih =>
    rw [exec, List.foldlM_cons] at done
    rcases Option.bind_eq_some_iff.mp done with ⟨next, taken, rest⟩
    have single : machine.Runs allowed start [label] next := .step .refl permits.1 taken
    exact single.append (ih (permits.2 next taken) rest)

theorem exec_runs (machine : Machine State Label) (start : State) (labels : List Label) (final : State)
    (done : machine.exec start labels = some final) : machine.Runs anyStep start labels final :=
  permitted_runs (machine.permits_anyStep start labels) done

end Machine

end EventSourcing
