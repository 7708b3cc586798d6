import EsYoomoney.Library.Program
import Mathlib.Data.List.Nodup

namespace EventSourcing

variable {Call : Type} {Answer : Call → Type} {ε α β σ ω ι : Type}

theorem Program.map_returns_iff (change : α → β) (program : Program Call Answer ε α) :
    (∃ result, change <$> program = .done result) ↔ ∃ result, program = .done result := by
  constructor
  · rintro ⟨result, same⟩
    rcases map_eq_done same with ⟨returned, done, -⟩
    exact ⟨returned, done⟩
  · rintro ⟨result, rfl⟩
    exact ⟨change result, rfl⟩

namespace Environment

theorem run_map (environment : Environment σ ω Call Answer ε) (choice : ω) (change : α → β)
    (program : Program Call Answer ε α) (state : σ) :
    environment.run choice (change <$> program) state =
      ((environment.run choice program state).1.map change, (environment.run choice program state).2) := by
  induction program generalizing state with
  | done result => rfl
  | fail error => rfl
  | call request next ih => exact ih _ _

/-- Programs one after another, each alone from its first call to its last. -/
def serial (environment : Environment σ ω Call Answer ε) :
    List (ω × Program Call Answer ε α) → σ → List (Except ε α) × σ
  | [], state => ([], state)
  | (choice, program) :: programs, state =>
    let ran := environment.run choice program state
    let rest := environment.serial programs ran.2
    (ran.1 :: rest.1, rest.2)

theorem serial_snoc (environment : Environment σ ω Call Answer ε) (programs : List (ω × Program Call Answer ε α))
    (choice : ω) (program : Program Call Answer ε α) (state : σ) :
    environment.serial (programs ++ [(choice, program)]) state =
      ((environment.serial programs state).1 ++
          [(environment.run choice program (environment.serial programs state).2).1],
        (environment.run choice program (environment.serial programs state).2).2) := by
  induction programs generalizing state with
  | nil => rfl
  | cons first programs ih =>
    rw [List.cons_append, serial, serial, ih]
    rfl

end Environment

namespace Pool

variable [DecidableEq ι]

/-- The programs whose last call has been answered, in the order of these calls. -/
def ended (last : Exchange Call Answer ε → Bool) (trace : List (ι × Exchange Call Answer ε)) : List ι :=
  (trace.filter fun entry => last entry.2).map (·.1)

omit [DecidableEq ι] in
theorem ended_snoc (last : Exchange Call Answer ε → Bool) (trace : List (ι × Exchange Call Answer ε)) (index : ι)
    (exchange : Exchange Call Answer ε) :
    ended last (trace ++ [(index, exchange)]) = ended last trace ++ if last exchange then [index] else [] := by
  cases ends : last exchange <;> simp [ended, ends]

variable {environment : Environment σ ω Call Answer ε} {start : Pool σ ι Call Answer ε α}
  {allowed : Pool σ ι Call Answer ε α → ι × ω → Prop} {agree : σ → σ → Prop} {last : Exchange Call Answer ε → Bool}
  {chosen : List (Exchange Call Answer ε) → ω → Prop}

/-- Programs that do at their last call what they would do alone: on any state that agrees with the one they
    find there. Their other calls change nothing that matters. -/
structure Atomic (environment : Environment σ ω Call Answer ε) (start : Pool σ ι Call Answer ε α)
    (allowed : Pool σ ι Call Answer ε α → ι × ω → Prop) (agree : σ → σ → Prop)
    (last : Exchange Call Answer ε → Bool) (chosen : List (Exchange Call Answer ε) → ω → Prop) : Prop where
  quiet : ∀ {labels pool label after exchange}, (machine environment).Runs allowed start labels pool →
    allowed pool label → step environment pool label = some after → after.trace = pool.trace ++ [(label.1, exchange)] →
    last exchange = false → ∀ state, agree state pool.shared → agree state after.shared
  whole : ∀ {labels pool label after exchange}, (machine environment).Runs allowed start labels pool →
    allowed pool label → step environment pool label = some after → after.trace = pool.trace ++ [(label.1, exchange)] →
    last exchange = true → ∃ choice result, chosen (callsOf after.trace label.1) choice ∧
      after.thread label.1 = .done result ∧ ∀ state, agree state pool.shared →
        ∃ final, environment.run choice (start.thread label.1) state = (.ok result, final) ∧ agree final after.shared

/-- An order of the ended programs in which they give, one after another, the results and the state that they
    have given side by side. -/
structure Serialized (environment : Environment σ ω Call Answer ε) (start final : Pool σ ι Call Answer ε α)
    (agree : σ → σ → Prop) (last : Exchange Call Answer ε → Bool)
    (chosen : List (Exchange Call Answer ε) → ω → Prop) (order : List (ι × ω)) : Prop where
  ended : order.map (·.1) = Pool.ended last final.trace
  nodup : (order.map (·.1)).Nodup
  chosen : ∀ entry ∈ order, chosen (callsOf final.trace entry.1) entry.2
  results : ∃ values : List α, order.map (final.thread ·.1) = values.map .done ∧
    (environment.serial (order.map fun entry => (entry.2, start.thread entry.1)) start.shared).1 = values.map .ok
  state : agree (environment.serial (order.map fun entry => (entry.2, start.thread entry.1)) start.shared).2
    final.shared

namespace Serialized

variable {pool after : Pool σ ι Call Answer ε α} {order : List (ι × ω)} {label : ι × ω}
  {labels : List (ι × ω)} {exchange : Exchange Call Answer ε}

theorem nothing (begun : start.trace = []) (same : agree start.shared start.shared) :
    Serialized environment start start agree last chosen [] := by
  refine ⟨?_, List.nodup_nil, fun entry member => absurd member List.not_mem_nil, ⟨[], rfl, rfl⟩, same⟩
  rw [begun]
  rfl

theorem finished (serialized : Serialized environment start pool agree last chosen order) {entry : ι × ω}
    (member : entry ∈ order) : ∃ value, pool.thread entry.1 = .done value := by
  rcases serialized.results with ⟨values, threads, -⟩
  have listed : pool.thread entry.1 ∈ order.map (pool.thread ·.1) := List.mem_map.mpr ⟨entry, member, rfl⟩
  rw [threads] at listed
  rcases List.mem_map.mp listed with ⟨value, -, same⟩
  exact ⟨value, same.symm⟩

/-- A program that makes a call has not ended, so the step is none of an ended one. -/
theorem apart (serialized : Serialized environment start pool agree last chosen order)
    (taken : step environment pool label = some after) : ∀ entry ∈ order, entry.1 ≠ label.1 := by
  intro entry member same
  rcases serialized.finished member with ⟨value, done⟩
  rcases step_eq taken with ⟨request, next, waiting, -⟩
  rw [same, waiting] at done
  cases done

theorem untouched (serialized : Serialized environment start pool agree last chosen order)
    (taken : step environment pool label = some after) (traced : after.trace = pool.trace ++ [(label.1, exchange)]) :
    order.map (after.thread ·.1) = order.map (pool.thread ·.1) ∧
      ∀ entry ∈ order, callsOf after.trace entry.1 = callsOf pool.trace entry.1 := by
  have others := serialized.apart taken
  constructor
  · apply List.map_congr_left
    intro entry member
    rcases step_eq taken with ⟨request, next, waiting, rfl⟩
    exact Function.update_of_ne (others entry member) _ _
  · intro entry member
    rw [traced]
    simp [callsOf, Ne.symm (others entry member)]

theorem quiet (serialized : Serialized environment start pool agree last chosen order)
    (atomic : Atomic environment start allowed agree last chosen)
    (runs : (machine environment).Runs allowed start labels pool) (permitted : allowed pool label)
    (taken : step environment pool label = some after) (traced : after.trace = pool.trace ++ [(label.1, exchange)])
    (more : last exchange = false) : Serialized environment start after agree last chosen order := by
  rcases serialized.untouched taken traced with ⟨threads, calls⟩
  rcases serialized.results with ⟨values, done, returned⟩
  refine ⟨?_, serialized.nodup, fun entry member => ?_, ⟨values, threads.trans done, returned⟩,
    atomic.quiet runs permitted taken traced more _ serialized.state⟩
  · rw [traced, ended_snoc, more, serialized.ended]
    simp
  · rw [calls entry member]
    exact serialized.chosen entry member

theorem whole (serialized : Serialized environment start pool agree last chosen order)
    (atomic : Atomic environment start allowed agree last chosen)
    (runs : (machine environment).Runs allowed start labels pool) (permitted : allowed pool label)
    (taken : step environment pool label = some after) (traced : after.trace = pool.trace ++ [(label.1, exchange)])
    (ends : last exchange = true) :
    ∃ choice, Serialized environment start after agree last chosen (order ++ [(label.1, choice)]) := by
  rcases serialized.untouched taken traced with ⟨threads, calls⟩
  rcases serialized.results with ⟨values, done, returned⟩
  rcases atomic.whole runs permitted taken traced ends with ⟨choice, result, fits, stopped, alone⟩
  rcases alone _ serialized.state with ⟨final, ran, same⟩
  refine ⟨choice, ?_, ?_, fun entry member => ?_, ⟨values ++ [result], ?_, ?_⟩, ?_⟩
  · rw [traced, ended_snoc, ends, List.map_append, serialized.ended]
    rfl
  · rw [List.map_append, List.nodup_append]
    refine ⟨serialized.nodup, List.nodup_singleton _, ?_⟩
    intro index old other own
    rcases List.mem_map.mp old with ⟨entry, member, rfl⟩
    rw [List.mem_singleton.mp own]
    exact serialized.apart taken entry member
  · rcases List.mem_append.mp member with old | own
    · rw [calls entry old]
      exact serialized.chosen entry old
    · rw [List.mem_singleton.mp own]
      exact fits
  · rw [List.map_append, threads, done, List.map_append, List.map_singleton, stopped, List.map_singleton]
  · rw [List.map_append, List.map_singleton, Environment.serial_snoc, returned, ran, List.map_append,
      List.map_singleton]
  · rw [List.map_append, List.map_singleton, Environment.serial_snoc, ran]
    exact same

end Serialized

/-- Programs that run side by side and end atomically have done what they do one after another, in the order in
    which they have ended. -/
theorem serialized {final : Pool σ ι Call Answer ε α} {labels : List (ι × ω)} (begun : start.trace = [])
    (same : agree start.shared start.shared) (atomic : Atomic environment start allowed agree last chosen)
    (runs : (machine environment).Runs allowed start labels final) :
    ∃ order, Serialized environment start final agree last chosen order := by
  induction runs with
  | refl => exact ⟨[], .nothing begun same⟩
  | step past permitted taken ih =>
    rcases ih with ⟨order, serialized⟩
    rcases step_eq taken with ⟨request, next, waiting, result⟩
    have traced := congrArg Pool.trace result
    cases ends : last ⟨request, (environment.respond _ request _).1⟩ with
    | false => exact ⟨order, serialized.quiet atomic past permitted taken traced ends⟩
    | true =>
      rcases serialized.whole atomic past permitted taken traced ends with ⟨choice, longer⟩
      exact ⟨_, longer⟩

end Pool

end EventSourcing
