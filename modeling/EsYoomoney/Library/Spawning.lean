import EsYoomoney.Library.Program

namespace EventSourcing

namespace Pool

variable {σ ω Call ε α : Type} {Answer : Call → Type}

def launch (pool : Pool σ Nat Call Answer ε α) (index : Nat) (program : Program Call Answer ε α) :
    Pool σ Nat Call Answer ε α :=
  { pool with thread := Function.update pool.thread index program }

theorem launch_self (pool : Pool σ Nat Call Answer ε α) (index : Nat) (program : Program Call Answer ε α) :
    (pool.launch index program).thread index = program := Function.update_self _ _ _

theorem launch_of_ne (pool : Pool σ Nat Call Answer ε α) {index other : Nat} (program : Program Call Answer ε α)
    (apart : other ≠ index) : (pool.launch index program).thread other = pool.thread other :=
  Function.update_of_ne apart _ _

/-- A pool whose programs are launched one by one, beside one that has had them all from its start. -/
structure Agrees (programs : Nat → Program Call Answer ε α) (count : Nat) (growing whole : Pool σ Nat Call Answer ε α) :
    Prop where
  shared : growing.shared = whole.shared
  trace : growing.trace = whole.trace
  launched : ∀ index < count, growing.thread index = whole.thread index
  waiting : ∀ index, count ≤ index → whole.thread index = programs index
  absent : ∀ index, count ≤ index → (growing.thread index).Finished
  called : ∀ entry ∈ growing.trace, entry.1 < count

namespace Agrees

variable {programs : Nat → Program Call Answer ε α} {count : Nat} {growing whole after : Pool σ Nat Call Answer ε α}
  {environment : Environment σ ω Call Answer ε} {label : Nat × ω}

theorem nothing (shared : σ) (result : α) :
    Agrees programs 0 ⟨shared, fun _ => .done result, []⟩ ⟨shared, programs, []⟩ where
  shared := rfl
  trace := rfl
  launched _ below := absurd below (Nat.not_lt_zero _)
  waiting _ _ := rfl
  absent _ _ := True.intro
  called _ member := absurd member List.not_mem_nil

theorem launch (agrees : Agrees programs count growing whole) :
    Agrees programs (count + 1) (growing.launch count (programs count)) whole := by
  refine ⟨agrees.shared, agrees.trace, ?_, fun index above => agrees.waiting index (by omega), ?_,
    fun entry member => Nat.lt_succ_of_lt (agrees.called entry member)⟩
  · intro index below
    by_cases last : index = count
    · subst last
      rw [launch_self, agrees.waiting index (Nat.le_refl _)]
    · rw [launch_of_ne _ _ last]
      exact agrees.launched index (by omega)
  · intro index above
    rw [launch_of_ne _ _ (by omega)]
    exact agrees.absent index (by omega)

theorem running (agrees : Agrees programs count growing whole) {index : Nat} {request : Call}
    {next : Except ε (Answer request) → Program Call Answer ε α} (called : growing.thread index = .call request next) :
    index < count := by
  by_contra above
  have finished := agrees.absent index (by omega)
  rw [called] at finished
  exact finished

theorem step (agrees : Agrees programs count growing whole) (taken : step environment growing label = some after) :
    ∃ other, Pool.step environment whole label = some other ∧ Agrees programs count after other := by
  rcases step_eq taken with ⟨request, next, called, rfl⟩
  have running := agrees.running called
  have same := agrees.launched label.1 running
  rw [called] at same
  have answered : Pool.step environment whole label =
      some ⟨(environment.respond whole.shared request label.2).2,
        Function.update whole.thread label.1 (next (environment.respond whole.shared request label.2).1),
        whole.trace ++ [(label.1, ⟨request, (environment.respond whole.shared request label.2).1⟩)]⟩ := by
    rw [Pool.step, ← same]
  rw [agrees.shared, agrees.trace]
  refine ⟨_, answered, rfl, rfl, ?_, ?_, ?_, ?_⟩
  · intro index below
    dsimp only
    by_cases own : index = label.1
    · rw [own, Function.update_self, Function.update_self]
    · rw [Function.update_of_ne own, Function.update_of_ne own]
      exact agrees.launched index below
  · intro index above
    dsimp only
    rw [Function.update_of_ne (by omega)]
    exact agrees.waiting index above
  · intro index above
    dsimp only
    rw [Function.update_of_ne (by omega)]
    exact agrees.absent index above
  · intro entry member
    rcases List.mem_append.mp member with old | fresh
    · rw [← agrees.trace] at old
      exact agrees.called entry old
    · rw [List.mem_singleton.mp fresh]
      exact running

end Agrees

end Pool

end EventSourcing
