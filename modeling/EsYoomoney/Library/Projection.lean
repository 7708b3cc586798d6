import EsYoomoney.Library.Program

namespace EventSourcing

variable {Call : Type} {Answer : Call → Type} {ε α σ τ ω ι : Type}

/-- What is left of one program in two places: the same, or nothing but the errors it has thrown there. -/
def Program.Alike (left right : Program Call Answer ε α) : Prop :=
  left = right ∨ (∃ error, left = .fail error) ∧ ∃ error, right = .fail error

theorem Program.Alike.waiting {left right : Program Call Answer ε α} {request : Call}
    {next : Except ε (Answer request) → Program Call Answer ε α} (alike : left.Alike right)
    (called : left = .call request next) : right = .call request next := by
  rcases alike with same | ⟨⟨error, thrown⟩, -⟩
  · exact same.symm.trans called
  · rw [called] at thrown
    cases thrown

namespace Pool

/-- Some programs of a pool, beside the same programs of another pool. -/
structure Beside (selected : ι → Bool) (related : σ → τ → Prop) (whole : Pool σ ι Call Answer ε α)
    (part : Pool τ ι Call Answer ε α) : Prop where
  threads : ∀ index, selected index = true → (whole.thread index).Alike (part.thread index)
  shared : related whole.shared part.shared

variable [DecidableEq ι]

/-- The selected programs do not notice the others, nor which of the two surroundings they are in. -/
structure Projects (whole : Environment σ ω Call Answer ε) (part : Environment τ ω Call Answer ε)
    (selected : ι → Bool) (related : σ → τ → Prop) (start : Pool σ ι Call Answer ε α)
    (begin : Pool τ ι Call Answer ε α) : Prop where
  hidden : ∀ {labels pool label after other}, (machine whole).Runs Machine.anyStep start labels pool →
    step whole pool label = some after → selected label.1 = false → related pool.shared other →
    related after.shared other
  answered : ∀ {labels others pool other index request next} choice,
    (machine whole).Runs Machine.anyStep start labels pool → (machine part).Runs Machine.anyStep begin others other →
    related pool.shared other.shared → selected index = true → pool.thread index = .call request next →
    other.thread index = .call request next →
    related (whole.respond pool.shared request choice).2 (part.respond other.shared request choice).2 ∧
      (next (whole.respond pool.shared request choice).1).Alike (next (part.respond other.shared request choice).1)

variable {whole : Environment σ ω Call Answer ε} {part : Environment τ ω Call Answer ε} {selected : ι → Bool}
  {related : σ → τ → Prop} {start final : Pool σ ι Call Answer ε α} {begin : Pool τ ι Call Answer ε α}
  {labels : List (ι × ω)}

/-- Of a run, the selected programs' steps alone are a run too, and these programs end alike in both. -/
theorem projected (begun : Beside selected related start begin)
    (projects : Projects whole part selected related start begin)
    (runs : (machine whole).Runs Machine.anyStep start labels final) :
    ∃ alone, (machine part).Runs Machine.anyStep begin (labels.filter fun label => selected label.1) alone ∧
      Beside selected related final alone := by
  induction runs with
  | refl => exact ⟨begin, .refl, begun⟩
  | @step labels pool label after past permitted taken ih =>
    rcases ih with ⟨alone, reached, beside⟩
    rcases step_eq taken with ⟨request, next, waiting, result⟩
    rw [List.filter_append]
    cases chosen : selected label.1 with
    | false =>
      refine ⟨alone, by simpa [chosen] using reached, fun index mine => ?_,
        projects.hidden past taken chosen beside.shared⟩
      have other : index ≠ label.1 := by
        rintro rfl
        rw [chosen] at mine
        cases mine
      rw [result]
      dsimp only
      rw [Function.update_of_ne other]
      exact beside.threads index mine
    | true =>
      have here := (beside.threads label.1 chosen).waiting waiting
      obtain ⟨related, alike⟩ := projects.answered label.2 past reached beside.shared chosen waiting here
      have stepped : step part alone label = some ⟨(part.respond alone.shared request label.2).2,
          Function.update alone.thread label.1 (next (part.respond alone.shared request label.2).1),
          alone.trace ++ [(label.1, ⟨request, (part.respond alone.shared request label.2).1⟩)]⟩ := by
        rw [step, here]
      have moved := reached.step (show Machine.anyStep alone label from True.intro) stepped
      refine ⟨_, by simpa [chosen] using moved, fun index mine => ?_, ?_⟩
      · rw [result]
        dsimp only
        by_cases own : index = label.1
        · subst own
          rw [Function.update_self, Function.update_self]
          exact alike
        · rw [Function.update_of_ne own, Function.update_of_ne own]
          exact beside.threads index mine
      · rw [result]
        exact related

end Pool

end EventSourcing
