import EsYoomoney.Library.Program

namespace EventSourcing

variable {Call Note : Type} {Answer : Call → Type} {Reply : Note → Type} {ε α β σ ω ι : Type}

/-- The answers to code that makes notes between its calls. -/
abbrev Noted (Answer : Call → Type) (Reply : Note → Type) : Call ⊕ Note → Type
  | .inl request => Answer request
  | .inr entry => Reply entry

namespace Program

def noted : Program Call Answer ε α → Program (Call ⊕ Note) (Noted Answer Reply) ε α
  | done result => done result
  | fail error => fail error
  | call request next => call (.inl request) fun answer => (next answer).noted

def note (entry : Note) : Program (Call ⊕ Note) (Noted Answer Reply) ε (Reply entry) :=
  perform (Sum.inr entry)

/-- The code, and behind its end, whichever that is, the cleanup. -/
def ensuring (program : Program Call Answer ε α) (cleanup : Program Call Answer ε Unit) : Program Call Answer ε α :=
  match program with
  | done result => cleanup >>= fun _ => done result
  | fail error => cleanup >>= fun _ => fail error
  | call request next => call request fun answer => (next answer).ensuring cleanup

theorem noted_perform (request : Call) :
    ((perform request : Program Call Answer ε (Answer request)).noted :
      Program (Call ⊕ Note) (Noted Answer Reply) ε (Answer request)) = perform (Sum.inl request) := by
  refine congrArg (call (Sum.inl request)) (funext fun answer => ?_)
  cases answer <;> rfl

theorem noted_ofExcept (outcome : Except ε α) :
    ((ofExcept outcome : Program Call Answer ε α).noted : Program (Call ⊕ Note) (Noted Answer Reply) ε α) =
      ofExcept outcome := by
  cases outcome <;> rfl

theorem noted_bind (program : Program Call Answer ε α) (next : α → Program Call Answer ε β) :
    ((program >>= next).noted : Program (Call ⊕ Note) (Noted Answer Reply) ε β) =
      program.noted >>= fun result => (next result).noted := by
  induction program with
  | done result => rfl
  | fail error => rfl
  | call request rest ih => exact congrArg (call (Sum.inl request)) (funext ih)

/-- Code that keeps to its rules up to its end keeps to them with the cleanup behind it. -/
theorem Guarded.ensuring {program : Program Call Answer ε α} {cleanup : Program Call Answer ε Unit}
    {may : List (Exchange Call Answer ε) → Call → Prop} {inner ends : List (Exchange Call Answer ε) → Except ε α → Prop}
    {past : List (Exchange Call Answer ε)} (guarded : program.Guarded may inner past)
    (cleaned : ∀ calls outcome, inner calls outcome →
      (cleanup >>= fun _ => ofExcept outcome).Guarded may ends calls) :
    (program.ensuring cleanup).Guarded may ends past := by
  induction program generalizing past with
  | done result => exact cleaned _ _ guarded
  | fail error => exact cleaned _ _ guarded
  | call request next ih => exact ⟨guarded.1, fun answer => ih answer (guarded.2 answer)⟩

theorem Guarded.note_bind (entry : Note) {next : Reply entry → Program (Call ⊕ Note) (Noted Answer Reply) ε α}
    {may : List (Exchange (Call ⊕ Note) (Noted Answer Reply) ε) → Call ⊕ Note → Prop}
    {ends : List (Exchange (Call ⊕ Note) (Noted Answer Reply) ε) → Except ε α → Prop}
    {past : List (Exchange (Call ⊕ Note) (Noted Answer Reply) ε)} (allowed : may past (.inr entry))
    (fails : ∀ error, ends (past ++ [⟨.inr entry, .error error⟩]) (.error error))
    (goes : ∀ reply, (next reply).Guarded may ends (past ++ [⟨.inr entry, .ok reply⟩])) :
    (note entry >>= next).Guarded may ends past :=
  .perform_bind allowed fails goes

theorem guarded_noted (program : Program Call Answer ε α)
    (past : List (Exchange (Call ⊕ Note) (Noted Answer Reply) ε)) :
    program.noted.Guarded (fun _ call => ∃ request, call = .inl request) (fun _ _ => True) past := by
  induction program generalizing past with
  | done result => exact True.intro
  | fail error => exact True.intro
  | call request next ih => exact ⟨⟨request, rfl⟩, fun answer => ih answer _⟩

/-- Code that throws, whatever its notes are answered with. -/
def GivesUp : Program (Call ⊕ Note) (Noted Answer Reply) ε α → Prop
  | done _ => False
  | fail _ => True
  | call (.inl _) _ => False
  | call (.inr _) next => ∀ answer, (next answer).GivesUp

/-- The code without its notes: whatever a note is answered with, what is left does the same, and a note that fails
    ends the code. -/
inductive Erases : Program (Call ⊕ Note) (Noted Answer Reply) ε α → Program Call Answer ε α → Prop where
  | done (result : α) : Erases (done result) (done result)
  | fail (error : ε) : Erases (fail error) (fail error)
  | call {request : Call} {next : Except ε (Answer request) → Program (Call ⊕ Note) (Noted Answer Reply) ε α}
      {rest : Except ε (Answer request) → Program Call Answer ε α}
      (goes : ∀ answer, Erases (next answer) (rest answer)) : Erases (call (.inl request) next) (call request rest)
  | note {entry : Note} {next : Except ε (Reply entry) → Program (Call ⊕ Note) (Noted Answer Reply) ε α}
      {plain : Program Call Answer ε α} (goes : ∀ reply, Erases (next (.ok reply)) plain)
      (fails : ∀ error, (next (.error error)).GivesUp) : Erases (call (.inr entry) next) plain

theorem GivesUp.bind {program : Program (Call ⊕ Note) (Noted Answer Reply) ε α} (givesUp : program.GivesUp)
    (next : α → Program (Call ⊕ Note) (Noted Answer Reply) ε β) : (program >>= next).GivesUp := by
  induction program with
  | done result => exact givesUp.elim
  | fail error => exact True.intro
  | call request rest ih =>
    cases request with
    | inl request => exact givesUp.elim
    | inr entry => exact fun answer => ih answer (givesUp answer)

namespace Erases

theorem noted (program : Program Call Answer ε α) :
    (program.noted : Program (Call ⊕ Note) (Noted Answer Reply) ε α).Erases program := by
  induction program with
  | done result => exact .done result
  | fail error => exact .fail error
  | call request next ih => exact .call ih

theorem ofExcept (outcome : Except ε α) :
    (Program.ofExcept outcome : Program (Call ⊕ Note) (Noted Answer Reply) ε α).Erases (Program.ofExcept outcome) := by
  cases outcome with
  | error error => exact .fail error
  | ok result => exact .done result

theorem bind {program : Program (Call ⊕ Note) (Noted Answer Reply) ε α} {plain : Program Call Answer ε α}
    {next : α → Program (Call ⊕ Note) (Noted Answer Reply) ε β} {rest : α → Program Call Answer ε β}
    (first : program.Erases plain) (second : ∀ result, (next result).Erases (rest result)) :
    (program >>= next).Erases (plain >>= rest) := by
  induction first with
  | done result => exact second result
  | fail error => exact .fail error
  | call goes ih => exact .call ih
  | note goes fails ih => exact .note ih fun error => (fails error).bind next

theorem map {program : Program (Call ⊕ Note) (Noted Answer Reply) ε α} {plain : Program Call Answer ε α}
    (erases : program.Erases plain) (change : α → β) : (change <$> program).Erases (change <$> plain) := by
  rw [map_eq_pure_bind, map_eq_pure_bind]
  exact erases.bind fun result => .done (change result)

theorem note_bind (entry : Note) {next : Reply entry → Program (Call ⊕ Note) (Noted Answer Reply) ε α}
    {plain : Program Call Answer ε α} (goes : ∀ reply, (next reply).Erases plain) :
    (Program.note entry >>= next).Erases plain :=
  .note goes fun _ => True.intro

/-- Code without its notes is no longer there where it does nothing but make notes. -/
theorem skip {notes : Program (Call ⊕ Note) (Noted Answer Reply) ε Unit} (silent : notes.Erases (pure ()))
    {program : Program (Call ⊕ Note) (Noted Answer Reply) ε α} {plain : Program Call Answer ε α}
    (erases : program.Erases plain) : (notes >>= fun _ => program).Erases plain :=
  silent.bind fun _ => erases

theorem givesUp {cleanup : Program (Call ⊕ Note) (Noted Answer Reply) ε Unit} (silent : cleanup.Erases (pure ()))
    (error : ε) : (cleanup >>= fun _ => Program.fail error :
      Program (Call ⊕ Note) (Noted Answer Reply) ε α).GivesUp := by
  generalize nothing : (pure () : Program Call Answer ε Unit) = plain at silent
  induction silent with
  | done result => exact True.intro
  | fail error => exact True.intro
  | call goes ih => cases nothing
  | note goes fails ih =>
    intro answer
    cases answer with
    | error failure => exact (fails failure).bind _
    | ok reply => exact ih reply nothing

end Erases

theorem GivesUp.ensuring {program : Program (Call ⊕ Note) (Noted Answer Reply) ε α} (givesUp : program.GivesUp)
    {cleanup : Program (Call ⊕ Note) (Noted Answer Reply) ε Unit} (silent : cleanup.Erases (pure ())) :
    (program.ensuring cleanup).GivesUp := by
  induction program with
  | done result => exact givesUp.elim
  | fail error => exact silent.givesUp error
  | call request rest ih =>
    cases request with
    | inl request => exact givesUp.elim
    | inr other => exact fun answer => ih answer (givesUp answer)

theorem Erases.ensuring {program : Program (Call ⊕ Note) (Noted Answer Reply) ε α} {plain : Program Call Answer ε α}
    (erases : program.Erases plain) {cleanup : Program (Call ⊕ Note) (Noted Answer Reply) ε Unit}
    (silent : cleanup.Erases (pure ())) : (program.ensuring cleanup).Erases plain := by
  induction erases with
  | done result => exact silent.skip (.done result)
  | fail error => exact silent.skip (.fail error)
  | call goes ih => exact .call ih
  | note goes fails ih => exact .note ih fun error => (fails error).ensuring silent

theorem Erases.called {program : Program (Call ⊕ Note) (Noted Answer Reply) ε α} {request : Call}
    {rest : Except ε (Answer request) → Program Call Answer ε α} (erases : program.Erases (Program.call request rest))
    (settled : ∀ entry next, program ≠ Program.call (.inr entry) next) :
    ∃ next, program = Program.call (.inl request) next ∧ ∀ answer, (next answer).Erases (rest answer) := by
  cases erases with
  | call goes => exact ⟨_, rfl, goes⟩
  | note goes fails => exact absurd rfl (settled _ _)

end Program

/-- The surroundings of code with notes: what a note is answered with is for the outside to say. -/
def Environment.noting (environment : Environment σ ω Call Answer ε) (Reply : Note → Type) :
    Environment σ (ω × ((entry : Note) → Except ε (Reply entry))) (Call ⊕ Note) (Noted Answer Reply) ε where
  respond
    | state, .inl request, choice => environment.respond state request choice.1
    | state, .inr entry, choice => (choice.2 entry, state)

def Exchange.plain : Exchange (Call ⊕ Note) (Noted Answer Reply) ε → Option (Exchange Call Answer ε)
  | ⟨.inl request, answer⟩ => some ⟨request, answer⟩
  | ⟨.inr _, _⟩ => none

def plainTrace (trace : List (ι × Exchange (Call ⊕ Note) (Noted Answer Reply) ε)) : List (ι × Exchange Call Answer ε) :=
  trace.filterMap fun made => made.2.plain.map (made.1, ·)

theorem mem_plainTrace {trace : List (ι × Exchange (Call ⊕ Note) (Noted Answer Reply) ε)} {index : ι} {request : Call}
    {answer : Except ε (Answer request)} :
    (index, ⟨request, answer⟩) ∈ plainTrace trace ↔ (index, ⟨.inl request, answer⟩) ∈ trace := by
  unfold plainTrace
  rw [List.mem_filterMap]
  constructor
  · rintro ⟨⟨other, ⟨asked, replied⟩⟩, member, same⟩
    cases asked with
    | inl asked =>
      cases same
      exact member
    | inr entry => cases same
  · intro member
    exact ⟨_, member, rfl⟩

namespace Pool

/-- Where a program with notes is while the same program without them is at `plain`, or what made it give up. -/
def Silenced (trace : List (ι × Exchange (Call ⊕ Note) (Noted Answer Reply) ε)) (index : ι)
    (left : Program (Call ⊕ Note) (Noted Answer Reply) ε α) (plain : Program Call Answer ε α) : Prop :=
  left.Erases plain ∨ (left.GivesUp ∧ ∃ entry error, (index, ⟨.inr entry, .error error⟩) ∈ trace)

theorem Silenced.append {trace : List (ι × Exchange (Call ⊕ Note) (Noted Answer Reply) ε)} {index : ι}
    {left : Program (Call ⊕ Note) (Noted Answer Reply) ε α} {plain : Program Call Answer ε α}
    (silenced : Silenced trace index left plain) (later : List (ι × Exchange (Call ⊕ Note) (Noted Answer Reply) ε)) :
    Silenced (trace ++ later) index left plain := by
  rcases silenced with same | ⟨givesUp, entry, error, member⟩
  · exact Or.inl same
  · exact Or.inr ⟨givesUp, entry, error, List.mem_append_left _ member⟩

/-- A pool of programs with notes beside the pool of the same programs without them. -/
structure Mirrors (noting : Pool σ ι (Call ⊕ Note) (Noted Answer Reply) ε α) (plain : Pool σ ι Call Answer ε α) :
    Prop where
  shared : plain.shared = noting.shared
  trace : plain.trace = plainTrace noting.trace
  thread : ∀ index, Silenced noting.trace index (noting.thread index) (plain.thread index)

def Unfailing (trace : List (ι × Exchange (Call ⊕ Note) (Noted Answer Reply) ε)) : Prop :=
  ∀ index entry error, (index, ⟨.inr entry, .error error⟩) ∉ trace

namespace Mirrors

variable {noting after start final : Pool σ ι (Call ⊕ Note) (Noted Answer Reply) ε α}
  {plain begin other : Pool σ ι Call Answer ε α} {environment : Environment σ ω Call Answer ε} {index : ι}

theorem initial (shared : σ) {programs : ι → Program (Call ⊕ Note) (Noted Answer Reply) ε α}
    {plains : ι → Program Call Answer ε α} (erases : ∀ index, (programs index).Erases (plains index)) :
    Mirrors ⟨shared, programs, []⟩ ⟨shared, plains, []⟩ :=
  ⟨rfl, rfl, fun index => Or.inl (erases index)⟩

theorem calling (mirrors : Mirrors noting plain) {request : Call}
    {next : Except ε (Answer request) → Program (Call ⊕ Note) (Noted Answer Reply) ε α}
    (waiting : noting.thread index = .call (.inl request) next) :
    ∃ rest, plain.thread index = .call request rest ∧ ∀ answer, (next answer).Erases (rest answer) := by
  have silenced := mirrors.thread index
  rw [waiting] at silenced
  generalize plain.thread index = program at silenced ⊢
  rcases silenced with erases | ⟨givesUp, -⟩
  · cases erases with
    | call goes => exact ⟨_, rfl, goes⟩
  · exact givesUp.elim

variable [DecidableEq ι]

theorem call (mirrors : Mirrors noting plain) (index : ι) {request : Call}
    (next : Except ε (Answer request) → Program (Call ⊕ Note) (Noted Answer Reply) ε α)
    {rest : Except ε (Answer request) → Program Call Answer ε α}
    (erases : ∀ answer, (next answer).Erases (rest answer)) (shared : σ) (answer : Except ε (Answer request)) :
    Mirrors ⟨shared, Function.update noting.thread index (next answer),
        noting.trace ++ [(index, ⟨.inl request, answer⟩)]⟩
      ⟨shared, Function.update plain.thread index (rest answer), plain.trace ++ [(index, ⟨request, answer⟩)]⟩ := by
  refine ⟨rfl, ?_, fun other => ?_⟩
  · simp only [plainTrace, List.filterMap_append, mirrors.trace]
    rfl
  · dsimp only
    by_cases own : other = index
    · subst own
      rw [Function.update_self, Function.update_self]
      exact Or.inl (erases answer)
    · rw [Function.update_of_ne own, Function.update_of_ne own]
      exact (mirrors.thread other).append _

theorem note (mirrors : Mirrors noting plain) {entry : Note}
    {next : Except ε (Reply entry) → Program (Call ⊕ Note) (Noted Answer Reply) ε α}
    (waiting : noting.thread index = .call (.inr entry) next) (answer : Except ε (Reply entry)) :
    Mirrors ⟨noting.shared, Function.update noting.thread index (next answer),
      noting.trace ++ [(index, ⟨.inr entry, answer⟩)]⟩ plain := by
  refine ⟨mirrors.shared, ?_, fun other => ?_⟩
  · simp only [plainTrace, List.filterMap_append, mirrors.trace]
    exact (List.append_nil _).symm
  · dsimp only
    by_cases own : other = index
    · subst own
      have silenced := mirrors.thread other
      rw [waiting] at silenced
      rw [Function.update_self]
      generalize plain.thread other = program at silenced ⊢
      rcases silenced with erases | ⟨givesUp, failed, error, member⟩
      · cases erases with
        | note goes fails =>
          cases answer with
          | error error => exact Or.inr ⟨fails error, entry, error, by simp⟩
          | ok reply => exact Or.inl (goes reply)
      · exact Or.inr ⟨givesUp answer, failed, error, List.mem_append_left _ member⟩
    · rw [Function.update_of_ne own]
      exact (mirrors.thread other).append _

/-- A call is made by both, a note only by the programs that make notes. -/
theorem step {label : ι × ω × ((entry : Note) → Except ε (Reply entry))} (mirrors : Mirrors noting plain)
    (taken : step (environment.noting Reply) noting label = some after) :
    Mirrors after plain ∨ ∃ other, Pool.step environment plain (label.1, label.2.1) = some other ∧
      Mirrors after other := by
  rcases step_eq taken with ⟨request, next, waiting, rfl⟩
  cases request with
  | inl request =>
    rcases mirrors.calling waiting with ⟨rest, plainly, erases⟩
    have called := mirrors.call label.1 next erases (environment.respond noting.shared request label.2.1).2
      (environment.respond noting.shared request label.2.1).1
    refine Or.inr ⟨_, ?_, called⟩
    rw [Pool.step, plainly, mirrors.shared]
  | inr entry => exact Or.inl (mirrors.note waiting (label.2.2 entry))

theorem runs {labels : List (ι × ω × ((entry : Note) → Except ε (Reply entry)))}
    {allowed : Pool σ ι (Call ⊕ Note) (Noted Answer Reply) ε α →
      ι × ω × ((entry : Note) → Except ε (Reply entry)) → Prop} (initial : Mirrors start begin)
    (runs : (machine (environment.noting Reply)).Runs allowed start labels final) :
    ∃ names plain, (machine environment).Runs Machine.anyStep begin names plain ∧ Mirrors final plain := by
  refine runs.simulated initial ?_
  intro before label after other mirrors _ taken
  rcases mirrors.step taken with still | ⟨next, moved, follows⟩
  · exact Or.inl still
  · exact Or.inr ⟨_, next, True.intro, moved, follows⟩

/-- A program can make the notes that stand before its next call. -/
theorem settle (environment : Environment σ ω Call Answer ε) (reply : (entry : Note) → Reply entry) (choice : ω)
    (index : ι) (mirrors : Mirrors noting plain) (unfailing : Unfailing noting.trace) :
    ∃ labels after, (machine (environment.noting Reply)).Runs Machine.anyStep noting labels after ∧
      Mirrors after plain ∧ Unfailing after.trace ∧ ∀ entry next, after.thread index ≠ .call (.inr entry) next := by
  generalize here : noting.thread index = program
  induction program generalizing noting with
  | done result => exact ⟨[], noting, .refl, mirrors, unfailing, fun _ _ same => by cases here.symm.trans same⟩
  | fail error => exact ⟨[], noting, .refl, mirrors, unfailing, fun _ _ same => by cases here.symm.trans same⟩
  | call request next ih =>
    cases request with
    | inl request => exact ⟨[], noting, .refl, mirrors, unfailing, fun _ _ same => by cases here.symm.trans same⟩
    | inr entry =>
      have kept : Unfailing (noting.trace ++ [(index, ⟨.inr entry, .ok (reply entry)⟩)]) := by
        intro other failed error member
        rcases List.mem_append.mp member with old | new
        · exact unfailing other failed error old
        · rw [List.mem_singleton] at new
          cases new
      obtain ⟨labels, after, runs, settled⟩ :=
        ih (.ok (reply entry)) (mirrors.note here (.ok (reply entry))) kept (Function.update_self _ _ _)
      have taken : Pool.step (environment.noting Reply) noting (index, choice, fun entry => .ok (reply entry)) = some
          ⟨noting.shared, Function.update noting.thread index (next (.ok (reply entry))),
            noting.trace ++ [(index, ⟨.inr entry, .ok (reply entry)⟩)]⟩ := by
        rw [Pool.step, here]
        rfl
      have first : (machine (environment.noting Reply)).Runs Machine.anyStep noting
          [(index, choice, fun entry => .ok (reply entry))] _ := .step .refl True.intro taken
      exact ⟨_, after, first.append runs, settled⟩

theorem answered (reply : (entry : Note) → Reply entry) {label : ι × ω} (mirrors : Mirrors noting plain)
    (unfailing : Unfailing noting.trace) (taken : Pool.step environment plain label = some other) :
    ∃ labels after, (machine (environment.noting Reply)).Runs Machine.anyStep noting labels after ∧
      Mirrors after other ∧ Unfailing after.trace := by
  obtain ⟨labels, ready, runs, mirrors, unfailing, settled⟩ :=
    settle environment reply label.2 label.1 mirrors unfailing
  rcases step_eq taken with ⟨request, rest, waiting, rfl⟩
  have silenced := mirrors.thread label.1
  rw [waiting] at silenced
  rcases silenced with erases | ⟨-, entry, error, member⟩
  · rcases erases.called settled with ⟨next, called, goes⟩
    generalize replied : environment.respond plain.shared request label.2 = response at taken ⊢
    have moved : Pool.step (environment.noting Reply) ready (label.1, label.2, fun entry => .ok (reply entry)) =
        some ⟨response.2, Function.update ready.thread label.1 (next response.1),
          ready.trace ++ [(label.1, ⟨.inl request, response.1⟩)]⟩ := by
      rw [← replied, mirrors.shared, Pool.step, called]
      rfl
    refine ⟨_, _, runs.step True.intro moved, mirrors.call label.1 next goes response.2 response.1, ?_⟩
    intro index entry error member
    rcases List.mem_append.mp member with old | new
    · exact unfailing index entry error old
    · simp at new
  · exact absurd member (unfailing _ _ _)

/-- What the programs do without their notes they do with them, as long as no note fails. -/
theorem echoed (reply : (entry : Note) → Reply entry) {labels : List (ι × ω)}
    {allowed : Pool σ ι Call Answer ε α → ι × ω → Prop} (initial : Mirrors noting begin)
    (unfailing : Unfailing noting.trace) (runs : (machine environment).Runs allowed begin labels plain) :
    ∃ names after, (machine (environment.noting Reply)).Runs Machine.anyStep noting names after ∧
      Mirrors after plain ∧ Unfailing after.trace := by
  induction runs with
  | refl => exact ⟨[], noting, .refl, initial, unfailing⟩
  | step past permitted taken ih =>
    obtain ⟨names, before, reached, mirrors, unfailing⟩ := ih
    obtain ⟨later, after, moved, echoed⟩ := mirrors.answered reply unfailing taken
    exact ⟨_, after, reached.append moved, echoed⟩

end Mirrors

end Pool

end EventSourcing
