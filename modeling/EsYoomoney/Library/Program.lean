import EsYoomoney.Library.Machine
import Mathlib.Logic.Function.Basic

namespace EventSourcing

/-- Code between calls to its surroundings: it returns, throws, or calls and goes on with the answer. -/
inductive Program (Call : Type) (Answer : Call → Type) (ε α : Type) where
  | done (result : α)
  | fail (error : ε)
  | call (request : Call) (next : Except ε (Answer request) → Program Call Answer ε α)

structure Exchange (Call : Type) (Answer : Call → Type) (ε : Type) where
  request : Call
  answer : Except ε (Answer request)

variable {Call : Type} {Answer : Call → Type} {ε α β σ ω ι : Type}

namespace Program

def bind : Program Call Answer ε α → (α → Program Call Answer ε β) → Program Call Answer ε β
  | done result, next => next result
  | fail error, _ => fail error
  | call request rest, next => call request fun answer => (rest answer).bind next

instance : Monad (Program Call Answer ε) where
  pure := done
  bind := bind

theorem bind_done (program : Program Call Answer ε α) : program.bind done = program := by
  induction program with
  | done result => rfl
  | fail error => rfl
  | call request next ih => exact congrArg (call request) (funext ih)

theorem bind_bind {γ : Type} (program : Program Call Answer ε α) (first : α → Program Call Answer ε β)
    (second : β → Program Call Answer ε γ) :
    (program.bind first).bind second = program.bind fun result => (first result).bind second := by
  induction program with
  | done result => rfl
  | fail error => rfl
  | call request next ih => exact congrArg (call request) (funext ih)

instance : LawfulMonad (Program Call Answer ε) := LawfulMonad.mk' _ bind_done (fun _ _ => rfl) bind_bind

def ofExcept : Except ε α → Program Call Answer ε α
  | .ok result => done result
  | .error error => fail error

theorem ofExcept_ok_bind (result : α) (next : α → Program Call Answer ε β) :
    ofExcept (.ok result) >>= next = next result := rfl

def perform (request : Call) : Program Call Answer ε (Answer request) := call request ofExcept

def Finished : Program Call Answer ε α → Prop
  | call _ _ => False
  | _ => True

instance (program : Program Call Answer ε α) : Decidable program.Finished :=
  match program with
  | done _ => isTrue True.intro
  | fail _ => isTrue True.intro
  | call _ _ => isFalse id

/-- What holds of the call that the code waits for, if it waits for one. -/
def Awaits (property : Call → Prop) : Program Call Answer ε α → Prop
  | call request _ => property request
  | _ => True

instance (property : Call → Prop) [DecidablePred property] (program : Program Call Answer ε α) :
    Decidable (program.Awaits property) :=
  match program with
  | done _ => isTrue True.intro
  | fail _ => isTrue True.intro
  | call request _ => inferInstanceAs (Decidable (property request))

theorem Awaits.called {property : Call → Prop} {program : Program Call Answer ε α} (awaits : program.Awaits property)
    {request : Call} {next : Except ε (Answer request) → Program Call Answer ε α}
    (waiting : program = call request next) : property request := by
  subst waiting
  exact awaits

/-- The code that is left after some calls have been answered. -/
inductive Follows : Program Call Answer ε α → List (Exchange Call Answer ε) → Program Call Answer ε α → Prop where
  | nil {program} : Follows program [] program
  | cons {request next answer exchanges rest} (later : Follows (next answer) exchanges rest) :
      Follows (call request next) (⟨request, answer⟩ :: exchanges) rest

theorem map_eq_call {change : β → α} {inner : Program Call Answer ε β} {request : Call}
    {next : Except ε (Answer request) → Program Call Answer ε α} (same : change <$> inner = call request next) :
    ∃ rest, inner = call request rest := by
  cases inner with
  | done result => cases same
  | fail error => cases same
  | call asked rest =>
    cases same
    exact ⟨rest, rfl⟩

theorem map_eq_done {change : β → α} {inner : Program Call Answer ε β} {result : α}
    (same : change <$> inner = done result) : ∃ returned, inner = done returned ∧ change returned = result := by
  cases inner with
  | done returned =>
    cases same
    exact ⟨returned, rfl, rfl⟩
  | fail error => cases same
  | call asked rest => cases same

theorem map_eq_fail {change : β → α} {inner : Program Call Answer ε β} {error : ε}
    (same : change <$> inner = fail error) : inner = fail error := by
  cases inner with
  | done returned => cases same
  | fail thrown =>
    cases same
    rfl
  | call asked rest => cases same

namespace Follows

variable {program rest : Program Call Answer ε α} {exchanges : List (Exchange Call Answer ε)} {request : Call}
  {next : Except ε (Answer request) → Program Call Answer ε α}

theorem snoc (follows : Follows program exchanges (call request next)) (answer : Except ε (Answer request)) :
    Follows program (exchanges ++ [⟨request, answer⟩]) (next answer) := by
  generalize left : call request next = waiting at follows
  induction follows with
  | nil =>
    subst left
    exact .cons .nil
  | cons later ih => exact .cons (ih left)

theorem of_done {result : α} (follows : Follows (done result) exchanges rest) :
    exchanges = [] ∧ rest = done result := by
  cases follows
  exact ⟨rfl, rfl⟩

theorem of_fail {error : ε} (follows : Follows (fail error) exchanges rest) :
    exchanges = [] ∧ rest = fail error := by
  cases follows
  exact ⟨rfl, rfl⟩

theorem of_perform {continuation : Answer request → Program Call Answer ε α}
    (follows : Follows (perform request >>= continuation) exchanges rest) :
    (exchanges = [] ∧ ∃ next, rest = call request next) ∨
      (∃ error, exchanges = [⟨request, .error error⟩] ∧ rest = fail error) ∨
      ∃ answer later, exchanges = ⟨request, .ok answer⟩ :: later ∧ Follows (continuation answer) later rest := by
  cases follows with
  | nil => exact Or.inl ⟨rfl, _, rfl⟩
  | @cons _ _ answer _ _ later =>
    cases answer with
    | error error =>
      rcases of_fail later with ⟨rfl, rfl⟩
      exact Or.inr (Or.inl ⟨error, rfl, rfl⟩)
    | ok answer => exact Or.inr (Or.inr ⟨answer, _, rfl, later⟩)

theorem of_ofExcept {outcome : Except ε β} {continuation : β → Program Call Answer ε α}
    (follows : Follows (ofExcept outcome >>= continuation) exchanges rest) :
    (∃ error, outcome = .error error ∧ exchanges = [] ∧ rest = fail error) ∨
      ∃ result, outcome = .ok result ∧ Follows (continuation result) exchanges rest := by
  cases outcome with
  | error error => exact Or.inl ⟨error, rfl, of_fail follows⟩
  | ok result => exact Or.inr ⟨result, rfl, follows⟩

theorem of_map {change : β → α} {inner : Program Call Answer ε β}
    (follows : Follows (change <$> inner) exchanges rest) :
    ∃ left, Follows inner exchanges left ∧ rest = change <$> left := by
  induction inner generalizing exchanges with
  | done result =>
    rcases of_done follows with ⟨rfl, rfl⟩
    exact ⟨_, .nil, rfl⟩
  | fail error =>
    rcases of_fail follows with ⟨rfl, rfl⟩
    exact ⟨_, .nil, rfl⟩
  | call request next ih =>
    cases follows with
    | nil => exact ⟨_, .nil, rfl⟩
    | cons later =>
      rcases ih _ later with ⟨left, followed, same⟩
      exact ⟨left, .cons followed, same⟩

end Follows

/-- Every call is one that the calls before it allow, and so is the end. -/
def Guarded (may : List (Exchange Call Answer ε) → Call → Prop)
    (ends : List (Exchange Call Answer ε) → Except ε α → Prop) :
    List (Exchange Call Answer ε) → Program Call Answer ε α → Prop
  | past, done result => ends past (.ok result)
  | past, fail error => ends past (.error error)
  | past, call request next => may past request ∧ ∀ answer, (next answer).Guarded may ends (past ++ [⟨request, answer⟩])

namespace Guarded

variable {program rest : Program Call Answer ε α} {may : List (Exchange Call Answer ε) → Call → Prop}
  {ends : List (Exchange Call Answer ε) → Except ε α → Prop} {past exchanges : List (Exchange Call Answer ε)}

theorem follows (guarded : program.Guarded may ends past) (follows : Follows program exchanges rest) :
    rest.Guarded may ends (past ++ exchanges) := by
  induction follows generalizing past with
  | nil =>
    rw [List.append_nil]
    exact guarded
  | cons later ih => simpa using ih (guarded.2 _)

theorem perform_bind {request : Call} {next : Answer request → Program Call Answer ε α} (allowed : may past request)
    (fails : ∀ error, ends (past ++ [⟨request, .error error⟩]) (.error error))
    (goes : ∀ answer, (next answer).Guarded may ends (past ++ [⟨request, .ok answer⟩])) :
    (perform request >>= next).Guarded may ends past := by
  refine ⟨allowed, fun answer => ?_⟩
  cases answer with
  | error error => exact fails error
  | ok answer => exact goes answer

theorem ofExcept_bind {outcome : Except ε β} {next : β → Program Call Answer ε α}
    (fails : ∀ error, outcome = .error error → ends past (.error error))
    (goes : ∀ result, outcome = .ok result → (next result).Guarded may ends past) :
    (ofExcept outcome >>= next).Guarded may ends past := by
  cases outcome with
  | error error => exact fails error rfl
  | ok result => exact goes result rfl

theorem called (guarded : program.Guarded may ends past) (follows : Follows program exchanges rest)
    {before after : List (Exchange Call Answer ε)} {exchange : Exchange Call Answer ε}
    (made : exchanges = before ++ exchange :: after) : may (past ++ before) exchange.request := by
  induction follows generalizing past before with
  | nil => exact absurd made (by simp)
  | cons later ih =>
    cases before with
    | nil =>
      cases made
      rw [List.append_nil]
      exact guarded.1
    | cons first before =>
      cases made
      simpa using ih (guarded.2 _) rfl

end Guarded

end Program

/-- How the surroundings answer a call; what they decide themselves is in `ω`. -/
structure Environment (σ ω Call : Type) (Answer : Call → Type) (ε : Type) where
  respond : σ → (request : Call) → ω → Except ε (Answer request) × σ

def Environment.run (environment : Environment σ ω Call Answer ε) (choice : ω) :
    Program Call Answer ε α → σ → Except ε α × σ
  | .done result, state => (.ok result, state)
  | .fail error, state => (.error error, state)
  | .call request next, state =>
    let response := environment.respond state request choice
    environment.run choice (next response.1) response.2

theorem Environment.run_perform (environment : Environment σ ω Call Answer ε) (choice : ω) (request : Call)
    (next : Answer request → Program Call Answer ε α) (state : σ) :
    environment.run choice (Program.perform request >>= next) state =
      match environment.respond state request choice with
      | (.ok answer, after) => environment.run choice (next answer) after
      | (.error error, after) => (.error error, after) := by
  have called : environment.run choice (Program.perform request >>= next) state =
      environment.run choice (Program.ofExcept (environment.respond state request choice).1 >>= next)
        (environment.respond state request choice).2 := rfl
  rw [called]
  rcases environment.respond state request choice with ⟨answer, after⟩
  cases answer <;> rfl

/-- Programs that run side by side on shared state, one call at a time, with the calls made so far. -/
structure Pool (σ ι Call : Type) (Answer : Call → Type) (ε α : Type) where
  shared : σ
  thread : ι → Program Call Answer ε α
  trace : List (ι × Exchange Call Answer ε)

def callsOf [DecidableEq ι] (trace : List (ι × Exchange Call Answer ε)) (index : ι) : List (Exchange Call Answer ε) :=
  (trace.filter (·.1 = index)).map (·.2)

theorem callsOf_append [DecidableEq ι] (left right : List (ι × Exchange Call Answer ε)) (index : ι) :
    callsOf (left ++ right) index = callsOf left index ++ callsOf right index := by
  simp [callsOf]

theorem mem_callsOf [DecidableEq ι] {trace : List (ι × Exchange Call Answer ε)} {index : ι}
    {exchange : Exchange Call Answer ε} : exchange ∈ callsOf trace index ↔ (index, exchange) ∈ trace := by
  simp [callsOf]

namespace Pool

variable [DecidableEq ι]

def step (environment : Environment σ ω Call Answer ε) (pool : Pool σ ι Call Answer ε α) (label : ι × ω) :
    Option (Pool σ ι Call Answer ε α) :=
  match pool.thread label.1 with
  | .call request next =>
    let response := environment.respond pool.shared request label.2
    some ⟨response.2, Function.update pool.thread label.1 (next response.1),
      pool.trace ++ [(label.1, ⟨request, response.1⟩)]⟩
  | _ => none

def machine (environment : Environment σ ω Call Answer ε) : Machine (Pool σ ι Call Answer ε α) (ι × ω) :=
  ⟨step environment⟩

theorem step_eq {environment : Environment σ ω Call Answer ε} {pool after : Pool σ ι Call Answer ε α} {label : ι × ω}
    (taken : step environment pool label = some after) :
    ∃ request next, pool.thread label.1 = .call request next ∧
      after = ⟨(environment.respond pool.shared request label.2).2,
        Function.update pool.thread label.1 (next (environment.respond pool.shared request label.2).1),
        pool.trace ++ [(label.1, ⟨request, (environment.respond pool.shared request label.2).1⟩)]⟩ := by
  unfold step at taken
  split at taken
  · rename_i request next waiting
    cases taken
    exact ⟨request, next, waiting, rfl⟩
  · cases taken

variable {environment : Environment σ ω Call Answer ε} {start final : Pool σ ι Call Answer ε α}
  {allowed : Pool σ ι Call Answer ε α → ι × ω → Prop} {labels : List (ι × ω)}

theorem follows (begun : start.trace = []) (runs : (machine environment).Runs allowed start labels final) (index : ι) :
    (start.thread index).Follows (callsOf final.trace index) (final.thread index) := by
  induction runs with
  | refl =>
    rw [begun]
    exact .nil
  | step past permitted taken ih =>
    rcases step_eq taken with ⟨request, next, waiting, rfl⟩
    rename_i label
    dsimp only
    by_cases same : index = label.1
    · subst same
      rw [Function.update_self]
      rw [waiting] at ih
      simpa [callsOf] using ih.snoc (environment.respond _ request label.2).1
    · rw [Function.update_of_ne same]
      simpa [callsOf, Ne.symm same] using ih

/-- The step of a run that made a recorded call, with the states before and after it. -/
structure Moment (environment : Environment σ ω Call Answer ε) (allowed : Pool σ ι Call Answer ε α → ι × ω → Prop)
    (start final : Pool σ ι Call Answer ε α) (labels : List (ι × ω)) (earlier : List (ι × Exchange Call Answer ε))
    (index : ι) (exchange : Exchange Call Answer ε) (choice : ω) (middle after : Pool σ ι Call Answer ε α) : Prop where
  run : ∃ past rest, labels = past ++ (index, choice) :: rest ∧
    (machine environment).Runs allowed start past middle ∧ (machine environment).Runs allowed after rest final
  permitted : allowed middle (index, choice)
  taken : step environment middle (index, choice) = some after
  trace : middle.trace = earlier
  waiting : ∃ next, middle.thread index = .call exchange.request next
  answered : environment.respond middle.shared exchange.request choice = (exchange.answer, after.shared)

theorem moment (begun : start.trace = []) (runs : (machine environment).Runs allowed start labels final)
    {earlier later : List (ι × Exchange Call Answer ε)} {index : ι} {exchange : Exchange Call Answer ε}
    (recorded : final.trace = earlier ++ (index, exchange) :: later) :
    ∃ choice middle after,
      Moment environment allowed start final labels earlier index exchange choice middle after := by
  induction runs generalizing later with
  | refl =>
    rw [begun] at recorded
    exact absurd recorded (by simp)
  | @step past before label last whole permitted taken ih =>
    rcases step_eq taken with ⟨request, next, waiting, same⟩
    have trace := congrArg Pool.trace same
    rw [recorded] at trace
    rcases List.eq_nil_or_concat' later with rfl | ⟨rest, final, rfl⟩
    · rcases List.append_inj' trace rfl with ⟨sameTrace, entry⟩
      cases entry
      refine ⟨label.2, before, last, ⟨past, [], rfl, whole, .refl⟩, permitted, taken, sameTrace.symm,
        ⟨next, waiting⟩, ?_⟩
      rw [same]
    · rw [← List.cons_append, ← List.append_assoc] at trace
      rcases ih (List.append_inj' trace rfl).1.symm with ⟨choice, middle, after, found⟩
      rcases found.run with ⟨front, back, sameLabels, reached, later⟩
      refine ⟨choice, middle, after, ⟨front, back ++ [label], ?_, reached, later.step permitted taken⟩,
        found.permitted, found.taken, found.trace, found.waiting, found.answered⟩
      rw [sameLabels, List.append_assoc, List.cons_append]

/-- Every recorded call was made in a state that an initial part of the run had reached. -/
theorem split (begun : start.trace = []) (runs : (machine environment).Runs allowed start labels final)
    {earlier later : List (ι × Exchange Call Answer ε)} {index : ι} {exchange : Exchange Call Answer ε}
    (recorded : final.trace = earlier ++ (index, exchange) :: later) :
    ∃ middle past choice next, (machine environment).Runs allowed start past middle ∧ middle.trace = earlier ∧
      allowed middle (index, choice) ∧ middle.thread index = .call exchange.request next ∧
      (environment.respond middle.shared exchange.request choice).1 = exchange.answer := by
  rcases moment begun runs recorded with ⟨choice, middle, after, found⟩
  rcases found.run with ⟨past, rest, -, reached, -⟩
  rcases found.waiting with ⟨next, waiting⟩
  exact ⟨middle, past, choice, next, reached, found.trace, found.permitted, waiting, by rw [found.answered]⟩

end Pool

end EventSourcing
