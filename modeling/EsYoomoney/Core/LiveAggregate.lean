import EsYoomoney.Core.BankAccountAggregate

namespace Yoomoney

open EventSourcing DomainEvents BankAccountAggregate

/-- An object in use: it is what replaying `base ++ pending` gives, and `pending` is what its
    operations have added to the set of uncommitted events. -/
structure Live (account : BankAccountAggregate) (base pending : List Event) : Prop where
  replayed : new.replay (base ++ pending) = .ok { account with uncommittedEvents := OrderedSet.empty }
  uncommitted : account.uncommittedEvents = OrderedSet.empty.addAll pending

abbrev Operations := List (Operation × DateTime)

def Operations.events (accountId : Guid) (operations : Operations) : List Event :=
  operations.map fun call => call.1.event accountId call.2

def Operations.performAll (account : BankAccountAggregate) : Operations → Except Exception BankAccountAggregate
  | [] => .ok account
  | call :: operations => do
    let next ← construct (call.1.perform call.2) account
    performAll next operations

namespace Live

variable {account : BankAccountAggregate} {base pending : List Event}

theorem opened (accountId : Guid) (occuredAt : DateTime) :
    Live (new.recorded (.accountBalanceInitializedTo accountId occuredAt) Decimal.zero) []
      [.accountBalanceInitializedTo accountId occuredAt] := ⟨rfl, rfl⟩

theorem loaded (replayed : new.replay base = .ok account) : Live account base [] := by
  have closed := (replay_ok replayed).2
  have clean : account.uncommittedEvents = OrderedSet.empty := by rw [closed]; rfl
  refine ⟨?_, clean⟩
  rw [List.append_nil, replayed, ← clean]

theorem version (live : Live account base pending) : account.version = base.length + pending.length := by
  have closed := congrArg BankAccountAggregate.version (replay_ok live.replayed).2
  simpa [BankAccountAggregate.replayed, new] using closed

theorem totalEvents (live : Live account base pending) :
    account.totalEvents = OrderedSet.empty.addAll (base ++ pending) := by
  have closed := congrArg BankAccountAggregate.totalEvents (replay_ok live.replayed).2
  exact closed

theorem id (live : Live account base pending) :
    account.id = (base ++ pending).foldl Event.identify Guid.Empty :=
  congrArg BankAccountAggregate.id (replay_ok live.replayed).2

theorem balance (live : Live account base pending) :
    balanceAfter Decimal.zero (base ++ pending) = .ok account.balance := (replay_ok live.replayed).1

theorem getUncommittedEvents (live : Live account base pending) (distinct : pending.Nodup) :
    account.getUncommittedEvents = pending := by
  rw [BankAccountAggregate.getUncommittedEvents, live.uncommitted,
    OrderedSet.addAll_toList (by simpa using distinct)]
  rfl

theorem recorded (live : Live account base pending) {event : Event} {balance : Decimal}
    (posted : event.post account.balance = .ok balance) :
    Live (account.recorded event balance) base (pending ++ [event]) := by
  constructor
  · rw [← List.append_assoc, replay_append, live.replayed]
    simp only [Except.bind, replay, construct_apply, posted, Except.map, Bind.bind]
    rfl
  · rw [OrderedSet.addAll_append, ← live.uncommitted]
    rfl

theorem perform (live : Live account base pending) {operation : Operation} {occuredAt : DateTime}
    {result : BankAccountAggregate} (performed : (operation.perform occuredAt).run account = .ok () result) :
    Live result base (pending ++ [operation.event account.id occuredAt]) ∧ result.id = account.id := by
  rcases perform_ok performed with ⟨balance, posted, rfl⟩
  refine ⟨live.recorded posted, ?_⟩
  simp [BankAccountAggregate.recorded, applied, Event.identify]

theorem performAll (live : Live account base pending) {operations : Operations} {result : BankAccountAggregate}
    (performed : operations.performAll account = .ok result) :
    Live result base (pending ++ operations.events account.id) ∧ result.id = account.id := by
  induction operations generalizing account pending with
  | nil =>
    cases performed
    exact ⟨by simpa [Operations.events] using live, rfl⟩
  | cons call operations ih =>
    obtain ⟨next, step, later⟩ := Exception.bind_ok performed
    rcases live.perform (construct_ok step) with ⟨nextLive, sameId⟩
    rcases ih nextLive later with ⟨resultLive, resultId⟩
    refine ⟨?_, resultId.trans sameId⟩
    simpa [Operations.events, sameId] using resultLive

end Live

structure Rooted (id : Guid) (events : List Event) : Prop where
  opening : ∃ occuredAt rest, events = .accountBalanceInitializedTo id occuredAt :: rest
  carried : ∀ event ∈ events, event.streamId = id

namespace Rooted

variable {id : Guid} {events : List Event}

theorem identified (rooted : Rooted id events) (start : Guid) : events.foldl Event.identify start = id := by
  rcases rooted.opening with ⟨occuredAt, rest, rfl⟩
  have fixed : ∀ tail : List Event, (∀ event ∈ tail, event.streamId = id) → tail.foldl Event.identify id = id := by
    intro tail
    induction tail with
    | nil => exact fun _ => rfl
    | cons event tail ih =>
      intro carried
      have same : event.identify id = id := by
        unfold Event.identify
        split
        · exact carried event List.mem_cons_self
        · rfl
      rw [List.foldl_cons, same]
      exact ih fun other member => carried other (List.mem_cons_of_mem _ member)
  exact fixed rest fun event member => rooted.carried event (List.mem_cons_of_mem _ member)

theorem of_initial (rooted : Rooted id events) {past : List Event} (initial : past <+: events) (nonempty : past ≠ []) :
    Rooted id past := by
  rcases rooted.opening with ⟨occuredAt, rest, same⟩
  refine ⟨?_, fun event member => rooted.carried event (initial.subset member)⟩
  rcases initial with ⟨later, whole⟩
  cases past with
  | nil => contradiction
  | cons event past =>
    rcases List.cons.inj (whole.trans same) with ⟨rfl, -⟩
    exact ⟨occuredAt, past, rfl⟩

theorem append (rooted : Rooted id events) {later : List Event} (carried : ∀ event ∈ later, event.streamId = id) :
    Rooted id (events ++ later) := by
  rcases rooted.opening with ⟨occuredAt, rest, same⟩
  refine ⟨⟨occuredAt, rest ++ later, by rw [same]; rfl⟩, fun event member => ?_⟩
  rcases List.mem_append.mp member with old | fresh
  · exact rooted.carried event old
  · exact carried event fresh

end Rooted

end Yoomoney
