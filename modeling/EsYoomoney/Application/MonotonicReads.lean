import EsYoomoney.Application.Contention
import EsYoomoney.Application.SingleCredit

namespace Yoomoney

open EventSourcing DomainEvents BankAccountAggregate

/-- What replays onto an object takes it further in one history. -/
theorem BankAccountAggregate.replay_further {old current : BankAccountAggregate} {events : List Event}
    (replayed : old.replay events = .ok current) :
    current.version = old.version + events.length ∧ old.getCommittedEvents <+: current.getCommittedEvents := by
  rw [(replay_ok replayed).2]
  exact ⟨rfl, OrderedSet.addAll_initial old.totalEvents events⟩

theorem IDocumentStore.Lawful.loadAsync_past {Db : Type} {store : IDocumentStore Db} (lawful : store.Lawful) {db : Db}
    {id : Guid} {base : List Event} {account : BankAccountAggregate} (loaded : aggregated base = .ok (some account))
    (stored : base <+: store.stream db id) :
    EventStore.loadAsync store db id (some account.version) = .ok (some account) := by
  obtain ⟨replayed, present⟩ := aggregated_some loaded
  have version : account.version = base.length := (Live.loaded replayed).version
  have positive := List.length_pos_of_ne_nil present
  rw [lawful.loadAsync_eq, Option.getD_some, visible, if_neg (by omega), version,
    ← List.prefix_iff_eq_take.mp stored, loaded]

namespace Service

variable {Db ι : Type} [DecidableEq ι] {store : IDocumentStore Db} {host : Host} {jobs : ι → Job}
  {start service : Service Db ι} {allowed : Service Db ι → ι × Except Exception Payment → Prop}
  {labels : List (ι × Except Exception Payment)}

/-- No handler sees an account go back. What a later one loads is what an earlier one has loaded with the events
    replayed onto it that have been stored between them, and under its version the earlier object stays there to be
    loaded. -/
theorem reads_are_monotonic (lawful : store.Lawful) (begun : Begun store host jobs start)
    (runs : (machine store).Runs allowed start labels service) {earlier between later : Trace ι} {run other : ι}
    {id : Guid} {old : BankAccountAggregate} {answer : Except Exception (Option BankAccountAggregate)}
    (reads : service.trace = earlier ++ (run, ⟨.loadAsync id none, .ok (some old)⟩) :: between ++
      (other, ⟨.loadAsync id none, answer⟩) :: later) :
    (∃ current, answer = .ok (some current) ∧ old.replay (written between id) = .ok current ∧
      current.version = old.version + (written between id).length ∧
      old.getCommittedEvents <+: current.getCommittedEvents) ∧
      EventStore.loadAsync store service.shared id (some old.version) = .ok (some old) := by
  have split := reads
  rw [List.append_assoc] at split
  have first := loads lawful begun.trace runs split
  have second := loads lawful begun.trace runs reads
  have base := streams lawful begun.trace runs id
  rw [split, streamAt_append] at base
  rw [streamAt_append, ← List.singleton_append, written_append, written_singleton] at second
  have unwritten : appended id ⟨.loadAsync id none, .ok (some old)⟩ = [] := rfl
  rw [unwritten, List.nil_append] at second
  constructor
  · obtain ⟨replayed, present⟩ := aggregated_some first.symm
    obtain ⟨current, loaded⟩ : ∃ current, answer = .ok (some current) := by
      cases answer with
      | error error =>
        have called : ⟨.loadAsync id none, .error error⟩ ∈ callsOf service.trace other := by
          rw [mem_callsOf, reads]
          exact List.mem_append_right _ List.mem_cons_self
        exact absurd called (load_returns lawful begun runs id error)
      | ok loaded =>
        cases loaded with
        | none =>
          have missing := (aggregated_none_iff _).mp second.symm
          exact absurd (List.append_eq_nil_iff.mp missing).1 present
        | some current => exact ⟨current, rfl⟩
    rw [loaded] at second
    have whole := (aggregated_some second.symm).1
    rw [replay_append, replayed] at whole
    have onward : old.replay (written between id) = .ok current := whole
    exact ⟨current, loaded, onward, replay_further onward⟩
  · apply lawful.loadAsync_past first.symm
    rw [base]
    exact List.prefix_append _ _

theorem redelivered_reads_grow :
    ∃ service old current, (machine inMemory).exec (begin sampleHost redelivered [])
        ([0, 0, 0, 1, 1, 1, 2, 2, 2].map (·, .ok samplePayment)) = some service ∧
      (2, ⟨.loadAsync 1 none, .ok (some current)⟩) ∈ service.trace ∧ current.version = old.version + 1 ∧
      EventStore.loadAsync inMemory service.shared 1 (some old.version) = .ok (some old) := by
  have reached := Machine.exec_last (show ((machine inMemory).exec (begin sampleHost redelivered [])
    ([0, 0, 0, 1, 1, 1, 2, 2, 2].map (·, .ok samplePayment))).isSome = true by decide +kernel)
  have sound : SoundStore inMemory [] := .unwritten fun _ => rfl
  have grown := reads_are_monotonic inMemory_lawful (begin_begun sampleHost redelivered sound)
    (Machine.exec_runs _ _ _ _ reached)
    (show Pool.trace _ = [_, _, _, _] ++
      (1, (⟨Call.loadAsync 1 none, .ok (some _)⟩ : Exchange Call Answer Exception)) :: [_, _] ++
      (2, (⟨Call.loadAsync 1 none, _⟩ : Exchange Call Answer Exception)) :: [_] from rfl)
  obtain ⟨⟨current, loaded, -, version, -⟩, past⟩ := grown
  refine ⟨_, _, current, reached, ?_, version, past⟩
  rw [← loaded]
  exact @List.mem_of_getElem? _ _ 7 _ rfl

end Service

end Yoomoney
