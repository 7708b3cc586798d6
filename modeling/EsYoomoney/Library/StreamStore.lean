import Mathlib.Data.List.Infix

namespace EventSourcing

/-- A store of append-only streams, written by a compare-and-append that names the version the
    stream is to have afterwards. -/
structure StreamStore (σ κ ε χ : Type) where
  stream : σ → κ → List ε
  append : σ → κ → Nat → List ε → Except χ σ

variable {σ κ ε χ : Type}

/-- What a writer relies on. Creating a stream at another version than its batch is left open. -/
structure StreamStore.Lawful (store : StreamStore σ κ ε χ) : Prop where
  append_nil : ∀ state key version, store.append state key version [] = .ok state
  append_existing : ∀ state key version events, store.stream state key ≠ [] → events ≠ [] →
    ((∃ after, store.append state key version events = .ok after) ↔
      (store.stream state key).length + events.length = version)
  append_missing : ∀ state key events, store.stream state key = [] →
    ∃ after, store.append state key events.length events = .ok after
  append_stream : ∀ {state key version events after}, store.append state key version events = .ok after →
    store.stream after key = store.stream state key ++ events
  append_frame : ∀ {state key version events after}, store.append state key version events = .ok after →
    ∀ other, other ≠ key → store.stream after other = store.stream state other

/-- A missing stream is started whatever version its first batch names. -/
def StreamStore.StartsAnywhere (store : StreamStore σ κ ε χ) : Prop :=
  ∀ state key version events, store.stream state key = [] →
    ∃ after, store.append state key version events = .ok after

namespace StreamStore.Lawful

variable {store : StreamStore σ κ ε χ}

theorem append_grows (lawful : store.Lawful) {state after : σ} {key : κ} {version : Nat} {events : List ε}
    (appended : store.append state key version events = .ok after) (other : κ) :
    store.stream state other <+: store.stream after other := by
  by_cases same : other = key
  · subst same
    rw [lawful.append_stream appended]
    exact List.prefix_append _ _
  · rw [lawful.append_frame appended other same]

theorem append_ok_iff (lawful : store.Lawful) {state : σ} {key : κ} {base events : List ε}
    (past : base <+: store.stream state key) (nonempty : events ≠ []) :
    (∃ after, store.append state key (base.length + events.length) events = .ok after) ↔
      store.stream state key = base := by
  by_cases missing : store.stream state key = []
  · have empty : base = [] := List.prefix_nil.mp (missing ▸ past)
    subst empty
    simpa only [missing, List.length_nil, Nat.zero_add, iff_true] using lawful.append_missing state key events missing
  · rw [lawful.append_existing state key _ events missing nonempty]
    constructor
    · intro lengths
      exact (past.eq_of_length (by omega)).symm
    · intro same
      rw [same]

/-- The optimistic lock: an accepted batch lands directly behind the prefix it was built on. -/
theorem append_locked (lawful : store.Lawful) {state after : σ} {key : κ} {base events : List ε}
    (past : base <+: store.stream state key) (nonempty : events ≠ [])
    (appended : store.append state key (base.length + events.length) events = .ok after) :
    store.stream state key = base ∧ store.stream after key = base ++ events := by
  have current := (lawful.append_ok_iff past nonempty).mp ⟨after, appended⟩
  exact ⟨current, by rw [lawful.append_stream appended, current]⟩

end StreamStore.Lawful

def logStore (κ ε χ : Type) [DecidableEq κ] (conflict : χ) : StreamStore (List (κ × ε)) κ ε χ where
  stream log key := (log.filter (·.1 = key)).map (·.2)
  append log key version events :=
    let current := (log.filter (·.1 = key)).map (·.2)
    if events.isEmpty ∨ current.isEmpty ∨ current.length + events.length = version then
      .ok (log ++ events.map (key, ·))
    else .error conflict

theorem logStore_append_stream [DecidableEq κ] (conflict : χ) (log : List (κ × ε)) (key other : κ)
    (events : List ε) : (logStore κ ε χ conflict).stream (log ++ events.map (key, ·)) other =
      (logStore κ ε χ conflict).stream log other ++ if other = key then events else [] := by
  unfold logStore
  simp only [List.filter_append, List.map_append, List.filter_map, List.map_map]
  congr 1
  split
  · rename_i same
    subst same
    simp [Function.comp_def]
  · rename_i different
    have away : ∀ event ∈ events, ¬ ((fun entry : κ × ε => decide (entry.1 = other)) ∘ (key, ·)) event = true := by
      intro event _
      simpa using fun same => different same.symm
    rw [List.filter_eq_nil_iff.mpr away, List.map_nil]

theorem logStore_startsAnywhere [DecidableEq κ] (conflict : χ) : (logStore κ ε χ conflict).StartsAnywhere := by
  intro log key version events missing
  have absent : ((log.filter (·.1 = key)).map (·.2)).isEmpty = true := by
    simpa [logStore] using missing
  exact ⟨_, if_pos (Or.inr (Or.inl absent))⟩

theorem logStore_lawful [DecidableEq κ] (conflict : χ) : (logStore κ ε χ conflict).Lawful where
  append_nil log key version := by simp [logStore]
  append_existing log key version events existing nonempty := by
    have present : ((log.filter (·.1 = key)).map (·.2)).isEmpty = false := by
      simpa [logStore] using existing
    have filled : events.isEmpty = false := by simpa using nonempty
    simp only [logStore, filled, present, Bool.false_eq_true, false_or]
    split
    · rename_i matching
      exact iff_of_true ⟨_, rfl⟩ matching
    · rename_i mismatch
      exact iff_of_false (fun ⟨_, stored⟩ => by cases stored) mismatch
  append_missing log key events missing := logStore_startsAnywhere conflict log key _ events missing
  append_stream := by
    intro log key version events after appended
    unfold logStore at appended
    dsimp only at appended
    split at appended
    · cases appended
      rw [logStore_append_stream, if_pos rfl]
    · cases appended
  append_frame := by
    intro log key version events after appended other different
    unfold logStore at appended
    dsimp only at appended
    split at appended
    · cases appended
      rw [logStore_append_stream, if_neg different, List.append_nil]
    · cases appended

end EventSourcing
