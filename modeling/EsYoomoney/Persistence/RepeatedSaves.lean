import EsYoomoney.Persistence.Reachability
import EsYoomoney.Persistence.Representation

namespace Yoomoney

open EventSourcing DomainEvents BankAccountAggregate

inductive Use where
  | operate (operation : Operation) (occuredAt : DateTime)
  | save

def Use.operation : Use → Option (Operation × DateTime)
  | operate operation occuredAt => some (operation, occuredAt)
  | save => none

abbrev Uses := List Use

def Uses.operations (uses : Uses) : Operations := uses.filterMap Use.operation

/-- Every save succeeds, appends exactly the events performed since the last one, leaves the other
    streams alone and makes the stream the object's history. -/
def SavesAppendNew {Db : Type} (store : IDocumentStore Db) (db : Db) (account : BankAccountAggregate)
    (history since : List Event) : Uses → Prop
  | [] => True
  | .operate operation occuredAt :: uses =>
    ∀ next, construct (operation.perform occuredAt) account = .ok next →
      SavesAppendNew store db next (history ++ [operation.event account.id occuredAt])
        (since ++ [operation.event account.id occuredAt]) uses
  | .save :: uses => ∃ after, EventStore.storeAsync store db account = .ok after ∧
      store.stream after account.id = store.stream db account.id ++ since ∧
      store.stream after account.id = history ∧
      (∀ other, other ≠ account.id → store.stream after other = store.stream db other) ∧
      SavesAppendNew store after account history [] uses

def Uses.saves (uses : Uses) : Nat := uses.countP fun use => use.operation.isNone

/-- The saves that find events on the object, which once there never leave it. -/
def Uses.laden : Bool → Uses → Nat
  | _, [] => 0
  | _, .operate _ _ :: uses => laden true uses
  | filled, .save :: uses => filled.toNat + laden filled uses

theorem Uses.laden_true (uses : Uses) : laden true uses = uses.saves := by
  induction uses with
  | nil => rfl
  | cons use uses ih =>
    cases use with
    | operate operation occuredAt => simpa [laden, saves, Use.operation] using ih
    | save => simp [laden, ih, saves, Use.operation, Nat.add_comm]

theorem Uses.laden_le (filled : Bool) (uses : Uses) : laden filled uses ≤ uses.saves := by
  induction uses generalizing filled with
  | nil => exact Nat.le_refl _
  | cons use uses ih =>
    cases use with
    | operate operation occuredAt => simpa [laden, saves, Use.operation] using ih true
    | save =>
      have rest := ih filled
      have bit := filled.toNat_le
      simp only [laden, saves, Use.operation, List.countP_cons, Option.isNone_none, if_true] at rest ⊢
      omega

variable {Db : Type} {store : IDocumentStore Db}

structure Editing (store : IDocumentStore Db) (db : Db) (account : BankAccountAggregate)
    (base pending : List Event) (uses : Uses) : Prop where
  live : Live account base pending
  past : base <+: store.stream db account.id
  distinct : ((pending ++ uses.operations.events account.id).map Event.eventId).Nodup
  returns : ∃ result, uses.operations.performAll account = .ok result

namespace Editing

variable {db : Db} {account : BankAccountAggregate} {base pending : List Event} {uses : Uses}

theorem operate {operation : Operation} {occuredAt : DateTime}
    (editing : Editing store db account base pending (.operate operation occuredAt :: uses)) :
    ∃ next, construct (operation.perform occuredAt) account = .ok next ∧ next.id = account.id ∧
      Editing store db next base (pending ++ [operation.event account.id occuredAt]) uses := by
  obtain ⟨result, performed⟩ := editing.returns
  have listed : Uses.operations (.operate operation occuredAt :: uses) =
      (operation, occuredAt) :: uses.operations := rfl
  rw [listed] at performed
  obtain ⟨next, step, later⟩ := Exception.bind_ok performed
  obtain ⟨live, sameId⟩ := editing.live.perform (construct_ok step)
  refine ⟨next, step, sameId, live, by rw [sameId]; exact editing.past, ?_, result, later⟩
  have distinct := editing.distinct
  rw [listed] at distinct
  simpa [Operations.events, sameId] using distinct

theorem store_eq (editing : Editing store db account base pending uses) :
    EventStore.storeAsync store db account = store.append db account.id (base.length + pending.length) pending :=
  IDocumentStore.Lawful.storeAsync_eq editing.live
    ((List.map_append ▸ editing.distinct).of_append_left)

theorem save (editing : Editing store db account base pending (.save :: uses)) {after : Db}
    (grows : store.stream db account.id <+: store.stream after account.id) :
    Editing store after account base pending uses :=
  ⟨editing.live, editing.past.trans grows, editing.distinct, editing.returns⟩

theorem after_save (lawful : store.Lawful) {history since : List Event}
    (editing : Editing store db account base pending uses) (filled : pending ≠ [])
    (stored : store.stream db account.id ≠ base) :
    SavesAppendNew store db account history since uses ↔ uses.saves = 0 := by
  induction uses generalizing account pending history since with
  | nil => exact iff_of_true trivial rfl
  | cons use uses ih =>
    cases use with
    | operate operation occuredAt =>
      obtain ⟨next, step, sameId, later⟩ := editing.operate
      have counted : Uses.saves (.operate operation occuredAt :: uses) = Uses.saves uses := by
        simp [Uses.saves, Use.operation]
      simp only [SavesAppendNew, step, Except.ok.injEq, forall_eq']
      rw [counted]
      exact ih later (by simp) (by rw [sameId]; exact stored)
    | save =>
      -- the set of uncommitted events is never emptied: the old batch goes out again, at its old version
      have refused : ¬ ∃ after, EventStore.storeAsync store db account = .ok after := by
        rw [editing.store_eq, lawful.streams.append_ok_iff editing.past filled]
        exact stored
      apply iff_of_false
      · intro success
        obtain ⟨after, saved, -⟩ := success
        exact refused ⟨after, saved⟩
      · simp [Uses.saves, Use.operation]

theorem save_nothing (lawful : store.Lawful) (editing : Editing store db account base [] uses) :
    EventStore.storeAsync store db account = .ok db := by
  rw [editing.store_eq]
  exact lawful.streams.append_nil db account.id _

/-- The save that stores the object's events leaves the stream ahead of the object's base. -/
theorem saved (lawful : store.Lawful) (editing : Editing store db account base pending (.save :: uses))
    (filled : pending ≠ []) {after : Db} (appended : EventStore.storeAsync store db account = .ok after) :
    store.stream db account.id = base ∧ store.stream after account.id = base ++ pending ∧
      ∀ history since, SavesAppendNew store after account history since uses ↔ uses.saves = 0 := by
  rw [editing.store_eq] at appended
  obtain ⟨current, landed⟩ := lawful.streams.append_locked editing.past filled appended
  have later := editing.save (lawful.streams.append_grows appended account.id)
  have moved : store.stream after account.id ≠ base := by
    rw [landed]
    exact fun same => filled (List.append_right_eq_self.mp same)
  exact ⟨current, landed, fun _ _ => later.after_save lawful filled moved⟩

theorem save_iff (lawful : store.Lawful) (editing : Editing store db account base pending (.save :: uses))
    (filled : pending ≠ []) :
    SavesAppendNew store db account (base ++ pending) pending (.save :: uses) ↔
      store.stream db account.id = base ∧ uses.saves = 0 := by
  constructor
  · intro saves
    obtain ⟨after, saved, -, -, -, rest⟩ := saves
    obtain ⟨current, -, remaining⟩ := editing.saved lawful filled saved
    exact ⟨current, (remaining _ _).mp rest⟩
  · intro single
    obtain ⟨current, none⟩ := single
    obtain ⟨after, appended⟩ := (lawful.streams.append_ok_iff editing.past filled).mpr current
    have saved : EventStore.storeAsync store db account = .ok after := by rw [editing.store_eq, appended]
    obtain ⟨-, landed, remaining⟩ := editing.saved lawful filled saved
    exact ⟨after, saved, lawful.streams.append_stream appended, landed, lawful.streams.append_frame appended,
      (remaining _ _).mpr none⟩

theorem saves_iff (lawful : store.Lawful) (editing : Editing store db account base pending uses) :
    SavesAppendNew store db account (base ++ pending) pending uses ↔
      uses.saves = 0 ∨ (store.stream db account.id = base ∧ uses.laden (!pending.isEmpty) ≤ 1) := by
  induction uses generalizing account pending with
  | nil => exact iff_of_true trivial (Or.inl rfl)
  | cons use uses ih =>
    cases use with
    | operate operation occuredAt =>
      obtain ⟨next, step, sameId, later⟩ := editing.operate
      have rest := ih later
      have counted : Uses.saves (.operate operation occuredAt :: uses) = Uses.saves uses := by
        simp [Uses.saves, Use.operation]
      simp only [SavesAppendNew, step, Except.ok.injEq, forall_eq', counted, Uses.laden]
      have filled : (pending ++ [operation.event account.id occuredAt]).isEmpty = false := by cases pending <;> rfl
      rw [List.append_assoc, rest, sameId, filled, Bool.not_false]
    | save =>
      have counted : Uses.saves (.save :: uses) = Uses.saves uses + 1 := by simp [Uses.saves, Use.operation]
      cases pending with
      | nil =>
        have later := editing.save (List.prefix_refl (store.stream db account.id))
        have stored := editing.save_nothing lawful
        have bound := Uses.laden_le false uses
        simp only [SavesAppendNew, stored, Except.ok.injEq, exists_eq_left', List.append_nil, true_and,
          counted, Uses.laden, Bool.toNat_false, Nat.zero_add, List.isEmpty_nil, Bool.not_true, implies_true]
        have rest := ih later
        simp only [List.append_nil, List.isEmpty_nil, Bool.not_true] at rest
        rw [rest]
        constructor
        · rintro ⟨current, none | ⟨-, few⟩⟩
          · exact Or.inr ⟨current, by omega⟩
          · exact Or.inr ⟨current, few⟩
        · rintro (impossible | ⟨current, few⟩)
          · omega
          · exact ⟨current, Or.inr ⟨current, few⟩⟩
      | cons event pending =>
        rw [editing.save_iff lawful (List.cons_ne_nil _ _)]
        have single : 1 + Uses.saves uses ≤ 1 ↔ Uses.saves uses = 0 := by omega
        simp only [counted, Uses.laden, List.isEmpty_cons, Bool.not_false, Bool.toNat_true, Uses.laden_true,
          single, Nat.add_one_ne_zero, false_or]

end Editing

theorem Obtained.past (lawful : store.Lawful) {db : Db} {objects : List BankAccountAggregate}
    (reachable : Reachable store db objects) {account : BankAccountAggregate} {base start : List Event}
    (obtained : Obtained store db account base start) : base <+: store.stream db account.id := by
  cases obtained with
  | opened fresh => exact List.nil_prefix
  | loaded present =>
    rw [lawful.loadAsync_id ((reachable.invariant lawful).1 _) present]
    exact visible_initial _ _

/-- Saves of one object append its new events exactly when there is no save at all, or the object is
    built on the whole of its stream and at most one save finds events on it. -/
theorem repeated_saves_iff (lawful : store.Lawful) {db : Db} {objects : List BankAccountAggregate}
    (reachable : Reachable store db objects) {account : BankAccountAggregate} {base start : List Event}
    (obtained : Obtained store db account base start) {uses : Uses}
    (distinct : ((start ++ uses.operations.events account.id).map Event.eventId).Nodup)
    (returns : ∃ result, uses.operations.performAll account = .ok result) :
    SavesAppendNew store db account (base ++ start) start uses ↔
      uses.saves = 0 ∨ (store.stream db account.id = base ∧ uses.laden (!start.isEmpty) ≤ 1) :=
  Editing.saves_iff lawful ⟨obtained.live lawful, obtained.past lawful reachable, distinct, returns⟩

theorem single_laden_save_appends :
    ∃ account, EventStore.loadAsync inMemory [(1, .accountBalanceInitializedTo 1 0)] 1 none = .ok (some account) ∧
      SavesAppendNew inMemory [(1, .accountBalanceInitializedTo 1 0)] account [.accountBalanceInitializedTo 1 0] []
        [.save, .operate sampleDeposit 5, .save] := by
  have fresh : BankAccountAggregate.open 1 0 = .ok _ := rfl
  have opened : Reachable inMemory [] _ := .opened (.empty fun _ => rfl) fresh
  have reachable : Reachable inMemory [(1, .accountBalanceInitializedTo 1 0)] _ :=
    .stored opened List.mem_cons_self rfl
  refine ⟨_, rfl, ?_⟩
  have obtained := @Obtained.loaded _ inMemory [(1, .accountBalanceInitializedTo 1 0)] 1 none _ rfl
  exact (@repeated_saves_iff _ _ inMemory_lawful _ _ reachable _ _ _ obtained [.save, .operate sampleDeposit 5, .save]
    (by decide) ⟨_, rfl⟩).mpr (Or.inr ⟨rfl, by decide⟩)

theorem second_save_refused :
    ∃ opened stored changed, BankAccountAggregate.open 1 0 = .ok opened ∧
      EventStore.storeAsync inMemory [] opened = .ok stored ∧
      EventStore.storeAsync inMemory stored opened = .error .concurrencyException ∧
      construct (sampleDeposit.perform 5) opened = .ok changed ∧
      EventStore.storeAsync inMemory stored changed = .error .concurrencyException ∧
      ¬ SavesAppendNew inMemory [] opened [.accountBalanceInitializedTo 1 0] [.accountBalanceInitializedTo 1 0]
        [.save, .operate sampleDeposit 5, .save] := by
  refine ⟨_, _, _, rfl, rfl, rfl, rfl, rfl, ?_⟩
  intro saves
  obtain ⟨stored, saved, -, -, -, rest⟩ := saves
  cases saved
  obtain ⟨after, again, -⟩ := rest _ rfl
  cases again

end Yoomoney
