import EsYoomoney.Persistence.ClientsInvariant
import EsYoomoney.Persistence.Representation

namespace Yoomoney

open EventSourcing DomainEvents BankAccountAggregate

/-- The balance is not below zero behind any event, nor before the first one. -/
def NeverNegative (events : List Event) : Prop :=
  ∀ past, past <+: events → ∀ balance, balanceAfter Decimal.zero past = .ok balance → 0 ≤ balance.units

namespace NeverNegative

variable {events : List Event}

theorem nil : NeverNegative [] := by
  intro past initial balance posted
  rw [List.prefix_nil.mp initial] at posted
  cases posted
  exact Int.le_refl 0

theorem of_initial (kept : NeverNegative events) {past : List Event} (initial : past <+: events) :
    NeverNegative past :=
  fun earlier front => kept earlier (front.trans initial)

theorem snoc (kept : NeverNegative events) {event : Event}
    (covered : ∀ balance, balanceAfter Decimal.zero (events ++ [event]) = .ok balance → 0 ≤ balance.units) :
    NeverNegative (events ++ [event]) := by
  intro past initial balance posted
  rcases List.prefix_concat_iff.mp initial with rfl | early
  · exact covered balance posted
  · exact kept past early balance posted

/-- Nothing that takes no money out brings a balance below zero. -/
theorem append (kept : NeverNegative events) {later : List Event} (raising : ∀ event ∈ later, 0 ≤ event.change) :
    NeverNegative (events ++ later) := by
  induction later generalizing events with
  | nil =>
    rw [List.append_nil]
    exact kept
  | cons event later ih =>
    rw [List.append_cons]
    apply ih _ fun other member => raising other (List.mem_cons_of_mem _ member)
    apply kept.snoc
    intro balance posted
    rw [balanceAfter_append] at posted
    obtain ⟨before, reached, last⟩ := Exception.bind_ok posted
    obtain ⟨after, step, only⟩ := Exception.bind_ok last
    cases only
    have solvent := kept events (List.prefix_refl _) before reached
    exact Event.post_nonneg step (Int.add_nonneg solvent (raising event List.mem_cons_self))

end NeverNegative

/-- What keeps a balance above zero: no negative deposit, and no withdrawal beyond the balance. -/
def Operation.Covered (balance : Decimal) : Operation → Prop
  | createInvoice _ _ => True
  | deposit _ amount _ _ => 0 ≤ amount.units
  | withdrawn _ amount => amount.units ≤ balance.units

instance (balance : Decimal) : (operation : Operation) → Decidable (operation.Covered balance)
  | .createInvoice _ _ => isTrue True.intro
  | .deposit _ amount _ _ => inferInstanceAs (Decidable (0 ≤ amount.units))
  | .withdrawn _ amount => inferInstanceAs (Decidable (amount.units ≤ balance.units))

theorem Operation.Covered.change {operation : Operation} {balance : Decimal} (covered : operation.Covered balance)
    (solvent : 0 ≤ balance.units) (accountId : Guid) (occuredAt : DateTime) :
    0 ≤ balance.units + (operation.event accountId occuredAt).change := by
  cases operation with
  | createInvoice invoiceId amount => exact Int.add_nonneg solvent (Int.le_refl 0)
  | deposit invoiceId amount currency metadata => exact Int.add_nonneg solvent covered
  | withdrawn operationId amount => exact Int.sub_nonneg_of_le covered

/-- Nothing compares the amount with the balance, and the difference is never too large for a decimal. -/
theorem withdrawn_recorded {account : BankAccountAggregate} {amount : Decimal} (solvent : 0 ≤ account.balance.units)
    (uncovered : account.balance.units < amount.units) (operationId : Guid) (occuredAt : DateTime) :
    ∃ result, (withdrawn operationId amount occuredAt).run account = .ok () result ∧
      .moneyWithdrawnDomainEvent operationId account.id amount occuredAt ∈ result.getUncommittedEvents := by
  obtain ⟨balance, posted⟩ := Decimal.sub_of_lt solvent uncovered
  have ran := perform_run (.withdrawn operationId amount) occuredAt account
  simp only [Operation.perform, Operation.event, Event.post, posted] at ran
  exact ⟨_, ran, OrderedSet.mem_add.mpr (Or.inr rfl)⟩

/-- Any number of objects in use on one store, each operated and stored as often as its holder likes. -/
structure Desk (Db : Type) where
  db : Db
  held : List Session

inductive DeskCall where
  | open (accountId : Guid) (occuredAt : DateTime)
  | load (accountId : Guid) (version : Option Nat)
  | operate (index : Nat) (operation : Operation) (occuredAt : DateTime)
  | store (index : Nat)

namespace Desk

variable {Db : Type}

def hold (desk : Desk Db) (session : Session) : Desk Db := { desk with held := desk.held ++ [session] }

def replace (desk : Desk Db) (index : Nat) (session : Session) : Desk Db :=
  { desk with held := desk.held.set index session }

def step (store : IDocumentStore Db) (desk : Desk Db) : DeskCall → Option (Desk Db)
  | .open accountId occuredAt =>
    match BankAccountAggregate.open accountId occuredAt with
    | .ok account => some (desk.hold ⟨account, [], [(.accountBalanceInitializedTo accountId occuredAt, account)]⟩)
    | .error _ => some desk
  | .load accountId version =>
    match EventStore.loadAsync store desk.db accountId version with
    | .ok (some account) => some (desk.hold ⟨account, visible (store.stream desk.db accountId) (version.getD 0), []⟩)
    | _ => some desk
  | .operate index operation occuredAt => do
    let session ← desk.held[index]?
    match (operation.perform occuredAt).run session.account with
    | .ok _ account =>
      some (desk.replace index (session.record (operation.event session.account.id occuredAt) account))
    | .error _ account => some (desk.replace index { session with account })
  | .store index => do
    let session ← desk.held[index]?
    match EventStore.storeAsync store desk.db session.account with
    | .ok db => some { desk with db }
    | .error _ => some desk

def machine (store : IDocumentStore Db) : Machine (Desk Db) DeskCall := ⟨step store⟩

/-- A call that operates within the balance. -/
def Covers (desk : Desk Db) : DeskCall → Prop
  | .operate index operation _ => ∀ session ∈ desk.held[index]?, operation.Covered session.account.balance
  | _ => True

/-- A call that, where it stores an object, finds no two equal records left by its calls, or none that takes
    money out. -/
def Undoubled (desk : Desk Db) : DeskCall → Prop
  | .store index => ∀ session ∈ desk.held[index]?,
    session.performed.Nodup ∨ ∀ event ∈ session.performed, 0 ≤ event.change
  | _ => True

def Prudent (desk : Desk Db) (call : DeskCall) : Prop := Covers desk call ∧ Undoubled desk call

instance (desk : Desk Db) : (call : DeskCall) → Decidable (Covers desk call)
  | .operate index operation _ =>
    inferInstanceAs (Decidable (∀ session ∈ desk.held[index]?, operation.Covered session.account.balance))
  | .open _ _ | .load _ _ | .store _ => isTrue True.intro

instance (desk : Desk Db) : (call : DeskCall) → Decidable (Undoubled desk call)
  | .store index => inferInstanceAs (Decidable (∀ session ∈ desk.held[index]?,
      session.performed.Nodup ∨ ∀ event ∈ session.performed, 0 ≤ event.change))
  | .open _ _ | .load _ _ | .operate _ _ _ => isTrue True.intro

instance (desk : Desk Db) (call : DeskCall) : Decidable (Prudent desk call) :=
  inferInstanceAs (Decidable (_ ∧ _))

structure Solvent (store : IDocumentStore Db) (desk : Desk Db) : Prop where
  rooted : RootedStore store desk.db
  streams : ∀ id, NeverNegative (store.stream desk.db id)
  sessions : ∀ session ∈ desk.held, session.Sound store desk.db
  held : ∀ session ∈ desk.held, NeverNegative (session.loaded ++ session.performed)

namespace Solvent

variable {store : IDocumentStore Db} {desk : Desk Db}

theorem balance (solvent : Solvent store desk) {session : Session} (member : session ∈ desk.held) :
    0 ≤ session.account.balance.units :=
  solvent.held session member _ (List.prefix_refl _) _ (solvent.sessions session member).inUse.live.balance

theorem hold (solvent : Solvent store desk) {session : Session} (sound : session.Sound store desk.db)
    (kept : NeverNegative (session.loaded ++ session.performed)) : Solvent store (desk.hold session) := by
  refine ⟨solvent.rooted, solvent.streams, fun other member => ?_, fun other member => ?_⟩
  · rcases List.mem_append.mp member with old | new
    · exact solvent.sessions other old
    · rw [List.mem_singleton.mp new]
      exact sound
  · rcases List.mem_append.mp member with old | new
    · exact solvent.held other old
    · rw [List.mem_singleton.mp new]
      exact kept

theorem replace (solvent : Solvent store desk) {session : Session} (index : Nat)
    (sound : session.Sound store desk.db) (kept : NeverNegative (session.loaded ++ session.performed)) :
    Solvent store (desk.replace index session) := by
  refine ⟨solvent.rooted, solvent.streams, fun other member => ?_, fun other member => ?_⟩
  · rcases List.mem_or_eq_of_mem_set member with old | rfl
    · exact solvent.sessions other old
    · exact sound
  · rcases List.mem_or_eq_of_mem_set member with old | rfl
    · exact solvent.held other old
    · exact kept

theorem record (solvent : Solvent store desk) {session : Session} (member : session ∈ desk.held)
    {operation : Operation} {occuredAt : DateTime} {account : BankAccountAggregate}
    (covered : operation.Covered session.account.balance)
    (performed : (operation.perform occuredAt).run session.account = .ok () account) (index : Nat) :
    Solvent store (desk.replace index (session.record (operation.event session.account.id occuredAt) account)) := by
  have sound := (solvent.sessions session member).record performed
  have above : 0 ≤ account.balance.units := by
    obtain ⟨balance, posted, rfl⟩ := perform_ok performed
    exact Event.post_nonneg posted (covered.change (solvent.balance member) _ _)
  apply solvent.replace index sound
  have whole := sound.inUse.live.balance
  rw [Session.record_performed, ← List.append_assoc] at whole ⊢
  apply (solvent.held session member).snoc
  intro balance posted
  cases whole.symm.trans posted
  exact above

theorem append_kept (lawful : store.Lawful) (solvent : Solvent store desk) {session : Session}
    (member : session ∈ desk.held)
    (undoubled : session.performed.Nodup ∨ ∀ event ∈ session.performed, 0 ≤ event.change) {db : Db}
    (appended : store.append desk.db session.account.id session.account.version
      session.account.getUncommittedEvents = .ok db) : NeverNegative (store.stream db session.account.id) := by
  have sound := solvent.sessions session member
  rcases undoubled with distinct | raising
  · rw [sound.inUse.live.getUncommittedEvents distinct, sound.inUse.live.version] at appended
    by_cases empty : session.performed = []
    · rw [empty, lawful.streams.append_nil] at appended
      cases appended
      exact solvent.streams _
    · rw [(lawful.streams.append_locked sound.past empty appended).2]
      exact solvent.held session member
  · rw [lawful.streams.append_stream appended]
    apply (solvent.streams _).append
    intro event inside
    rw [getUncommittedEvents, sound.inUse.live.uncommitted, OrderedSet.mem_addAll] at inside
    exact inside.elim (fun none => absurd none List.not_mem_nil) (raising event)

theorem stored (lawful : store.Lawful) (solvent : Solvent store desk) {session : Session}
    (member : session ∈ desk.held)
    (undoubled : session.performed.Nodup ∨ ∀ event ∈ session.performed, 0 ≤ event.change) {db : Db}
    (saved : EventStore.storeAsync store desk.db session.account = .ok db) : Solvent store { desk with db } := by
  have appended := storeAsync_appended saved
  refine ⟨(solvent.sessions session member).inUse.rooted lawful solvent.rooted saved, fun id => ?_,
    fun other held => ?_, solvent.held⟩
  · by_cases own : id = session.account.id
    · subst own
      exact solvent.append_kept lawful member undoubled appended
    · rw [lawful.streams.append_frame appended id own]
      exact solvent.streams id
  · exact (solvent.sessions other held).mono (lawful.streams.append_grows appended _)

theorem opened (solvent : Solvent store desk) {accountId : Guid} {occuredAt : DateTime} {account : BankAccountAggregate}
    (fresh : BankAccountAggregate.open accountId occuredAt = .ok account) :
    Solvent store (desk.hold ⟨account, [], [(.accountBalanceInitializedTo accountId occuredAt, account)]⟩) := by
  have sound : Session.Sound store desk.db _ := .opened fresh
  rw [open_eq] at fresh
  cases fresh
  apply solvent.hold sound
  apply NeverNegative.nil.snoc
  intro balance posted
  cases posted
  exact Int.le_refl 0

theorem loaded (lawful : store.Lawful) (solvent : Solvent store desk) {id : Guid} {version : Option Nat}
    {account : BankAccountAggregate} (present : EventStore.loadAsync store desk.db id version = .ok (some account)) :
    Solvent store (desk.hold ⟨account, visible (store.stream desk.db id) (version.getD 0), []⟩) := by
  apply solvent.hold (Session.Sound.loaded lawful solvent.rooted present)
  rw [Session.performed, List.map_nil, List.append_nil]
  exact (solvent.streams id).of_initial (visible_initial _ _)

theorem step (lawful : store.Lawful) (solvent : Solvent store desk) {call : DeskCall} {after : Desk Db}
    (prudent : Prudent desk call) (taken : Desk.step store desk call = some after) : Solvent store after := by
  cases call with
  | «open» accountId occuredAt =>
    simp only [Desk.step] at taken
    split at taken <;> cases taken
    · rename_i account fresh
      exact solvent.opened fresh
    · exact solvent
  | load accountId version =>
    simp only [Desk.step] at taken
    split at taken <;> cases taken
    · rename_i account present
      exact solvent.loaded lawful present
    · exact solvent
  | operate index operation occuredAt =>
    rcases Option.bind_eq_some_iff.mp taken with ⟨session, found, performed⟩
    have member := List.mem_of_getElem? found
    split at performed <;> cases performed
    · rename_i account returned
      exact solvent.record member (prudent.1 session found) returned index
    · rename_i error kept thrown
      cases perform_thrown thrown
      exact solvent.replace index (solvent.sessions session member) (solvent.held session member)
  | store index =>
    rcases Option.bind_eq_some_iff.mp taken with ⟨session, found, saved⟩
    split at saved <;> cases saved
    · rename_i db accepted
      exact solvent.stored lawful (List.mem_of_getElem? found) (prudent.2 session found) accepted
    · exact solvent

end Solvent

/-- In a run of calls within the balance, whatever their number and order, no object and no version of any
    stream has a balance below zero. A withdrawal beyond the balance is recorded like any other. -/
theorem no_overdraft {store : IDocumentStore Db} (lawful : store.Lawful) {start final : Desk Db}
    (unwritten : ∀ id, store.stream start.db id = []) (unused : start.held = []) {calls : List DeskCall}
    (runs : (machine store).Runs Prudent start calls final) :
    (∀ session ∈ final.held, 0 ≤ session.account.balance.units) ∧
    (∀ id version account, EventStore.loadAsync store final.db id version = .ok (some account) →
      0 ≤ account.balance.units) ∧
    ∀ session ∈ final.held, ∀ operationId amount occuredAt, session.account.balance.units < amount.units →
      ∃ result, (withdrawn operationId amount occuredAt).run session.account = .ok () result ∧
        .moneyWithdrawnDomainEvent operationId session.account.id amount occuredAt ∈ result.getUncommittedEvents := by
  have begun : Solvent store start := by
    refine ⟨fun id present => absurd (unwritten id) present, fun id => ?_, ?_, ?_⟩
    · rw [unwritten]
      exact NeverNegative.nil
    · simp [unused]
    · simp [unused]
  have solvent : Solvent store final :=
    runs.invariant begun fun _ _ _ before prudent taken => before.step lawful prudent taken
  refine ⟨fun session member => solvent.balance member, fun id version account present => ?_,
    fun session member operationId amount occuredAt uncovered =>
      withdrawn_recorded (solvent.balance member) uncovered operationId occuredAt⟩
  have live := (lawful.loadAsync_live present).1.balance
  rw [List.append_nil] at live
  exact solvent.streams id _ (visible_initial _ _) account.balance live

def withdrawal : Operation := .withdrawn 9 sampleAmount.value

def emptyDesk : Desk (List (Guid × Event)) := ⟨[], []⟩

def withdrawUncovered : List DeskCall := [.open 1 0, .operate 0 withdrawal 1, .store 0, .load 1 none]

theorem uncovered_withdrawal_overdraws :
    ∃ final live reloaded, (machine inMemory).exec emptyDesk withdrawUncovered = some final ∧
      final.held = [live, reloaded] ∧ live.account.balance.units < 0 ∧ reloaded.account.balance.units < 0 := by
  exact ⟨_, _, _, rfl, rfl, by decide +kernel, by decide +kernel⟩

def sampleInvoice : Operation := .createInvoice 8 sampleAmount.value

def depositThenWithdraw : List DeskCall :=
  [.open 1 0, .operate 0 sampleDeposit 1, .store 0, .load 1 none, .operate 1 sampleInvoice 2,
    .operate 1 sampleInvoice 2, .load 1 none, .operate 2 withdrawal 3, .store 2, .store 1]

/-- The last call stores an object two of whose calls left equal records, and is accepted. The object that was
    emptied records one more withdrawal. -/
theorem covered_withdrawal_solvent :
    ∃ final, (machine inMemory).exec emptyDesk depositThenWithdraw = some final ∧ final.db.length = 4 ∧
      (∀ session ∈ final.held, 0 ≤ session.account.balance.units) ∧
      (∀ id version account, EventStore.loadAsync inMemory final.db id version = .ok (some account) →
        0 ≤ account.balance.units) ∧
      ∃ emptied ∈ final.held, ∃ result, (withdrawn 10 sampleAmount.value 5).run emptied.account = .ok () result ∧
        .moneyWithdrawnDomainEvent 10 1 sampleAmount.value 5 ∈ result.getUncommittedEvents := by
  have permits : (machine inMemory).Permits Prudent emptyDesk depositThenWithdraw := by decide +kernel
  have reached := Machine.exec_last
    (show ((machine inMemory).exec emptyDesk depositThenWithdraw).isSome = true by decide +kernel)
  obtain ⟨live, reloaded, recorded⟩ :=
    no_overdraft inMemory_lawful (fun _ => rfl) rfl (Machine.permitted_runs permits reached)
  have emptied := List.mem_of_getElem? (show ((machine inMemory).last emptyDesk depositThenWithdraw).held[2]? = some _
    from rfl)
  exact ⟨_, reached, by decide +kernel, live, reloaded, _, emptied,
    recorded _ emptied 10 sampleAmount.value 5 (by decide +kernel)⟩

def withdrawBehindDoubled : List DeskCall :=
  [.open 1 0, .operate 0 sampleDeposit 1, .store 0, .load 1 none, .operate 1 sampleInvoice 2,
    .operate 1 sampleInvoice 2, .operate 1 withdrawal 4, .load 1 none, .operate 2 withdrawal 3,
    .store 2, .store 1, .load 1 none]

/-- Behind a doubled record the lock lets two withdrawals pass that are each within the balance they were made
    at. -/
theorem doubled_record_overdraws :
    (machine inMemory).Permits Covers emptyDesk withdrawBehindDoubled ∧
      ∃ final reloaded, (machine inMemory).exec emptyDesk withdrawBehindDoubled = some final ∧
        final.held.getLast? = some reloaded ∧ reloaded.account.balance.units < 0 := by
  exact ⟨by decide +kernel, _, _, rfl, rfl, by decide +kernel⟩

end Desk

end Yoomoney
