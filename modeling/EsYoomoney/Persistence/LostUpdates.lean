import EsYoomoney.Persistence.ClientsInvariant
import EsYoomoney.Persistence.Representation

namespace Yoomoney

open EventSourcing DomainEvents

namespace Clients

variable {Db ι : Type} {store : IDocumentStore Db}

structure AppendedBehind (store : IDocumentStore Db) (before after : Clients Db ι) (client : ι) (session : Session) :
    Prop where
  phase : after.phase client = .committed session
  journal : after.journal = before.journal ++ [(client, session)]
  stream : store.stream after.db session.account.id = session.loaded ++ session.performed
  frame : ∀ other, other ≠ session.account.id → store.stream after.db other = store.stream before.db other

structure Refused (before after : Clients Db ι) (client : ι) (session : Session) : Prop where
  phase : after.phase client = .refused session
  journal : after.journal = before.journal
  db : after.db = before.db

theorem lifeOf_performed (journal : List (ι × Session)) (id : Guid) :
    (lifeOf journal id).map (·.1) = (ofAccount journal id).flatMap Session.performed := by
  rw [lifeOf, List.map_flatMap]
  rfl

variable [DecidableEq ι]

theorem Session.Sound.store_iff (lawful : store.Lawful) {clients after : Clients Db ι} {client : ι} {session : Session}
    (sound : session.Sound store clients.db) (working : clients.phase client = .working session)
    (taken : step store clients (client, .store) = some after) :
    if store.stream clients.db session.account.id = session.loaded then
      AppendedBehind store clients after client session
    else Refused clients after client session := by
  simp only [step, working] at taken
  split at taken
  · rename_i storable
    obtain ⟨filled, store_eq⟩ := sound.store_eq storable
    cases taken
    split
    · rename_i current
      obtain ⟨db, appended⟩ := (lawful.streams.append_ok_iff sound.past filled).mpr current
      rw [store_eq, appended]
      exact ⟨by simp [commit, setPhase], rfl, (lawful.streams.append_locked sound.past filled appended).2,
        lawful.streams.append_frame appended⟩
    · rename_i stale
      cases refusal : EventStore.storeAsync store clients.db session.account with
      | ok db =>
        rw [store_eq] at refusal
        exact absurd ((lawful.streams.append_ok_iff sound.past filled).mp ⟨db, refusal⟩) stale
      | error error => exact ⟨by simp [setPhase], rfl, rfl⟩
  · cases taken

/-- Whatever the clients do, in whatever order: a stream is what it was followed by the batches of the
    committed sessions, each committed once, and the next store call appends behind exactly the prefix
    its client loaded or, when that is no longer the whole stream, is refused. -/
theorem no_lost_update (lawful : store.Lawful) {start final : Clients Db ι} {labels : List (ι × ClientCall)}
    (initial : Initial store start) (runs : (machine store).Runs Machine.anyStep start labels final) :
    (∀ id, store.stream final.db id =
      store.stream start.db id ++ (ofAccount final.journal id).flatMap Session.performed) ∧
    ((final.journal.map (·.1)).Nodup ∧
      ∀ client session, (client, session) ∈ final.journal ↔ final.phase client = .committed session) ∧
    ∀ client session after, final.phase client = .working session →
      step store final (client, .store) = some after →
      session.loaded <+: store.stream final.db session.account.id ∧
      if store.stream final.db session.account.id = session.loaded then
        AppendedBehind store final after client session
      else Refused final after client session := by
  have invariant := Invariant.run lawful initial runs
  refine ⟨?_, ⟨invariant.once, invariant.committed⟩, ?_⟩
  · intro id
    rw [invariant.streams, lifeOf_performed]
  · intro client session after working taken
    have sound := invariant.sessions client session working
    exact ⟨sound.past, Session.Sound.store_iff lawful sound working taken⟩

def bothOpen : List (Bool × ClientCall) :=
  [(true, .load 1 none), (false, .load 1 none), (true, .open 5), (false, .open 6),
    (false, .operate sampleDeposit 7), (true, .store)]

theorem second_opening_refused :
    ∃ final session after, (machine inMemory).exec fresh bothOpen = some final ∧
      final.phase false = .working session ∧ step inMemory final (false, .store) = some after ∧
      Refused final after false session := by
  refine ⟨_, _, _, rfl, rfl, rfl, ?_⟩
  have runs := Machine.exec_runs (machine inMemory) fresh bothOpen _ rfl
  have stored := ((no_lost_update inMemory_lawful fresh_initial runs).2.2 false _ _ rfl rfl).2
  rwa [if_neg (by decide +kernel)] at stored

end Clients

end Yoomoney
