import EsYoomoney.Library.Machine
import EsYoomoney.Persistence.Reachability

namespace Yoomoney

open EventSourcing DomainEvents

/-- A client's object, the events it loaded, and those its calls have produced since, each with the
    object as it was right after the call. -/
structure Session where
  account : BankAccountAggregate
  loaded : List Event
  history : List (Event × BankAccountAggregate)

namespace Session

def performed (session : Session) : List Event := session.history.map (·.1)

/-- The one store call of a session needs new events, no two of them with one id. -/
def storable (session : Session) : Bool :=
  !session.history.isEmpty && decide (session.performed.map Event.eventId).Nodup

def record (session : Session) (event : Event) (account : BankAccountAggregate) : Session :=
  { session with account, history := session.history ++ [(event, account)] }

@[simp] theorem record_account (session : Session) (event : Event) (account : BankAccountAggregate) :
    (session.record event account).account = account := rfl

@[simp] theorem record_performed (session : Session) (event : Event) (account : BankAccountAggregate) :
    (session.record event account).performed = session.performed ++ [event] := by
  simp [record, performed]

end Session

inductive Phase where
  | idle
  | absent (id : Guid)
  | working (session : Session)
  | committed (session : Session)
  | refused (session : Session)
  | failed

inductive ClientCall where
  | load (id : Guid) (version : Option Nat)
  | open (occuredAt : DateTime)
  | operate (operation : Operation) (occuredAt : DateTime)
  | store

/-- Clients at work on one store. The journal lists the sessions that were committed, in order. -/
structure Clients (Db ι : Type) where
  db : Db
  phase : ι → Phase
  journal : List (ι × Session)

def ofAccount {ι : Type} (journal : List (ι × Session)) (id : Guid) : List Session :=
  (journal.map (·.2)).filter (·.account.id = id)

def lifeOf {ι : Type} (journal : List (ι × Session)) (id : Guid) : List (Event × BankAccountAggregate) :=
  (ofAccount journal id).flatMap Session.history

theorem lifeOf_append {ι : Type} (journal : List (ι × Session)) (client : ι) (session : Session) (id : Guid) :
    lifeOf (journal ++ [(client, session)]) id =
      lifeOf journal id ++ if session.account.id = id then session.history else [] := by
  unfold lifeOf ofAccount
  rw [List.map_append, List.filter_append, List.flatMap_append]
  congr 1
  by_cases same : session.account.id = id <;> simp [same]

namespace Clients

variable {Db ι : Type} [DecidableEq ι]

def setPhase (clients : Clients Db ι) (client : ι) (phase : Phase) : Clients Db ι :=
  { clients with phase := Function.update clients.phase client phase }

def commit (clients : Clients Db ι) (client : ι) (session : Session) (db : Db) : Clients Db ι :=
  { clients.setPhase client (.committed session) with db, journal := clients.journal ++ [(client, session)] }

/-- One call of one client. -/
def step (store : IDocumentStore Db) (clients : Clients Db ι) (label : ι × ClientCall) : Option (Clients Db ι) :=
  let client := label.1
  match clients.phase client, label.2 with
  | .idle, .load id version => some <|
    match EventStore.loadAsync store clients.db id version with
    | .ok (some account) =>
      clients.setPhase client (.working ⟨account, visible (store.stream clients.db id) (version.getD 0), []⟩)
    | .ok none => clients.setPhase client (.absent id)
    | .error _ => clients.setPhase client .failed
  | .absent id, .open occuredAt => some <|
    match BankAccountAggregate.open id occuredAt with
    | .ok account =>
      clients.setPhase client (.working ⟨account, [], [(.accountBalanceInitializedTo id occuredAt, account)]⟩)
    | .error _ => clients.setPhase client .failed
  | .working session, .operate operation occuredAt => some <|
    match (operation.perform occuredAt).run session.account with
    | .ok _ account =>
      clients.setPhase client (.working (session.record (operation.event session.account.id occuredAt) account))
    -- a throw that is caught leaves the client with the object the throw left
    | .error _ account => clients.setPhase client (.working { session with account })
  | .working session, .store =>
    if session.storable then some <|
      match EventStore.storeAsync store clients.db session.account with
      | .ok db => clients.commit client session db
      | .error _ => clients.setPhase client (.refused session)
    else none
  | _, _ => none

def machine (store : IDocumentStore Db) : Machine (Clients Db ι) (ι × ClientCall) := ⟨step store⟩

structure Initial (store : IDocumentStore Db) (clients : Clients Db ι) : Prop where
  reachable : ∃ objects, Reachable store clients.db objects
  phase : ∀ client, clients.phase client = .idle
  journal : clients.journal = []

def fresh : Clients (List (Guid × Event)) Bool := ⟨[], fun _ => .idle, []⟩

theorem fresh_initial : Initial inMemory fresh := ⟨⟨[], .empty fun _ => rfl⟩, fun _ => rfl, rfl⟩

inductive Step (store : IDocumentStore Db) (clients : Clients Db ι) (client : ι) : Clients Db ι → Prop where
  | loaded {id version account} (idle : clients.phase client = .idle)
      (present : EventStore.loadAsync store clients.db id version = .ok (some account)) :
      Step store clients client
        (clients.setPhase client (.working ⟨account, visible (store.stream clients.db id) (version.getD 0), []⟩))
  | opened {id occuredAt account} (absent : clients.phase client = .absent id)
      (fresh : BankAccountAggregate.open id occuredAt = .ok account) :
      Step store clients client
        (clients.setPhase client (.working ⟨account, [], [(.accountBalanceInitializedTo id occuredAt, account)]⟩))
  | operated {session occuredAt account} {operation : Operation} (working : clients.phase client = .working session)
      (performed : (operation.perform occuredAt).run session.account = .ok () account) :
      Step store clients client
        (clients.setPhase client (.working (session.record (operation.event session.account.id occuredAt) account)))
  | caught {session} (working : clients.phase client = .working session) :
      Step store clients client (clients.setPhase client (.working session))
  | committed {session db} (working : clients.phase client = .working session) (storable : session.storable = true)
      (saved : EventStore.storeAsync store clients.db session.account = .ok db) :
      Step store clients client (clients.commit client session db)
  | stopped {phase} (running : ∀ session, clients.phase client ≠ .committed session)
      (stop : (∃ id, phase = .absent id) ∨ (∃ session, phase = .refused session) ∨ phase = .failed) :
      Step store clients client (clients.setPhase client phase)

theorem step_cases {store : IDocumentStore Db} {clients after : Clients Db ι} {label : ι × ClientCall}
    (taken : step store clients label = some after) : Step store clients label.1 after := by
  obtain ⟨client, call⟩ := label
  unfold step at taken
  dsimp only at taken
  split at taken
  · rename_i id version idle
    have running : ∀ session, clients.phase client ≠ .committed session := by simp [idle]
    cases taken
    split
    · rename_i present
      exact .loaded idle present
    · exact .stopped running (Or.inl ⟨_, rfl⟩)
    · exact .stopped running (Or.inr (Or.inr rfl))
  · rename_i id occuredAt absent
    cases taken
    split
    · rename_i fresh
      exact .opened absent fresh
    · exact .stopped (by simp [absent]) (Or.inr (Or.inr rfl))
  · rename_i session operation occuredAt working
    cases taken
    split
    · rename_i performed
      exact .operated working performed
    · rename_i thrown
      cases BankAccountAggregate.perform_thrown thrown
      exact .caught working
  · rename_i session working
    split at taken
    · rename_i storable
      cases taken
      split
      · rename_i saved
        exact .committed working storable saved
      · exact .stopped (by simp [working]) (Or.inr (Or.inl ⟨_, rfl⟩))
    · cases taken
  · cases taken

end Clients

end Yoomoney
