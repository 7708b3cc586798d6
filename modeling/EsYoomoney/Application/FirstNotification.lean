import EsYoomoney.Application.Batches

namespace Yoomoney

open EventSourcing DomainEvents BankAccountAggregate

variable {Db : Type} {store : IDocumentStore Db}

theorem existsAsync_account_iff (lawful : store.Lawful) {db : Db} (rooted : RootedStore store db) (eventId : Guid) :
    EventStore.existsAsync store db eventId = true ↔ store.stream db eventId ≠ [] := by
  rw [lawful.existsAsync_iff]
  constructor
  · intro found
    rcases found with ⟨id, event, stored, carried⟩
    have own := (rooted id (List.ne_nil_of_mem stored)).carried event stored
    have same : id = eventId := own.symm.trans carried
    subst same
    exact List.ne_nil_of_mem stored
  · intro present
    rcases List.exists_mem_of_ne_nil _ present with ⟨event, stored⟩
    exact ⟨eventId, event, stored, (rooted eventId present).carried event stored⟩

namespace InvoiceStatusChangedEvent

def notify (store : IDocumentStore Db) (reply : Except Exception Payment) (db : Db) (occuredAt : DateTime)
    (payment : Payment) : Db := ((environment store).run reply (handle occuredAt ⟨payment⟩) db).2

/-- What the handler leaves in the store, once the ids are read and the account is loaded. -/
theorem notify_eq {reply : Except Exception Payment} {db : Db} {occuredAt : DateTime} {payment : Payment}
    {eventId accountId : Guid} {account : BankAccountAggregate} (parsed : Guid.parse payment.id = .ok eventId)
    (named : Guid.parse payment.merchantCustomerId = .ok accountId)
    (loaded : EventStore.loadAsync store db accountId none = .ok (some account)) :
    notify store reply db occuredAt payment =
      if EventStore.existsAsync store db eventId = true then db
      else match payment.amount with
        | none => db
        | some amount =>
          match construct (deposit eventId amount.value amount.currency payment occuredAt) account with
          | .error _ => db
          | .ok changed =>
            match EventStore.storeAsync store db changed with
            | .error _ => db
            | .ok after => after := by
  unfold notify handle
  simp only [parsed, Program.ofExcept_ok_bind, Environment.run_perform, environment, respond]
  cases EventStore.existsAsync store db eventId with
  | true => rfl
  | false =>
    simp only [Bool.false_eq_true, if_false, named, Program.ofExcept_ok_bind, Environment.run_perform, respond, loaded]
    cases payment.amount with
    | none => rfl
    | some amount =>
      dsimp only
      cases construct (deposit eventId amount.value amount.currency payment occuredAt) account with
      | error error => rfl
      | ok changed =>
        rw [Program.ofExcept_ok_bind, ← bind_pure (IEsEventStore.storeAsync changed), Environment.run_perform]
        dsimp only [respond]
        cases EventStore.storeAsync store db changed <;> rfl

end InvoiceStatusChangedEvent

/-- The notification's deposit, and nothing else, is behind the account's events, and the account loads
    with a balance that is higher by exactly its amount. -/
structure CreditsExactly (store : IDocumentStore Db) (before after : Db) (occuredAt : DateTime) (payment : Payment)
    (eventId accountId : Guid) (amount : Amount) (old new : BankAccountAggregate) : Prop where
  priced : payment.amount = some amount
  stream : store.stream after accountId = store.stream before accountId ++
    [.moneyDepositedDomainEvent eventId accountId amount.value amount.currency payment occuredAt]
  frame : ∀ other, other ≠ accountId → store.stream after other = store.stream before other
  loaded : EventStore.loadAsync store after accountId none = .ok (some new)
  raised : new.balance.units = old.balance.units + amount.value.units

section Credit

variable {db : Db} {occuredAt : DateTime} {payment : Payment} {eventId accountId : Guid} {amount : Amount}
  {account : BankAccountAggregate}

theorem CreditsExactly.changed {after : Db} {old new : BankAccountAggregate}
    (credits : CreditsExactly store db after occuredAt payment eventId accountId amount old new) : after ≠ db := by
  rintro rfl
  have grown := congrArg List.length credits.stream
  simp at grown

/-- Nothing can stop a deposit on the account as it is stored: it lands behind the stream it was built on. -/
theorem deposit_stored (lawful : store.Lawful) (rooted : RootedStore store db)
    (loaded : EventStore.loadAsync store db accountId none = .ok (some account))
    {balance : Decimal} (added : account.balance.add amount.value = .ok balance) :
    ∃ changed after new, construct (deposit eventId amount.value amount.currency payment occuredAt) account =
        .ok changed ∧ EventStore.storeAsync store db changed = .ok after ∧
      store.stream after accountId = store.stream db accountId ++
        [.moneyDepositedDomainEvent eventId accountId amount.value amount.currency payment occuredAt] ∧
      (∀ other, other ≠ accountId → store.stream after other = store.stream db other) ∧
      EventStore.loadAsync store after accountId none = .ok (some new) ∧ new.balance = balance := by
  have aggregation : aggregated (store.stream db accountId) = .ok (some account) :=
    (lawful.loadAsync_eq db accountId none).symm.trans loaded
  obtain ⟨live, -, identified⟩ := aggregated_live aggregation (rooted accountId)
  let operation := Operation.deposit eventId amount.value amount.currency payment
  have ran : (operation.perform occuredAt).run account =
      .ok () (account.recorded (operation.event account.id occuredAt) balance) := by
    have posted : (operation.event account.id occuredAt).post account.balance = .ok balance := added
    rw [perform_run, posted]
  have performed : construct (operation.perform occuredAt) account =
      .ok (account.recorded (operation.event account.id occuredAt) balance) := by
    rw [construct, ran]
  obtain ⟨next, sameId⟩ := live.perform ran
  rw [identified] at performed next sameId
  have saved := @IDocumentStore.Lawful.storeAsync_eq _ store db _ _ _ next (List.nodup_singleton _)
  rw [sameId] at saved
  obtain ⟨after, appended⟩ := (lawful.streams.append_ok_iff (List.prefix_refl (store.stream db accountId))
    (List.cons_ne_nil _ _)).mpr rfl
  have grown := lawful.streams.append_stream appended
  exact ⟨_, after, _, performed, saved.trans appended, grown, lawful.streams.append_frame appended,
    lawful.loadAsync_stored next grown (List.cons_ne_nil _ _), rfl⟩

/-- A notification credits its account by exactly the amount when, and only when, no account has the
    invoice's id: the early return asks for a stream of that id. (The payment has to carry an amount,
    and the sum must not have to be rounded.) -/
theorem first_notification_credits_iff (lawful : store.Lawful) {objects : List BankAccountAggregate}
    (reachable : Reachable store db objects) (parsed : Guid.parse payment.id = .ok eventId)
    (named : Guid.parse payment.merchantCustomerId = .ok accountId)
    (loaded : EventStore.loadAsync store db accountId none = .ok (some account)) (reply : Except Exception Payment) :
    (∃ amount new, CreditsExactly store db (InvoiceStatusChangedEvent.notify store reply db occuredAt payment)
      occuredAt payment eventId accountId amount account new) ↔
    store.stream db eventId = [] ∧ ∃ amount, payment.amount = some amount ∧
      decimalFormat.Representable (account.balance.units + amount.value.units) := by
  have rooted := (reachable.invariant lawful).1
  have known := existsAsync_account_iff lawful rooted eventId
  have notified : InvoiceStatusChangedEvent.notify store reply db occuredAt payment = _ :=
    InvoiceStatusChangedEvent.notify_eq parsed named loaded
  constructor
  · rintro ⟨amount, new, credits⟩
    have moved := credits.changed
    rw [notified] at moved
    split at moved
    · exact absurd rfl moved
    · rename_i unknown
      refine ⟨by_contra fun present => unknown (known.mpr present), amount, credits.priced, ?_⟩
      rw [← credits.raised]
      exact new.balance.representable
  · rintro ⟨missing, amount, priced, representable⟩
    have added := Decimal.add_exact representable
    obtain ⟨changed, after, new, performed, saved, grown, frame, present, balance⟩ :=
      deposit_stored lawful rooted loaded added
    refine ⟨amount, new, ?_⟩
    have unknown : ¬ EventStore.existsAsync store db eventId = true := fun found => known.mp found missing
    rw [notified, if_neg unknown, priced]
    dsimp only
    rw [performed]
    dsimp only
    rw [saved]
    exact ⟨priced, grown, frame, present, by rw [balance]⟩

end Credit

def openedLog : List (Guid × Event) := [(1, .accountBalanceInitializedTo 1 0)]

theorem openedLog_reachable : ∃ objects, Reachable inMemory openedLog objects := by
  have fresh : BankAccountAggregate.open 1 0 = .ok _ := rfl
  have opened : Reachable inMemory [] _ := .opened (.empty fun _ => rfl) fresh
  have stored : Reachable inMemory openedLog _ := .stored opened List.mem_cons_self rfl
  exact ⟨_, stored⟩

theorem first_notification_credits :
    ∃ account amount new, EventStore.loadAsync inMemory openedLog 1 none = .ok (some account) ∧
      CreditsExactly inMemory openedLog
        (InvoiceStatusChangedEvent.notify inMemory (.ok samplePayment) openedLog 5 samplePayment) 5 samplePayment 7 1
        amount account new := by
  obtain ⟨objects, reachable⟩ := openedLog_reachable
  have loaded : EventStore.loadAsync inMemory openedLog 1 none = .ok (some _) := rfl
  obtain ⟨amount, new, credits⟩ := (first_notification_credits_iff inMemory_lawful reachable
    (show Guid.parse samplePayment.id = .ok 7 from rfl) rfl loaded (.ok samplePayment)).mpr
    ⟨rfl, sampleAmount, rfl, by decide +kernel⟩
  exact ⟨_, amount, new, loaded, credits⟩

/-- A client has opened an account under the id that the provider gives to another account's payment. -/
def homonymLog : List (Guid × Event) := openedLog ++ [(7, .accountBalanceInitializedTo 7 0)]

theorem homonym_account_stops_credit :
    ∃ account, (∃ objects, Reachable inMemory homonymLog objects) ∧
      Guid.parse samplePayment.id = .ok 7 ∧ Guid.parse samplePayment.merchantCustomerId = .ok 1 ∧
      EventStore.loadAsync inMemory homonymLog 1 none = .ok (some account) ∧
      (∀ entry ∈ homonymLog, entry.2.depositedInvoice ≠ some 7) ∧
      InvoiceStatusChangedEvent.notify inMemory (.ok samplePayment) homonymLog 5 samplePayment = homonymLog ∧
      ¬ ∃ amount new, CreditsExactly inMemory homonymLog
        (InvoiceStatusChangedEvent.notify inMemory (.ok samplePayment) homonymLog 5 samplePayment) 5 samplePayment 7 1
        amount account new := by
  obtain ⟨objects, reachable⟩ := openedLog_reachable
  have fresh : BankAccountAggregate.open 7 0 = .ok _ := rfl
  have unchanged :
      InvoiceStatusChangedEvent.notify inMemory (.ok samplePayment) homonymLog 5 samplePayment = homonymLog := rfl
  have opened : Reachable inMemory openedLog _ := .opened reachable fresh
  have stored : Reachable inMemory homonymLog _ := .stored opened List.mem_cons_self rfl
  refine ⟨_, ⟨_, stored⟩, rfl, rfl, rfl, by decide +kernel, unchanged, ?_⟩
  rintro ⟨amount, new, credits⟩
  exact credits.changed unchanged

end Yoomoney
