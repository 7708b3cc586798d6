import EsYoomoney.Persistence.Representation

namespace Yoomoney

open EventSourcing DomainEvents BankAccountAggregate

/-- Two different records of one event id. -/
def SharesId (events : List Event) : Prop :=
  ∃ first ∈ events, ∃ second ∈ events, first.eventId = second.eventId ∧ first ≠ second

theorem distinct_ids_iff (events : List Event) :
    ((OrderedSet.empty.addAll events).toList.map Event.eventId).Nodup ↔ ¬ SharesId events := by
  rw [List.nodup_map_iff_inj_on (OrderedSet.empty.addAll events).nodup]
  have member : ∀ event, event ∈ (OrderedSet.empty.addAll events).toList ↔ event ∈ events := by
    simp [OrderedSet.mem_addAll]
  simp only [member, SharesId, not_exists, not_and, Decidable.not_not]

variable {Db : Type} {store : IDocumentStore Db}

theorem Live.storeAsync_set {account : BankAccountAggregate} {base pending : List Event}
    (live : Live account base pending) (apart : ¬ SharesId pending) (db : Db) :
    EventStore.storeAsync store db account = store.append db account.id (base.length + pending.length)
      (OrderedSet.empty.addAll pending).toList := by
  have distinct := (distinct_ids_iff pending).mpr apart
  unfold EventStore.storeAsync BankAccountAggregate.getUncommittedEvents
  simp only [live.uncommitted, live.version, (distinctBy_length_iff _ _).mpr distinct, ne_eq, not_true_eq_false,
    if_false]

theorem Live.refused_iff (lawful : store.Lawful) (creates : store.StartsAnywhere) {account : BankAccountAggregate}
    {base pending : List Event} (live : Live account base pending) (filled : pending ≠ []) (db : Db) :
    (∃ error, EventStore.storeAsync store db account = .error error) ↔
      SharesId pending ∨ (store.stream db account.id ≠ [] ∧
        (store.stream db account.id).length + pending.dedup.length ≠ base.length + pending.length) := by
  have kept : (OrderedSet.empty.addAll pending).toList.Perm pending.dedup := OrderedSet.addAll_dedup pending
  by_cases shared : SharesId pending
  · have duplicate : ¬ (account.getUncommittedEvents.map Event.eventId).Nodup := by
      rw [BankAccountAggregate.getUncommittedEvents, live.uncommitted, distinct_ids_iff]
      exact not_not_intro shared
    exact iff_of_true ⟨_, IDocumentStore.Lawful.storeAsync_duplicate duplicate⟩ (Or.inl shared)
  rw [live.storeAsync_set shared, or_iff_right shared]
  by_cases missing : store.stream db account.id = []
  · -- nothing compares the version with a stream that is not there
    obtain ⟨after, created⟩ := creates db account.id (base.length + pending.length)
      (OrderedSet.empty.addAll pending).toList missing
    rw [created]
    simp [missing]
  · have batch : (OrderedSet.empty.addAll pending).toList ≠ [] := by
      intro empty
      rw [empty, List.nil_perm, List.dedup_eq_nil] at kept
      exact filled kept
    have accepted := lawful.streams.append_existing db account.id (base.length + pending.length) _ missing batch
    rw [kept.length_eq] at accepted
    rw [and_iff_right missing, ne_eq, ← accepted]
    cases store.append db account.id (base.length + pending.length) (OrderedSet.empty.addAll pending).toList with
    | ok after => simp
    | error error => simp

/-- Calls of one event id are refused exactly when they left two different records of one id, or when the
    records they left are not as many as the version that was counted for them leaves room for. A refusal
    commits nothing: there is no other store than the one before it. -/
theorem duplicates_refused_iff (lawful : store.Lawful) (creates : store.StartsAnywhere) {db later : Db}
    {account result : BankAccountAggregate} {base start : List Event}
    (obtained : Obtained store db account base start) {operations : Operations}
    (performed : operations.performAll account = .ok result)
    (repeated : ¬ ((operations.events account.id).map Event.eventId).Nodup) :
    (∃ error, EventStore.storeAsync store later result = .error error) ↔
      SharesId (start ++ operations.events account.id) ∨
      (store.stream later account.id ≠ [] ∧
        (store.stream later account.id).length + (start ++ operations.events account.id).dedup.length ≠
          base.length + (start ++ operations.events account.id).length) := by
  obtain ⟨live, sameId⟩ := (obtained.live lawful).performAll performed
  have filled : start ++ operations.events account.id ≠ [] := by
    intro empty
    rw [(List.append_eq_nil_iff.mp empty).2] at repeated
    exact repeated List.nodup_nil
  rw [live.refused_iff lawful creates filled, sameId]

def depositTwice (second : DateTime) : Operations := [(sampleDeposit, 5), (sampleDeposit, second)]

theorem later_repetition_refused :
    ∃ account result error, BankAccountAggregate.open 1 0 = .ok account ∧
      (depositTwice 6).performAll account = .ok result ∧
      EventStore.storeAsync inMemory [] result = .error error := by
  have fresh : BankAccountAggregate.open 1 0 = .ok _ := rfl
  have obtained := @Obtained.opened _ inMemory [] 1 0 _ fresh
  have shared : SharesId ([.accountBalanceInitializedTo 1 0] ++ (depositTwice 6).events 1) :=
    ⟨sampleDeposit.event 1 5, by simp [depositTwice, Operations.events], sampleDeposit.event 1 6,
      by simp [depositTwice, Operations.events], rfl, by decide⟩
  obtain ⟨error, refused⟩ := (@duplicates_refused_iff _ inMemory inMemory_lawful (logStore_startsAnywhere _) [] [] _ _
    _ _ obtained (depositTwice 6) rfl (by decide)).mpr (Or.inl shared)
  exact ⟨_, _, error, fresh, rfl, refused⟩

def invoicedMeanwhile : List (Guid × Event) :=
  [(1, .accountBalanceInitializedTo 1 0), (1, .invoiceCreatedDomainEvent 7 1 sampleAmount.value 4)]

theorem simultaneous_repetition_accepted :
    ¬ (((depositTwice 5).events 1).map Event.eventId).Nodup ∧
    (∃ account result after, EventStore.loadAsync inMemory (invoicedMeanwhile.take 1) 1 none = .ok (some account) ∧
      (depositTwice 5).performAll account = .ok result ∧
      EventStore.storeAsync inMemory invoicedMeanwhile result = .ok after ∧
      (inMemory.stream after 1).length = 3) ∧
    ∃ account result after, BankAccountAggregate.open 1 0 = .ok account ∧
      (depositTwice 5).performAll account = .ok result ∧
      EventStore.storeAsync inMemory [] result = .ok after ∧ (inMemory.stream after 1).length = 2 :=
  ⟨by decide, ⟨_, _, _, rfl, rfl, rfl, rfl⟩, ⟨_, _, _, rfl, rfl, rfl, rfl⟩⟩

end Yoomoney
