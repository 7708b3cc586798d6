import EsYoomoney.Application.Contention
import EsYoomoney.Application.InvoicePages

namespace Yoomoney

open EventSourcing DomainEvents GetInvoicesQuery

variable {Db ι : Type} {store : IDocumentStore Db} {accountId : Guid} {pageSize : Int32}

/-- The deposits that a query finds: those of the stream, each record once. -/
def depositsOf (store : IDocumentStore Db) (db : Db) (accountId : Guid) : List Event :=
  moneyDeposited (OrderedSet.empty.addAll (store.stream db accountId)).toList

theorem depositsOf_loaded (lawful : store.Lawful) {db : Db} {account : BankAccountAggregate}
    (loaded : EventStore.loadAsync store db accountId none = .ok (some account)) :
    depositsOf store db accountId = moneyDeposited account.getCommittedEvents := by
  rw [(lawful.committed_deposits loaded).2.2]
  rfl

theorem depositsOf_initial {earlier later : Db}
    (grown : store.stream earlier accountId <+: store.stream later accountId) :
    depositsOf store earlier accountId <+: depositsOf store later accountId := by
  rcases grown with ⟨more, whole⟩
  rw [depositsOf, depositsOf, ← whole, OrderedSet.addAll_append]
  exact (OrderedSet.addAll_initial _ more).filter _

theorem send_ok (lawful : store.Lawful) {db : Db} {reply : Except Exception Payment} {request : Request}
    {response : Response} (sent : send store db reply request = .ok response) :
    (depositsOf store db request.accountId).length ≤ Enumerable.maxLength ∧
      response = paged request (depositsOf store db request.accountId) := by
  cases present : EventStore.loadAsync store db request.accountId none with
  | error error =>
    unfold send handle at sent
    rw [Environment.run_perform] at sent
    dsimp only [environment, respond] at sent
    rw [present] at sent
    cases sent
  | ok loaded =>
    cases loaded with
    | none =>
      rw [send_unknown lawful ((lawful.loadAsync_none_iff db request.accountId none).mp present)] at sent
      cases sent
    | some account =>
      rw [send_eq present, ← depositsOf_loaded lawful present] at sent
      split at sent
      · rename_i few
        cases sent
        exact ⟨few, rfl⟩
      · cases sent

/-- The page behind as many full pages as have been shown has an offset that does not wrap. -/
theorem next_offset {items index : Nat} (few : items ≤ Enumerable.maxLength) (positive : 1 ≤ pageSize.toInt)
    (reached : index * pageSize.toInt.toNat ≤ items) :
    ((Int32.ofNat (index + 1) - 1) * pageSize).toInt.toNat = index * pageSize.toInt.toNat := by
  have size : (pageSize.toInt.toNat : Int) = pageSize.toInt := Int.toNat_of_nonneg (by omega)
  have least : index * 1 ≤ index * pageSize.toInt.toNat := Nat.mul_le_mul_left index (by omega)
  unfold Enumerable.maxLength at few
  have number : (Int32.ofNat (index + 1)).toInt = index + 1 := by
    rw [Int32.toInt_ofNat_of_lt (by omega)]
    rfl
  have product : (index : Int) * pageSize.toInt = (index * pageSize.toInt.toNat : Nat) := by
    rw [Int.natCast_mul, size]
  rw [Enumerable.offset_exact (by omega) (by omega) (by rw [number, Int.add_sub_cancel, product]; omega), number,
    Int.add_sub_cancel, product]
  exact Int.toNat_natCast _

/-- The handlers at work, and a client that asks for one page after another until one is not full. -/
structure Browsing (Db ι : Type) where
  service : Service Db ι
  responses : List Response

namespace Browsing

inductive Label (ι : Type) where
  | call (label : ι × Except Exception Payment)
  | turnPage (reply : Except Exception Payment)

abbrev Full (pageSize : Int32) (response : Response) : Prop := response.invoices.length = pageSize.toInt.toNat

def shown (browsing : Browsing Db ι) : List Event := browsing.responses.flatMap (·.invoices)

def step [DecidableEq ι] (store : IDocumentStore Db) (accountId : Guid) (pageSize : Int32) (browsing : Browsing Db ι) :
    Label ι → Option (Browsing Db ι)
  | .call label => (Pool.step (environment store) browsing.service label).map fun service => { browsing with service }
  | .turnPage reply =>
    if ∀ response ∈ browsing.responses, Full pageSize response then
      (send store browsing.service.shared reply
        ⟨accountId, Int32.ofNat (browsing.responses.length + 1), pageSize⟩).toOption.map fun response =>
          { browsing with responses := browsing.responses ++ [response] }
    else none

def machine [DecidableEq ι] (store : IDocumentStore Db) (accountId : Guid) (pageSize : Int32) :
    Machine (Browsing Db ι) (Label ι) := ⟨step store accountId pageSize⟩

/-- What has been shown is a front part of the deposits, page by page, and holds at least those that were there at
    the start as soon as a page was not full. -/
structure Walked (store : IDocumentStore Db) (accountId : Guid) (pageSize : Int32) (start : Db)
    (browsing : Browsing Db ι) : Prop where
  grown : depositsOf store start accountId <+: depositsOf store browsing.service.shared accountId
  shown : browsing.shown <+: depositsOf store browsing.service.shared accountId
  filled : (∀ response ∈ browsing.responses, Full pageSize response) →
    browsing.shown.length = browsing.responses.length * pageSize.toInt.toNat
  ended : (∃ response ∈ browsing.responses, ¬ Full pageSize response) →
    depositsOf store start accountId <+: browsing.shown
  counted : ∀ response ∈ browsing.responses,
    response.totalCount.toInt ≤ (depositsOf store browsing.service.shared accountId).length
  ordered : browsing.responses.Pairwise fun earlier later => earlier.totalCount.toInt ≤ later.totalCount.toInt

namespace Walked

variable {start : Db} {browsing : Browsing Db ι} {service after : Service Db ι}

theorem nothing : Walked store accountId pageSize service.shared (⟨service, []⟩ : Browsing Db ι) where
  grown := List.prefix_refl _
  shown := List.nil_prefix
  filled _ := by simp [Browsing.shown]
  ended partly := by simp at partly
  counted _ member := absurd member List.not_mem_nil
  ordered := List.Pairwise.nil

theorem call (walked : Walked store accountId pageSize start browsing)
    (grown : store.stream browsing.service.shared accountId <+: store.stream after.shared accountId) :
    Walked store accountId pageSize start { browsing with service := after } where
  grown := walked.grown.trans (depositsOf_initial grown)
  shown := walked.shown.trans (depositsOf_initial grown)
  filled := walked.filled
  ended := walked.ended
  counted response member := by
    have longer := (depositsOf_initial grown).length_le
    have count := walked.counted response member
    dsimp only
    omega
  ordered := walked.ordered

theorem turnPage (walked : Walked store accountId pageSize start browsing) (lawful : store.Lawful)
    (positive : 1 ≤ pageSize.toInt) {reply : Except Exception Payment} {response : Response}
    (full : ∀ response ∈ browsing.responses, Full pageSize response)
    (sent : send store browsing.service.shared reply
      ⟨accountId, Int32.ofNat (browsing.responses.length + 1), pageSize⟩ = .ok response) :
    Walked store accountId pageSize start { browsing with responses := browsing.responses ++ [response] } := by
  obtain ⟨few, rfl⟩ := send_ok lawful sent
  dsimp only at few
  have before := walked.filled full
  have reached := walked.shown.length_le
  rw [before] at reached
  have offset := next_offset few positive reached
  have joined := front_page walked.shown pageSize.toInt.toNat
  rw [before, ← offset] at joined
  have turned : Browsing.shown { browsing with responses := browsing.responses ++ [paged
      ⟨accountId, Int32.ofNat (browsing.responses.length + 1), pageSize⟩
      (depositsOf store browsing.service.shared accountId)] } =
        (depositsOf store browsing.service.shared accountId).take
          (((Int32.ofNat (browsing.responses.length + 1) - 1) * pageSize).toInt.toNat + pageSize.toInt.toNat) := by
    rw [← joined, Browsing.shown, List.flatMap_append, List.flatMap_singleton]
    rfl
  have total : (Int32.ofNat (depositsOf store browsing.service.shared accountId).length).toInt =
      (depositsOf store browsing.service.shared accountId).length := by
    unfold Enumerable.maxLength at few
    exact Int32.toInt_ofNat_of_lt (by omega)
  refine ⟨walked.grown, ?_, fun whole => ?_, ?_, ?_, ?_⟩
  · rw [turned]
    exact List.take_prefix _ _
  · have last := whole _ (List.mem_append_right _ List.mem_cons_self)
    rw [Browsing.shown, List.flatMap_append, List.flatMap_singleton, List.length_append, last, List.length_append,
      List.length_singleton, Nat.succ_mul, ← before]
    rfl
  · rintro ⟨short, member, partly⟩
    rcases List.mem_append.mp member with old | new
    · exact absurd (full short old) partly
    · rw [List.mem_singleton.mp new] at partly
      rw [turned, List.take_of_length_le (short_page partly)]
      exact walked.grown
  · intro response member
    rcases List.mem_append.mp member with old | new
    · exact walked.counted response old
    · rw [List.mem_singleton.mp new]
      exact le_of_eq total
  · refine List.pairwise_append.mpr ⟨walked.ordered, List.pairwise_singleton _ _, ?_⟩
    intro earlier old later new
    rw [List.mem_singleton.mp new]
    exact le_of_le_of_eq (walked.counted earlier old) total.symm

end Walked

variable [DecidableEq ι] {start browsing : Browsing Db ι} {labels : List (Label ι)}
  {allowed : Browsing Db ι → Label ι → Prop}

theorem walked (lawful : store.Lawful) (positive : 1 ≤ pageSize.toInt) {service : Service Db ι}
    (runs : (machine store accountId pageSize).Runs allowed ⟨service, []⟩ labels browsing) :
    Walked store accountId pageSize service.shared browsing := by
  apply runs.invariant .nothing
  intro before label after kept _ taken
  cases label with
  | call label =>
    rcases Option.map_eq_some_iff.mp taken with ⟨next, called, rfl⟩
    apply kept.call
    rcases Pool.step_eq called with ⟨call, rest, waiting, rfl⟩
    exact ⟨_, (Service.respond_stream lawful _ _ _ _).symm⟩
  | turnPage reply =>
    have turned : step store accountId pageSize before (.turnPage reply) = some after := taken
    unfold step at turned
    dsimp only at turned
    split at turned
    · rename_i full
      rcases Option.map_eq_some_iff.mp turned with ⟨response, answered, rfl⟩
      cases sent : send store before.service.shared reply
          ⟨accountId, Int32.ofNat (before.responses.length + 1), pageSize⟩ with
      | error error =>
        rw [sent] at answered
        cases answered
      | ok answer =>
        rw [sent] at answered
        cases answered
        exact kept.turnPage lawful positive full sent
    · cases turned

/-- A client that turns the pages while the handlers store is shown deposits in their order, none twice and none left
    out. Once a page is not full it has been shown every deposit that was there when it began. -/
theorem pages_beside_stores (lawful : store.Lawful) (positive : 1 ≤ pageSize.toInt) {service : Service Db ι}
    (runs : (machine store accountId pageSize).Runs Machine.anyStep ⟨service, []⟩ labels browsing)
    {account : BankAccountAggregate}
    (loaded : EventStore.loadAsync store browsing.service.shared accountId none = .ok (some account)) :
    browsing.shown <+: moneyDeposited account.getCommittedEvents ∧ browsing.shown.Nodup ∧
      ((∃ response ∈ browsing.responses, ¬ Full pageSize response) →
        ∀ old, EventStore.loadAsync store service.shared accountId none = .ok (some old) →
          moneyDeposited old.getCommittedEvents <+: browsing.shown) ∧
      browsing.responses.Pairwise fun earlier later => earlier.totalCount.toInt ≤ later.totalCount.toInt := by
  have walked := walked lawful positive runs
  have shown := walked.shown
  rw [depositsOf_loaded lawful loaded] at shown
  refine ⟨shown, shown.sublist.nodup (lawful.committed_deposits loaded).1, fun short old present => ?_, walked.ordered⟩
  rw [← depositsOf_loaded lawful present]
  exact walked.ended short

def creditedService : Service (List (Guid × Event)) Unit :=
  Service.begin sampleHost (fun _ => .invoiceStatusChanged ⟨otherPayment⟩ 3) creditedLog

def turning : List (Label Unit) :=
  let call := Label.call ((), Except.ok samplePayment)
  [.turnPage (.ok samplePayment), call, call, call, .turnPage (.ok samplePayment), .turnPage (.ok samplePayment)]

theorem turned_beside_notification :
    ∃ browsing account, (machine inMemory 1 1).exec ⟨creditedService, []⟩ turning = some browsing ∧
      EventStore.loadAsync inMemory browsing.service.shared 1 none = .ok (some account) ∧
      browsing.responses.map (·.invoices.length) = [1, 1, 0] ∧
      browsing.shown <+: moneyDeposited account.getCommittedEvents := by
  have reached := Machine.exec_last
    (show ((machine inMemory 1 1).exec ⟨creditedService, []⟩ turning).isSome = true by decide +kernel)
  have loaded : EventStore.loadAsync inMemory ((machine inMemory 1 1).last ⟨creditedService, []⟩
    turning).service.shared 1 none = .ok (some _) := rfl
  have pages := pages_beside_stores inMemory_lawful (by decide) (Machine.exec_runs _ _ _ _ reached) loaded
  exact ⟨_, _, reached, loaded, by decide +kernel, pages.1⟩

end Browsing

end Yoomoney
