import EsYoomoney.Library.UniqueTags
import EsYoomoney.Application.GetInvoicesQuery
import EsYoomoney.Persistence.Representation

namespace Yoomoney

open EventSourcing DomainEvents GetInvoicesQuery

variable {Db : Type} {store : IDocumentStore Db}

namespace IDocumentStore.Lawful

theorem committed_deposits (lawful : store.Lawful) {db : Db} {accountId : Guid} {account : BankAccountAggregate}
    (loaded : EventStore.loadAsync store db accountId none = .ok (some account)) :
    (moneyDeposited account.getCommittedEvents).Nodup ∧
      (((store.stream db accountId).filterMap Event.depositedInvoice).Nodup →
        moneyDeposited account.getCommittedEvents = moneyDeposited (store.stream db accountId)) ∧
      account.getCommittedEvents = (OrderedSet.empty.addAll (store.stream db accountId)).toList := by
  have live := (lawful.loadAsync_live loaded).1
  have total : account.getCommittedEvents = (OrderedSet.empty.addAll (store.stream db accountId)).toList := by
    rw [BankAccountAggregate.getCommittedEvents, live.totalEvents, List.append_nil]
    rfl
  refine ⟨account.totalEvents.nodup.filter _, fun distinct => ?_, total⟩
  rw [total, moneyDeposited, OrderedSet.addAll_filter_of_nodup _ (nodup_tagged distinct)]
  rfl

end IDocumentStore.Lawful

/-- What a page is to hold: the deposits at the positions of its number and size, counted without bound. -/
structure ExactPage (deposits : List Event) (request : Request) (response : Response) : Prop where
  inRange : ∀ (place : Nat) deposit, deposits[place]? = some deposit → deposit ∈ response.invoices →
    (request.page.toInt - 1) * request.pageSize.toInt ≤ place ∧ place < request.page.toInt * request.pageSize.toInt
  beyond : deposits.length ≤ (request.page.toInt - 1) * request.pageSize.toInt → response.invoices = []

theorem paged_exact {deposits : List Event} (distinct : deposits.Nodup) {request : Request}
    (first : 1 ≤ request.page.toInt) (sized : 1 ≤ request.pageSize.toInt)
    (fits : (request.page.toInt - 1) * request.pageSize.toInt < 2 ^ 31) :
    ExactPage deposits request (paged request deposits) := by
  have offset := Enumerable.offset_exact first (by omega) fits
  have above : 0 ≤ (request.page.toInt - 1) * request.pageSize.toInt := Int.mul_nonneg (by omega) (by omega)
  constructor
  · intro place deposit found member
    obtain ⟨index, inside⟩ := List.getElem?_of_mem member
    rw [paged, page_getElem?] at inside
    split at inside
    · rename_i within
      have bounded := (List.getElem?_eq_some_iff.mp found).1
      have same := (List.getElem?_inj bounded distinct).mp (found.trans inside.symm)
      rw [offset] at same
      have product : request.page.toInt * request.pageSize.toInt =
          (request.page.toInt - 1) * request.pageSize.toInt + request.pageSize.toInt := by ring
      omega
    · cases inside
  · intro beyond
    apply page_beyond
    rw [offset]
    omega

section Pages

variable {db : Db} {accountId : Guid} {account : BankAccountAggregate}

/-- A page holds what its number and size say, in unbounded numbers, exactly when its offset is an `int`,
    or is one that wraps to a place behind the last deposit. (More deposits than an array holds make the
    query throw.) -/
theorem page_exact_iff (lawful : store.Lawful) {request : Request}
    (loaded : EventStore.loadAsync store db request.accountId none = .ok (some account))
    (first : 1 ≤ request.page.toInt) (sized : 1 ≤ request.pageSize.toInt) (reply : Except Exception Payment) :
    (∀ response, send store db reply request = .ok response →
      ExactPage (moneyDeposited account.getCommittedEvents) request response) ↔
    (request.page.toInt - 1) * request.pageSize.toInt < 2 ^ 31 ∨
      (moneyDeposited account.getCommittedEvents).length ≤ ((request.page - 1) * request.pageSize).toInt.toNat ∨
      Enumerable.maxLength < (moneyDeposited account.getCommittedEvents).length := by
  have distinct := (lawful.committed_deposits loaded).1
  generalize deposits_eq : moneyDeposited account.getCommittedEvents = deposits at distinct
  have sent := send_eq loaded reply
  rw [deposits_eq] at sent
  constructor
  · intro exact
    by_contra neither
    simp only [not_or, Int.not_lt, Nat.not_le, Nat.not_lt] at neither
    obtain ⟨wrapped, inside, few⟩ := neither
    rw [if_pos few] at sent
    -- the wrapped offset lands on a deposit, which is then shown on a page it is not on
    obtain ⟨deposit, found⟩ :
        ∃ deposit, deposits[((request.page - 1) * request.pageSize).toInt.toNat]? = some deposit :=
      ⟨_, List.getElem?_eq_getElem inside⟩
    have shown : (paged request deposits).invoices[0]? = some deposit := by
      rw [paged, page_getElem?, if_pos (by omega)]
      exact found
    have bound := ((exact _ sent).inRange _ deposit found (List.mem_of_getElem? shown)).1
    unfold Enumerable.maxLength at few
    omega
  · rintro (fits | beyond | many) response returned
    · rw [sent] at returned
      split at returned <;> cases returned
      exact paged_exact distinct first sized fits
    · rw [sent] at returned
      split at returned <;> cases returned
      have none : (paged request deposits).invoices = [] := page_beyond beyond _
      refine ⟨fun place deposit _ member => ?_, fun _ => none⟩
      rw [none] at member
      cases member
    · rw [sent, if_neg (by omega)] at returned
      cases returned

def creditedLog : List (Guid × Event) := [(1, .accountBalanceInitializedTo 1 0), (1, sampleDeposit.event 1 5)]

theorem first_page_exact :
    ∃ account, EventStore.loadAsync inMemory creditedLog 1 none = .ok (some account) ∧
      ∀ response, send inMemory creditedLog (.ok samplePayment) { accountId := 1 } = .ok response →
        ExactPage (moneyDeposited account.getCommittedEvents) { accountId := 1 } response := by
  have loaded : EventStore.loadAsync inMemory creditedLog 1 none = .ok (some _) := rfl
  exact ⟨_, loaded, (@page_exact_iff _ inMemory creditedLog _ inMemory_lawful { accountId := 1 } loaded
    (by decide +kernel) (by decide +kernel) (.ok samplePayment)).mpr (Or.inl (by decide +kernel))⟩

/-- The offset 65536 * 65536 wraps to zero. -/
theorem wrapped_page_shows_first_deposit :
    ∃ account response, EventStore.loadAsync inMemory creditedLog 1 none = .ok (some account) ∧
      send inMemory creditedLog (.ok samplePayment) ⟨1, 65537, 65536⟩ = .ok response ∧
      response.invoices = [sampleDeposit.event 1 5] ∧
      ¬ ExactPage (moneyDeposited account.getCommittedEvents) ⟨1, 65537, 65536⟩ response := by
  have loaded : EventStore.loadAsync inMemory creditedLog 1 none = .ok (some _) := rfl
  have sent := @send_eq _ inMemory creditedLog ⟨1, 65537, 65536⟩ _ loaded (.ok samplePayment)
  rw [if_pos (by decide +kernel)] at sent
  have shown : (paged ⟨1, 65537, 65536⟩ [sampleDeposit.event 1 5]).invoices = [sampleDeposit.event 1 5] := by
    decide +kernel
  refine ⟨_, _, loaded, sent, shown, fun exact => ?_⟩
  have impossible := shown.symm.trans (exact.beyond (by decide +kernel))
  cases impossible

/-- A client that asks for the pages 1, 2 and so on, up to a number of pages. -/
def walk (store : IDocumentStore Db) (db : Db) (reply : Except Exception Payment) (accountId : Guid) (pageSize : Int32)
    (count : Nat) : Except Exception (List Response) :=
  (List.range count).mapM fun index => send store db reply ⟨accountId, Int32.ofNat (index + 1), pageSize⟩

/-- The number of pages that hold that many items: the quotient rounded up. -/
def pageCount (items : Nat) (pageSize : Int32) : Nat := (items + pageSize.toInt.toNat - 1) / pageSize.toInt.toNat

theorem page_within {items : Nat} {pageSize : Int32} (positive : 1 ≤ pageSize.toInt) {index : Nat}
    (within : index < pageCount items pageSize) : index * pageSize.toInt < items := by
  have size : (pageSize.toInt.toNat : Int) = pageSize.toInt := Int.toNat_of_nonneg (by omega)
  have enough := (Nat.le_div_iff_mul_le (by omega)).mp (Nat.succ_le_of_lt within)
  rw [Nat.succ_mul] at enough
  rw [← size]
  have whole : (index * pageSize.toInt.toNat : Nat) + 1 ≤ items := by omega
  exact_mod_cast whole

/-- None of the pages that hold deposits has an offset that wraps. -/
theorem page_offset {items : Nat} (few : items ≤ Enumerable.maxLength) {pageSize : Int32}
    (positive : 1 ≤ pageSize.toInt) {index : Nat} (within : index < pageCount items pageSize) :
    (Int32.ofNat (index + 1)).toInt = index + 1 ∧
      ((Int32.ofNat (index + 1) - 1) * pageSize).toInt = index * pageSize.toInt := by
  have inside := page_within positive within
  unfold Enumerable.maxLength at few
  have below : index < 2 ^ 31 - 1 := by
    have least : (index : Int) * 1 ≤ index * pageSize.toInt := Int.mul_le_mul_of_nonneg_left positive (by omega)
    omega
  have number : (Int32.ofNat (index + 1)).toInt = index + 1 := by
    rw [Int32.toInt_ofNat_of_lt (by omega)]
    rfl
  refine ⟨number, ?_⟩
  rw [Enumerable.offset_exact (by omega) (by omega) (by rw [number, Int.add_sub_cancel]; omega), number,
    Int.add_sub_cancel]

/-- The pages from the first to the last joined are the stream's deposits in its order, each with their
    number as the total; no offset wraps; and what is stored later changes none of the full pages. -/
structure PagesDeposits (store : IDocumentStore Db) (db : Db) (reply : Except Exception Payment) (accountId : Guid)
    (pageSize : Int32) (deposits : List Event) : Prop where
  walked : ∃ responses, walk store db reply accountId pageSize (pageCount deposits.length pageSize) = .ok responses ∧
    responses.flatMap (·.invoices) = deposits ∧
    ∀ response ∈ responses, response.totalCount.toInt = deposits.length
  exact : ∀ index, index < pageCount deposits.length pageSize → (Int32.ofNat (index + 1)).toInt = index + 1 ∧
    ((Int32.ofNat (index + 1) - 1) * pageSize).toInt = index * pageSize.toInt
  stable : ∀ later account, store.stream db accountId <+: store.stream later accountId →
    EventStore.loadAsync store later accountId none = .ok (some account) →
    (moneyDeposited account.getCommittedEvents).length ≤ Enumerable.maxLength →
    ∀ page : Int32, 1 ≤ page.toInt → page.toInt * pageSize.toInt ≤ deposits.length →
      ∃ old new, send store db reply ⟨accountId, page, pageSize⟩ = .ok old ∧
        send store later reply ⟨accountId, page, pageSize⟩ = .ok new ∧ new.invoices = old.invoices

section Partition

variable {db later : Db} {accountId : Guid} {account moved : BankAccountAggregate} {pageSize : Int32}
  {reply : Except Exception Payment}

theorem walk_eq (loaded : EventStore.loadAsync store db accountId none = .ok (some account))
    (few : (moneyDeposited account.getCommittedEvents).length ≤ Enumerable.maxLength) (count : Nat) :
    walk store db reply accountId pageSize count = .ok ((List.range count).map fun index =>
      paged ⟨accountId, Int32.ofNat (index + 1), pageSize⟩ (moneyDeposited account.getCommittedEvents)) := by
  apply Exception.mapM_ok
  intro index _
  have sent := @send_eq _ store db ⟨accountId, Int32.ofNat (index + 1), pageSize⟩ account loaded reply
  rwa [if_pos few] at sent

theorem pages_joined (deposits : List Event) (few : deposits.length ≤ Enumerable.maxLength)
    (positive : 1 ≤ pageSize.toInt) :
    ((List.range (pageCount deposits.length pageSize)).map fun index =>
      paged ⟨accountId, Int32.ofNat (index + 1), pageSize⟩ deposits).flatMap (·.invoices) = deposits := by
  have partition := @pages_partition _ deposits pageSize.toInt.toNat (by omega)
  rw [List.flatMap_map]
  refine Eq.trans (List.flatMap_congr ?_) partition
  intro index member
  have offset := (page_offset few positive (List.mem_range.mp member)).2
  have front : (index * pageSize.toInt).toNat = index * pageSize.toInt.toNat :=
    Int.toNat_mul (by omega) (by omega)
  simp only [paged, offset, front]

theorem paged_stable (lawful : store.Lawful)
    (loaded : EventStore.loadAsync store db accountId none = .ok (some account))
    (reloaded : EventStore.loadAsync store later accountId none = .ok (some moved))
    (grown : store.stream db accountId <+: store.stream later accountId) :
    moneyDeposited account.getCommittedEvents <+: moneyDeposited moved.getCommittedEvents := by
  obtain ⟨more, whole⟩ := grown
  rw [(lawful.committed_deposits loaded).2.2, (lawful.committed_deposits reloaded).2.2, ← whole,
    OrderedSet.addAll_append]
  exact (OrderedSet.addAll_initial _ more).filter _

/-- Where the deposits of an account have different invoice ids and are no more than an array holds, its
    pages partition them, without wrapping, and stay what they are once full. -/
theorem pages_partition_deposits (lawful : store.Lawful)
    (loaded : EventStore.loadAsync store db accountId none = .ok (some account))
    (distinct : ((store.stream db accountId).filterMap Event.depositedInvoice).Nodup)
    (positive : 1 ≤ pageSize.toInt) (reply : Except Exception Payment) :
    if (moneyDeposited (store.stream db accountId)).length ≤ Enumerable.maxLength then
      PagesDeposits store db reply accountId pageSize (moneyDeposited (store.stream db accountId))
    else ∀ page, send store db reply ⟨accountId, page, pageSize⟩ = .error .outOfMemoryException := by
  have deposits := (lawful.committed_deposits loaded).2.1 distinct
  rw [← deposits]
  split
  · rename_i few
    refine ⟨⟨_, walk_eq loaded few _, pages_joined _ few positive, ?_⟩, fun index within => ?_, ?_⟩
    · intro response member
      obtain ⟨index, -, rfl⟩ := List.mem_map.mp member
      unfold Enumerable.maxLength at few
      exact Int32.toInt_ofNat_of_lt (by omega)
    · exact page_offset few positive within
    · intro later moved grown reloaded room page first full
      have old := @send_eq _ store db ⟨accountId, page, pageSize⟩ account loaded reply
      have new := @send_eq _ store later ⟨accountId, page, pageSize⟩ moved reloaded reply
      rw [if_pos few] at old
      rw [if_pos room] at new
      refine ⟨_, _, old, new, page_stable (paged_stable lawful loaded reloaded grown) ?_⟩
      unfold Enumerable.maxLength at few
      have apart : page.toInt * pageSize.toInt = (page.toInt - 1) * pageSize.toInt + pageSize.toInt := by ring
      have above : 0 ≤ (page.toInt - 1) * pageSize.toInt := Int.mul_nonneg (by omega) (by omega)
      dsimp only
      rw [Enumerable.offset_exact first (by omega) (by omega)]
      omega
  · rename_i many
    intro page
    have sent := @send_eq _ store db ⟨accountId, page, pageSize⟩ account loaded reply
    rwa [if_neg many] at sent

def sampleDeposits (invoiceIds : List Guid) : List Event :=
  invoiceIds.map fun invoiceId => (Operation.deposit invoiceId sampleAmount.value "RUB" samplePayment).event 1 5

def depositsLog (invoiceIds : List Guid) : List (Guid × Event) :=
  (1, .accountBalanceInitializedTo 1 0) :: (sampleDeposits invoiceIds).map (1, ·)

/-- Three deposits on pages of two, and the first page after a fourth. -/
theorem three_deposits_paged :
    (∃ account, EventStore.loadAsync inMemory (depositsLog [7, 8, 9]) 1 none = .ok (some account)) ∧
      PagesDeposits inMemory (depositsLog [7, 8, 9]) (.ok samplePayment) 1 2 (sampleDeposits [7, 8, 9]) ∧
      ∃ old new, send inMemory (depositsLog [7, 8, 9]) (.ok samplePayment) ⟨1, 1, 2⟩ = .ok old ∧
        send inMemory (depositsLog [7, 8, 9, 10]) (.ok samplePayment) ⟨1, 1, 2⟩ = .ok new ∧
        new.invoices = old.invoices := by
  have loaded : EventStore.loadAsync inMemory (depositsLog [7, 8, 9]) 1 none = .ok (some _) := rfl
  have reloaded : EventStore.loadAsync inMemory (depositsLog [7, 8, 9, 10]) 1 none = .ok (some _) := rfl
  have pages := @pages_partition_deposits _ inMemory (depositsLog [7, 8, 9]) 1 _ 2 inMemory_lawful loaded
    (by decide +kernel) (by decide +kernel) (.ok samplePayment)
  rw [if_pos (by decide +kernel)] at pages
  have grown : inMemory.stream (depositsLog [7, 8, 9]) 1 <+: inMemory.stream (depositsLog [7, 8, 9, 10]) 1 := by
    decide +kernel
  exact ⟨⟨_, loaded⟩, pages, pages.stable _ _ grown reloaded (by decide +kernel) 1 (by decide) (by decide +kernel)⟩

end Partition

end Pages

end Yoomoney
