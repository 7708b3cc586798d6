import EsYoomoney.System.Enumerable
import EsYoomoney.Application.Calls

namespace Yoomoney

open EventSourcing DomainEvents

namespace GetInvoicesQuery

structure Request where
  accountId : Guid
  page : Int32 := 1
  pageSize : Int32 := 10

structure Response where
  invoices : List Event
  totalCount : Int32

/-- `OfType<MoneyDepositedDomainEvent>` -/
def moneyDeposited (events : List Event) : List Event := events.filter (·.depositedInvoice.isSome)

def handle (request : Request) : Handler Response := do
  match ← IEsEventStore.loadAsync request.accountId none with
  | none => .fail (.domainException "Bank account not found")
  | some bankAccount =>
    let events ← Program.ofExcept (Enumerable.toArray (moneyDeposited bankAccount.getCommittedEvents))
    let paymentEvents := Enumerable.take (Enumerable.skip events ((request.page - 1) * request.pageSize))
      request.pageSize
    return { invoices := paymentEvents, totalCount := Int32.ofNat events.length }

def paged (request : Request) (deposits : List Event) : Response where
  invoices := page deposits ((request.page - 1) * request.pageSize).toInt.toNat request.pageSize.toInt.toNat
  totalCount := Int32.ofNat deposits.length

variable {Db : Type} {store : IDocumentStore Db}

/-- The handler's answer; it only reads. -/
def send (store : IDocumentStore Db) (db : Db) (reply : Except Exception Payment) (request : Request) :
    Except Exception Response := ((environment store).run reply (handle request) db).1

theorem handle_reads (db : Db) (reply : Except Exception Payment) (request : Request) :
    ((environment store).run reply (handle request) db).2 = db := by
  unfold handle
  rw [Environment.run_perform]
  dsimp only [environment, respond]
  cases EventStore.loadAsync store db request.accountId none with
  | error error => rfl
  | ok loaded =>
    cases loaded with
    | none => rfl
    | some bankAccount =>
      dsimp only
      cases Enumerable.toArray (moneyDeposited bankAccount.getCommittedEvents) <;> rfl

theorem send_eq {db : Db} {request : Request} {account : BankAccountAggregate}
    (loaded : EventStore.loadAsync store db request.accountId none = .ok (some account))
    (reply : Except Exception Payment) :
    send store db reply request =
      if (moneyDeposited account.getCommittedEvents).length ≤ Enumerable.maxLength then
        .ok (paged request (moneyDeposited account.getCommittedEvents))
      else .error .outOfMemoryException := by
  unfold send handle
  rw [Environment.run_perform]
  dsimp only [environment, respond]
  rw [loaded]
  simp only [Enumerable.take_skip, Enumerable.toArray]
  split <;> rfl

theorem send_unknown (lawful : store.Lawful) {db : Db} {request : Request}
    (missing : store.stream db request.accountId = []) (reply : Except Exception Payment) :
    send store db reply request = .error (.domainException "Bank account not found") := by
  unfold send handle
  rw [Environment.run_perform]
  dsimp only [environment, respond]
  rw [(lawful.loadAsync_none_iff db request.accountId none).mpr missing]
  rfl

end GetInvoicesQuery

end Yoomoney
