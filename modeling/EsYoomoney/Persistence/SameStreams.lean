import EsYoomoney.Persistence.Reachability

namespace Yoomoney

open EventSourcing DomainEvents

variable {Db Other : Type} {left : IDocumentStore Db} {right : IDocumentStore Other}

/-- Two databases, of one store or of two, that hold the same events for some accounts. -/
def SameStreams (left : IDocumentStore Db) (right : IDocumentStore Other) (accounts : Guid → Prop) (db : Db)
    (other : Other) : Prop := ∀ id, accounts id → left.stream db id = right.stream other id

abbrev Everywhere : Guid → Prop := fun _ => True

namespace SameStreams

variable {accounts : Guid → Prop} {db after : Db} {other later : Other} {id : Guid}

theorem existsAsync (same : SameStreams left right Everywhere db other) (leftLawful : left.Lawful)
    (rightLawful : right.Lawful) (eventId : Guid) :
    EventStore.existsAsync left db eventId = EventStore.existsAsync right other eventId := by
  rw [Bool.eq_iff_iff, leftLawful.existsAsync_iff, rightLawful.existsAsync_iff]
  simp only [fun id => same id trivial]

theorem loadAsync (same : SameStreams left right accounts db other) (leftLawful : left.Lawful)
    (rightLawful : right.Lawful) (known : accounts id) (version : Option Nat) :
    EventStore.loadAsync left db id version = EventStore.loadAsync right other id version := by
  rw [leftLawful.loadAsync_eq, rightLawful.loadAsync_eq, same id known]

theorem storeAsync_iff (same : SameStreams left right accounts db other) (leftLawful : left.Lawful)
    (rightLawful : right.Lawful) {account : BankAccountAggregate} {base pending : List Event}
    (live : Live account base pending) (known : accounts account.id) (past : base <+: left.stream db account.id)
    (filled : pending ≠ []) (nodup : pending.Nodup) :
    (∃ saved, EventStore.storeAsync left db account = .ok saved) ↔
      ∃ saved, EventStore.storeAsync right other account = .ok saved := by
  by_cases distinct : (pending.map Event.eventId).Nodup
  · have behind := past
    rw [same _ known] at behind
    rw [IDocumentStore.Lawful.storeAsync_eq live distinct, IDocumentStore.Lawful.storeAsync_eq live distinct,
      leftLawful.streams.append_ok_iff past filled, rightLawful.streams.append_ok_iff behind filled, same _ known]
  · have duplicate : ¬ (account.getUncommittedEvents.map Event.eventId).Nodup := by
      rw [live.getUncommittedEvents nodup]
      exact distinct
    rw [IDocumentStore.Lawful.storeAsync_duplicate duplicate, IDocumentStore.Lawful.storeAsync_duplicate duplicate]
    simp

theorem stored (same : SameStreams left right accounts db other) (leftLawful : left.Lawful)
    (rightLawful : right.Lawful) {account : BankAccountAggregate}
    (leftSaved : EventStore.storeAsync left db account = .ok after)
    (rightSaved : EventStore.storeAsync right other account = .ok later) :
    SameStreams left right accounts after later := by
  intro id known
  have leftAppended := storeAsync_appended leftSaved
  have rightAppended := storeAsync_appended rightSaved
  by_cases own : id = account.id
  · subst own
    rw [leftLawful.streams.append_stream leftAppended, rightLawful.streams.append_stream rightAppended, same _ known]
  · rw [leftLawful.streams.append_frame leftAppended id own, rightLawful.streams.append_frame rightAppended id own,
      same id known]

end SameStreams

end Yoomoney
