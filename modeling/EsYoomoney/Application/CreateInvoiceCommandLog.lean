import EsYoomoney.Application.Contention
import EsYoomoney.Library.Notes
import EsYoomoney.System.GuidText

namespace Yoomoney

open EventSourcing DomainEvents BankAccountAggregate

inductive LogLevel where
  | trace
  | debug
  | information
  | warning
  | error
  | critical
  | none
deriving DecidableEq

/-- The entries that `CreateInvoiceCommandLog` declares. -/
inductive LogEntry where
  | accountCreated
  | invoiceCreated (invoiceId : Guid) (amount : Decimal) (confirmationUrl : Uri)
deriving DecidableEq

def LogEntry.level : LogEntry → LogLevel
  | accountCreated => .information
  | invoiceCreated _ _ _ => .information

/-- `System.IDisposable`, of which nothing but its `Dispose` is used. -/
structure Disposable where
deriving DecidableEq

/-- What a handler asks of its logger, and of the scope it gets from it. -/
inductive Logging where
  | beginScope (loggerMetadata : List (String × String))
  | dispose
  | isEnabled (logLevel : LogLevel)
  | log (entry : LogEntry)
deriving DecidableEq

namespace Logging

/-- A logger can do without scopes: it then answers with null. -/
abbrev Reply : Logging → Type
  | beginScope _ => Option Disposable
  | dispose => Unit
  | isEnabled _ => Bool
  | log _ => Unit

def isQuestion : Logging → Bool
  | isEnabled _ => true
  | _ => false

end Logging

abbrev LoggingHandler (α : Type) := Program (Call ⊕ Logging) (Noted Answer Logging.Reply) Exception α

abbrev LoggedExchange := Exchange (Call ⊕ Logging) (Noted Answer Logging.Reply) Exception

namespace ILogger

def beginScope (loggerMetadata : List (String × String)) : LoggingHandler (Option Disposable) :=
  Program.note (Logging.beginScope loggerMetadata)

def isEnabled (logLevel : LogLevel) : LoggingHandler Bool := Program.note (Logging.isEnabled logLevel)

def log (entry : LogEntry) : LoggingHandler Unit := Program.note (Logging.log entry)

end ILogger

def Disposable.dispose (_ : Disposable) : LoggingHandler Unit := Program.note Logging.dispose

namespace LoggerExtensions

def loggerMetadata (accountId : Guid) : List (String × String) := [("accountId", accountId.toString)]

def beginAccountScope (accountId : Guid) : LoggingHandler (Option Disposable) :=
  ILogger.beginScope (loggerMetadata accountId)

abbrev accountScope (accountId : Guid) : Logging := .beginScope (loggerMetadata accountId)

end LoggerExtensions

namespace CreateInvoiceCommandLog

/-- The method that is generated for an entry. -/
def write (entry : LogEntry) : LoggingHandler Unit := do
  if ← ILogger.isEnabled entry.level then
    ILogger.log entry

def accountCreated : LoggingHandler Unit := write .accountCreated

def invoiceCreated (invoiceId : Guid) (amount : Decimal) (confirmationUrl : Uri) : LoggingHandler Unit :=
  write (.invoiceCreated invoiceId amount confirmationUrl)

theorem write_erases (entry : LogEntry) : (write entry).Erases (pure ()) := by
  refine .note_bind (Logging.isEnabled entry.level) fun enabled => ?_
  split
  · exact .note (fun _ => .done ()) fun _ => True.intro
  · exact .done ()

/-- What a method asks of a logger that does not throw. -/
def asked (entry : LogEntry) (enabled : Bool) : List LoggedExchange :=
  ⟨.inr (.isEnabled entry.level), .ok enabled⟩ :: if enabled then [⟨.inr (.log entry), .ok ()⟩] else []

theorem write_bind {entry : LogEntry} {α : Type} {next : LoggingHandler α}
    {may : List LoggedExchange → Call ⊕ Logging → Prop} {ends : List LoggedExchange → Except Exception α → Prop}
    {past : List LoggedExchange} (asks : may past (.inr (.isEnabled entry.level)))
    (logs : may (past ++ [⟨.inr (.isEnabled entry.level), .ok true⟩]) (.inr (.log entry)))
    (fails : ∀ failed error, (∀ exchange ∈ failed, exchange.request ≠ .inr .dispose) →
      ends (past ++ failed) (.error error))
    (goes : ∀ enabled, next.Guarded may ends (past ++ asked entry enabled)) :
    (write entry >>= fun _ => next).Guarded may ends past := by
  unfold write
  rw [bind_assoc]
  refine .note_bind (Logging.isEnabled entry.level) asks (fun error => fails _ _ (by simp)) fun enabled => ?_
  cases enabled with
  | false => exact goes false
  | true =>
    refine .note_bind (Logging.log entry) logs (fun error => ?_) fun _ => ?_
    · rw [List.append_assoc]
      exact fails _ _ (by simp)
    · rw [List.append_assoc]
      exact goes true

end CreateInvoiceCommandLog

namespace CreateInvoiceCommand

open LoggerExtensions CreateInvoiceCommandLog

def inScope (host : Host) (openedAt createdAt : DateTime) (request : Request) : LoggingHandler Response := do
  let (paymentId, confirmationUrl) ←
    (YoomoneyInvoiceService.createInvoiceAsync host request.accountId request.amount).noted
  let loaded ← (IEsEventStore.loadAsync request.accountId none).noted
  let bankAccount ← Program.ofExcept (loadOrOpen request.accountId openedAt loaded)
  if bankAccount.getUncommittedEvents.any Event.opensAccount then
    accountCreated
  let bankAccount ← Program.ofExcept (construct (createInvoice paymentId request.amount createdAt) bankAccount)
  (IEsEventStore.storeAsync bankAccount).noted
  invoiceCreated paymentId request.amount confirmationUrl
  return { paymentId, confirmationUrl }

def dispose : Option Disposable → LoggingHandler Unit
  | some scope => scope.dispose
  | none => pure ()

/-- `handle` with what it asks of its logger: however the code in the scope ends, the scope is disposed of, if there
    is one. -/
def handleLogged (host : Host) (openedAt createdAt : DateTime) (request : Request) : LoggingHandler Response := do
  let scope ← beginAccountScope request.accountId
  (inScope host openedAt createdAt request).ensuring (dispose scope)

theorem inScope_erases (host : Host) (openedAt createdAt : DateTime) (request : Request) :
    (inScope host openedAt createdAt request).Erases (handle host openedAt createdAt request) := by
  unfold inScope handle
  refine .bind (.noted _) fun created => .bind (.noted _) fun loaded => .bind (.ofExcept _) fun start => ?_
  have invoicing : (do
      let bankAccount ← Program.ofExcept (construct (createInvoice created.1 request.amount createdAt) start)
      (IEsEventStore.storeAsync bankAccount).noted
      invoiceCreated created.1 request.amount created.2
      return { paymentId := created.1, confirmationUrl := created.2 } : LoggingHandler Response).Erases (do
      let bankAccount ← Program.ofExcept (construct (createInvoice created.1 request.amount createdAt) start)
      IEsEventStore.storeAsync bankAccount
      return { paymentId := created.1, confirmationUrl := created.2 }) :=
    .bind (.ofExcept _) fun _ => .bind (.noted _) fun _ => (write_erases _).skip (.done _)
  dsimp only
  split
  · exact (write_erases _).skip invoicing
  · exact invoicing

theorem dispose_erases (scope : Option Disposable) : (dispose scope).Erases (pure ()) := by
  cases scope with
  | none => exact .done ()
  | some scope => exact .note (fun _ => .done ()) fun _ => True.intro

theorem handleLogged_erases (host : Host) (openedAt createdAt : DateTime) (request : Request) :
    (handleLogged host openedAt createdAt request).Erases (handle host openedAt createdAt request) :=
  .note_bind (accountScope request.accountId) fun scope =>
    (inScope_erases host openedAt createdAt request).ensuring (dispose_erases scope)

abbrev begun (request : Request) (scope : Option Disposable) : LoggedExchange :=
  ⟨.inr (accountScope request.accountId), .ok scope⟩

abbrev created (host : Host) (request : Request) (payment : Payment) : LoggedExchange :=
  ⟨.inl (creation host request), .ok payment⟩

abbrev found (request : Request) (loaded : Option BankAccountAggregate) : LoggedExchange :=
  ⟨.inl (loading request), .ok loaded⟩

def announcement (start : BankAccountAggregate) (enabled : Bool) : List LoggedExchange :=
  if start.getUncommittedEvents.any Event.opensAccount then asked .accountCreated enabled else []

/-- A run that has a payment and an account to invoice, and what it then stores. -/
structure Invoicing (host : Host) (openedAt createdAt : DateTime) (request : Request) (payment : Payment)
    (paymentId : Guid) (url : Uri) (loaded : Option BankAccountAggregate) (start bankAccount : BankAccountAggregate) :
    Prop where
  read : YoomoneyInvoiceService.result host payment = .ok (paymentId, url)
  obtained : loadOrOpen request.accountId openedAt loaded = .ok start
  performed : construct (createInvoice paymentId request.amount createdAt) start = .ok bankAccount

/-- What the handler asks for, by what it has asked for before. -/
inductive Asks (host : Host) (openedAt createdAt : DateTime) (request : Request) :
    List LoggedExchange → Call ⊕ Logging → Prop where
  | beginScope : Asks host openedAt createdAt request [] (.inr (accountScope request.accountId))
  | creation {scope} : Asks host openedAt createdAt request [begun request scope] (.inl (creation host request))
  | loading {scope payment} : Asks host openedAt createdAt request [begun request scope, created host request payment]
      (.inl (loading request))
  | announcing {scope payment loaded start} (obtained : loadOrOpen request.accountId openedAt loaded = .ok start)
      (opens : start.getUncommittedEvents.any Event.opensAccount = true) :
      Asks host openedAt createdAt request [begun request scope, created host request payment, found request loaded]
        (.inr (.isEnabled LogEntry.accountCreated.level))
  | accountCreated {scope payment loaded start} (obtained : loadOrOpen request.accountId openedAt loaded = .ok start)
      (opens : start.getUncommittedEvents.any Event.opensAccount = true) :
      Asks host openedAt createdAt request ([begun request scope, created host request payment, found request loaded] ++
        [⟨.inr (.isEnabled LogEntry.accountCreated.level), .ok true⟩]) (.inr (.log .accountCreated))
  | storing {scope payment paymentId url loaded start bankAccount enabled}
      (invoicing : Invoicing host openedAt createdAt request payment paymentId url loaded start bankAccount) :
      Asks host openedAt createdAt request
        ([begun request scope, created host request payment, found request loaded] ++ announcement start enabled)
        (.inl (.storeAsync bankAccount))
  | reporting {scope payment paymentId url loaded start bankAccount enabled}
      (invoicing : Invoicing host openedAt createdAt request payment paymentId url loaded start bankAccount) :
      Asks host openedAt createdAt request
        ([begun request scope, created host request payment, found request loaded] ++ announcement start enabled ++
          [⟨.inl (.storeAsync bankAccount), .ok ()⟩])
        (.inr (.isEnabled (LogEntry.invoiceCreated paymentId request.amount url).level))
  | invoiceCreated {scope payment paymentId url loaded start bankAccount enabled}
      (invoicing : Invoicing host openedAt createdAt request payment paymentId url loaded start bankAccount) :
      Asks host openedAt createdAt request
        ([begun request scope, created host request payment, found request loaded] ++ announcement start enabled ++
          [⟨.inl (.storeAsync bankAccount), .ok ()⟩] ++
          [⟨.inr (.isEnabled (LogEntry.invoiceCreated paymentId request.amount url).level), .ok true⟩])
        (.inr (.log (.invoiceCreated paymentId request.amount url)))
  | dispose {scope past} (within : ∀ exchange ∈ past, exchange.request ≠ .inr .dispose) :
      Asks host openedAt createdAt request (begun request (some scope) :: past) (.inr .dispose)

/-- How the code in the scope ends, by what it has asked for. -/
inductive ScopeEnds (host : Host) (openedAt createdAt : DateTime) (request : Request) (scope : Option Disposable) :
    List LoggedExchange → Except Exception Response → Prop where
  | failed {past error} (within : ∀ exchange ∈ past, exchange.request ≠ .inr .dispose) :
      ScopeEnds host openedAt createdAt request scope (begun request scope :: past) (.error error)
  | returned {payment paymentId url loaded start bankAccount announced reported}
      (invoicing : Invoicing host openedAt createdAt request payment paymentId url loaded start bankAccount) :
      ScopeEnds host openedAt createdAt request scope
        ([begun request scope, created host request payment, found request loaded] ++ announcement start announced ++
          [⟨.inl (.storeAsync bankAccount), .ok ()⟩] ++ asked (.invoiceCreated paymentId request.amount url) reported)
        (.ok ⟨paymentId, url⟩)

/-- How the handler ends, by what it has asked for. -/
inductive Ends (host : Host) (openedAt createdAt : DateTime) (request : Request) :
    List LoggedExchange → Except Exception Response → Prop where
  | unbegun {error} :
      Ends host openedAt createdAt request [⟨.inr (accountScope request.accountId), .error error⟩] (.error error)
  | unscoped {past outcome} (whole : ScopeEnds host openedAt createdAt request none past outcome) :
      Ends host openedAt createdAt request past outcome
  | disposed {scope past answer error} :
      Ends host openedAt createdAt request (begun request (some scope) :: past ++ [⟨.inr .dispose, answer⟩])
        (.error error)
  | returned {scope past response}
      (whole : ScopeEnds host openedAt createdAt request (some scope) past (.ok response)) :
      Ends host openedAt createdAt request (past ++ [⟨.inr .dispose, .ok ()⟩]) (.ok response)

section Logged

variable {host : Host} {openedAt createdAt : DateTime} {request : Request} {scope : Option Disposable}

theorem asked_requests (entry : LogEntry) (enabled : Bool) :
    ∀ exchange ∈ asked entry enabled,
      exchange.request = .inr (.isEnabled entry.level) ∨ exchange.request = .inr (.log entry) := by
  unfold asked
  split <;> simp

theorem asked_inside (entry : LogEntry) (enabled : Bool) :
    ∀ exchange ∈ asked entry enabled, exchange.request ≠ .inr .dispose := by
  intro exchange member
  rcases asked_requests entry enabled exchange member with same | same <;> simp [same]

theorem announcement_requests (start : BankAccountAggregate) (enabled : Bool) :
    ∀ exchange ∈ announcement start enabled,
      exchange.request = .inr (.isEnabled .information) ∨ exchange.request = .inr (.log .accountCreated) := by
  unfold announcement
  split
  · exact asked_requests .accountCreated enabled
  · simp

theorem within_scope (payment : Payment) (loaded : Option BankAccountAggregate) (start : BankAccountAggregate)
    (enabled : Bool) {later : List LoggedExchange} (inside : ∀ exchange ∈ later, exchange.request ≠ .inr .dispose) :
    ∀ exchange ∈ created host request payment :: found request loaded :: (announcement start enabled ++ later),
      exchange.request ≠ .inr .dispose := by
  simp only [List.forall_mem_cons, List.forall_mem_append]
  refine ⟨Sum.inl_ne_inr, Sum.inl_ne_inr, fun exchange member => ?_, inside⟩
  rcases announcement_requests start enabled exchange member with same | same <;> simp [same]

theorem failed_invoicing (payment : Payment) (loaded : Option BankAccountAggregate) (start : BankAccountAggregate)
    (enabled : Bool) {later : List LoggedExchange} (inside : ∀ exchange ∈ later, exchange.request ≠ .inr .dispose)
    (error : Exception) :
    ScopeEnds host openedAt createdAt request scope
      ([begun request scope, created host request payment, found request loaded] ++ announcement start enabled ++ later)
      (.error error) := by
  rw [List.append_assoc]
  exact .failed (within_scope payment loaded start enabled inside)

theorem invoicing_guarded (createdAt : DateTime) (scope : Option Disposable) {payment : Payment} {paymentId : Guid}
    {url : Uri} {loaded : Option BankAccountAggregate} {start : BankAccountAggregate}
    (read : YoomoneyInvoiceService.result host payment = .ok (paymentId, url))
    (obtained : loadOrOpen request.accountId openedAt loaded = .ok start) (enabled : Bool) :
    (do
      let bankAccount ← Program.ofExcept (construct (createInvoice paymentId request.amount createdAt) start)
      Program.perform (Sum.inl (Call.storeAsync bankAccount))
      CreateInvoiceCommandLog.invoiceCreated paymentId request.amount url
      return { paymentId, confirmationUrl := url } : LoggingHandler Response).Guarded
      (Asks host openedAt createdAt request) (ScopeEnds host openedAt createdAt request scope)
      ([begun request scope, created host request payment, found request loaded] ++ announcement start enabled) := by
  refine .ofExcept_bind (fun error broken => ?_) fun bankAccount performed => ?_
  · simpa using failed_invoicing payment loaded start enabled (List.forall_mem_nil _) error
  have invoicing : Invoicing host openedAt createdAt request payment paymentId url loaded start bankAccount :=
    ⟨read, obtained, performed⟩
  refine .perform_bind (.storing invoicing) (fun error => failed_invoicing _ _ _ _ (by simp) _) fun stored => ?_
  refine write_bind (.reporting invoicing) (.invoiceCreated invoicing) ?_ fun reported => .returned invoicing
  intro failed error inside
  rw [List.append_assoc _ [_] failed]
  exact failed_invoicing _ _ _ _ (List.forall_mem_cons.mpr ⟨Sum.inl_ne_inr, inside⟩) _

theorem inScope_guarded (host : Host) (openedAt createdAt : DateTime) (request : Request)
    (scope : Option Disposable) :
    (inScope host openedAt createdAt request).Guarded (Asks host openedAt createdAt request)
      (ScopeEnds host openedAt createdAt request scope) [begun request scope] := by
  unfold inScope YoomoneyInvoiceService.createInvoiceAsync Client.createPayment IEsEventStore.loadAsync
    IEsEventStore.storeAsync
  simp only [Program.noted_bind, Program.noted_perform, Program.noted_ofExcept, bind_assoc]
  refine .perform_bind .creation (fun error => .failed (by simp)) fun payment => ?_
  refine .ofExcept_bind (fun error unread => .failed (by simp)) fun ⟨paymentId, url⟩ read => ?_
  refine .perform_bind .loading (fun error => .failed (by simp)) fun loaded => ?_
  refine .ofExcept_bind (fun error closed => .failed (by simp)) fun start obtained => ?_
  have invoicing := invoicing_guarded createdAt scope read obtained
  dsimp only
  split
  · rename_i opens
    refine write_bind (.announcing obtained opens) (.accountCreated obtained opens) ?_ fun enabled => ?_
    · intro failed error inside
      exact .failed (by simpa using inside)
    · have announced := invoicing enabled
      rw [announcement, if_pos opens] at announced
      exact announced
  · rename_i closed
    have unannounced := invoicing false
    rw [announcement, if_neg closed] at unannounced
    exact unannounced

theorem handleLogged_guarded (host : Host) (openedAt createdAt : DateTime) (request : Request) :
    (handleLogged host openedAt createdAt request).Guarded (Asks host openedAt createdAt request)
      (Ends host openedAt createdAt request) [] := by
  refine .note_bind (accountScope request.accountId) .beginScope (fun error => .unbegun) fun scope =>
    (inScope_guarded _ _ _ _ scope).ensuring ?_
  intro calls outcome ended
  cases scope with
  | none =>
    cases outcome with
    | error error => exact .unscoped ended
    | ok response => exact .unscoped ended
  | some scope =>
    cases ended with
    | failed within => exact .note_bind Logging.dispose (.dispose within) (fun error => .disposed) fun _ => .disposed
    | returned invoicing =>
      refine .note_bind Logging.dispose ?_ (fun error => .disposed) fun _ => .returned (.returned invoicing)
      rw [List.append_assoc, List.append_assoc]
      exact .dispose (within_scope _ _ _ _ (List.forall_mem_cons.mpr ⟨Sum.inl_ne_inr, asked_inside _ _⟩))

/-- A run asks for nothing once it has disposed of its scope, and for nothing twice but whether a level is enabled. -/
theorem Asks.fresh {past : List LoggedExchange} {call : Call ⊕ Logging}
    (asks : Asks host openedAt createdAt request past call) :
    ∀ exchange ∈ past, exchange.request ≠ .inr .dispose ∧
      ∀ entry, call = .inr entry → entry.isQuestion = false → exchange.request ≠ .inr entry := by
  cases asks with
  | beginScope => exact List.forall_mem_nil _
  | creation => simp
  | loading => simp
  | announcing obtained opens => simp [Logging.isQuestion]
  | accountCreated obtained opens => simp
  | storing invoicing =>
    simp only [List.forall_mem_append]
    refine ⟨by simp, fun exchange member => ?_⟩
    rcases announcement_requests _ _ exchange member with same | same <;> simp [same]
  | reporting invoicing =>
    simp only [List.forall_mem_append]
    refine ⟨⟨by simp, fun exchange member => ?_⟩, by simp⟩
    rcases announcement_requests _ _ exchange member with same | same <;> simp [same, Logging.isQuestion]
  | invoiceCreated invoicing =>
    simp only [List.forall_mem_append]
    refine ⟨⟨⟨by simp, fun exchange member => ?_⟩, by simp⟩, by simp⟩
    rcases announcement_requests _ _ exchange member with same | same <;> simp [same]
  | dispose within =>
    refine List.forall_mem_cons.mpr ⟨by simp, fun exchange member => ⟨within exchange member, ?_⟩⟩
    rintro entry same -
    cases same
    exact within exchange member

theorem Asks.enabled {past : List LoggedExchange} {entry : LogEntry}
    (asks : Asks host openedAt createdAt request past (.inr (.log entry))) :
    ∃ before, past = before ++ [⟨.inr (.isEnabled entry.level), .ok true⟩] := by
  cases asks with
  | accountCreated obtained opens => exact ⟨_, rfl⟩
  | invoiceCreated invoicing => exact ⟨_, rfl⟩

theorem Asks.scoped {past : List LoggedExchange} (asks : Asks host openedAt createdAt request past (.inr .dispose)) :
    ∃ scope rest, past = begun request (some scope) :: rest := by
  cases asks with
  | dispose within => exact ⟨_, _, rfl⟩

/-- What a run asks of its logger, less its questions whether a level is enabled. -/
def logOf (calls : List LoggedExchange) : List Logging :=
  (calls.filterMap fun exchange => exchange.request.getRight?).filter fun entry => !entry.isQuestion

/-- A run's log: it opens the scope of its account and disposes of it if there is one, writes no entry twice and
    none at a level that is not enabled, and has an invoice that it answers with in it if its level is. -/
structure WellScoped (request : Request) (calls : List LoggedExchange) (left : LoggingHandler Response) : Prop where
  begins : calls = [] ∨ (∃ error, calls = [⟨.inr (accountScope request.accountId), .error error⟩]) ∨
    ∃ scope rest, calls = begun request scope :: rest
  distinct : (logOf calls).Nodup
  enabled : ∀ earlier entry answer later, calls = earlier ++ ⟨.inr (.log entry), answer⟩ :: later →
    ∃ before, earlier = before ++ [⟨.inr (.isEnabled entry.level), .ok true⟩]
  inside : ∀ earlier answer later, calls = earlier ++ ⟨.inr .dispose, answer⟩ :: later →
    later = [] ∧ ∃ scope rest, earlier = begun request (some scope) :: rest
  ends : left.Finished → (∃ error, calls = [⟨.inr (accountScope request.accountId), .error error⟩]) ∨
    (∃ rest, calls = begun request none :: rest) ∨ ∃ earlier answer, calls = earlier ++ [⟨.inr .dispose, answer⟩]
  answered : ∀ response, left = .done response → ∃ earlier bankAccount enabled later,
    calls = earlier ++ [⟨.inl (.storeAsync bankAccount), .ok ()⟩] ++
      asked (.invoiceCreated response.paymentId request.amount response.confirmationUrl) enabled ++ later

theorem called {calls : List LoggedExchange} {left : LoggingHandler Response}
    (follows : (handleLogged host openedAt createdAt request).Follows calls left) {earlier later : List LoggedExchange}
    {exchange : LoggedExchange} (made : calls = earlier ++ exchange :: later) :
    Asks host openedAt createdAt request earlier exchange.request := by
  simpa using (handleLogged_guarded host openedAt createdAt request).called follows made

theorem ended {calls : List LoggedExchange} {left : LoggingHandler Response}
    (follows : (handleLogged host openedAt createdAt request).Follows calls left) :
    left.Guarded (Asks host openedAt createdAt request) (Ends host openedAt createdAt request) calls := by
  simpa using (handleLogged_guarded host openedAt createdAt request).follows follows

theorem logOf_nodup {calls : List LoggedExchange}
    (asks : ∀ earlier exchange later, calls = earlier ++ exchange :: later →
      Asks host openedAt createdAt request earlier exchange.request) : (logOf calls).Nodup := by
  induction calls using List.reverseRecOn with
  | nil => exact List.nodup_nil
  | append_singleton calls exchange ih =>
    have before := ih fun earlier other later made => asks earlier other (later ++ [exchange]) (by simp [made])
    have fresh := (asks calls exchange [] rfl).fresh
    have extended : logOf (calls ++ [exchange]) = logOf calls ++ logOf [exchange] := by simp [logOf]
    rcases exchange with ⟨request | entry, answer⟩
    · rw [extended, show logOf [⟨.inl request, answer⟩] = [] from rfl, List.append_nil]
      exact before
    cases question : entry.isQuestion with
    | true =>
      rw [extended, show logOf [⟨.inr entry, answer⟩] = [] by simp [logOf, question], List.append_nil]
      exact before
    | false =>
      rw [extended, show logOf [⟨.inr entry, answer⟩] = [entry] by simp [logOf, question], List.nodup_append]
      refine ⟨before, List.nodup_singleton entry, ?_⟩
      intro other member last single same
      rw [List.mem_singleton.mp single] at same
      subst same
      rcases List.mem_filterMap.mp (List.mem_of_mem_filter member) with ⟨exchange, listed, same⟩
      exact (fresh exchange listed).2 _ rfl question (Sum.getRight?_eq_some_iff.mp same)

theorem Ends.answered {calls : List LoggedExchange} {response : Response}
    (ends : Ends host openedAt createdAt request calls (.ok response)) : ∃ earlier bankAccount enabled later,
      calls = earlier ++ [⟨.inl (.storeAsync bankAccount), .ok ()⟩] ++
        asked (.invoiceCreated response.paymentId request.amount response.confirmationUrl) enabled ++ later := by
  cases ends with
  | unscoped whole =>
    cases whole with
    | returned invoicing => exact ⟨_, _, _, [], (List.append_nil _).symm⟩
  | returned whole =>
    cases whole with
    | returned invoicing => exact ⟨_, _, _, [_], rfl⟩

theorem handleLogged_scoped {calls : List LoggedExchange} {left : LoggingHandler Response}
    (follows : (handleLogged host openedAt createdAt request).Follows calls left) : WellScoped request calls left := by
  refine ⟨?_, logOf_nodup fun _ _ _ => called follows, ?_, ?_, ?_, ?_⟩
  · rcases Program.Follows.of_perform follows with ⟨rfl, next, -⟩ | ⟨error, rfl, -⟩ | ⟨answer, later, rfl, -⟩
    · exact Or.inl rfl
    · exact Or.inr (Or.inl ⟨error, rfl⟩)
    · exact Or.inr (Or.inr ⟨answer, later, rfl⟩)
  · intro earlier entry answer later made
    exact (called follows made).enabled
  · intro earlier answer later made
    refine ⟨?_, (called follows made).scoped⟩
    cases later with
    | nil => rfl
    | cons next later =>
      have asks := called follows (show calls = (earlier ++ [⟨.inr .dispose, answer⟩]) ++ next :: later by simp [made])
      exact absurd rfl (asks.fresh ⟨.inr .dispose, answer⟩ (by simp)).1
  · intro finished
    have ends := ended follows
    cases left with
    | done response =>
      cases ends with
      | unscoped whole =>
        cases whole with
        | returned invoicing => exact Or.inr (Or.inl ⟨_, rfl⟩)
      | returned whole => exact Or.inr (Or.inr ⟨_, _, rfl⟩)
    | fail error =>
      cases ends with
      | unbegun => exact Or.inl ⟨_, rfl⟩
      | unscoped whole =>
        cases whole with
        | failed within => exact Or.inr (Or.inl ⟨_, rfl⟩)
      | disposed => exact Or.inr (Or.inr ⟨_, _, rfl⟩)
    | call request next => exact finished.elim
  · rintro response rfl
    exact Ends.answered (ended follows)

end Logged

end CreateInvoiceCommand

end Yoomoney
