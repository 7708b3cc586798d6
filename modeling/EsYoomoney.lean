import EsYoomoney.Persistence.Representation
import EsYoomoney.Persistence.RepeatedSaves
import EsYoomoney.Persistence.LostUpdates
import EsYoomoney.Persistence.ReplayEqualsLive
import EsYoomoney.Persistence.CaughtFailures
import EsYoomoney.Persistence.DuplicateOperations
import EsYoomoney.Persistence.Overdraft
import EsYoomoney.Application.StreamsWellFormed
import EsYoomoney.Application.SingleCredit
import EsYoomoney.Application.EventIdentity
import EsYoomoney.Application.Contention
import EsYoomoney.Application.FirstNotification
import EsYoomoney.Application.InvoiceEffect
import EsYoomoney.Application.InvoicePages
import EsYoomoney.Application.PageWalks
import EsYoomoney.Messaging.CapturedCredits
import EsYoomoney.Messaging.Polling
import EsYoomoney.Messaging.PublishedCredits
import EsYoomoney.Common.ValidationBehavior
import EsYoomoney.Application.Ledger
import EsYoomoney.Application.MonotonicReads
import EsYoomoney.Application.ExactBalances
import EsYoomoney.Application.InvoicedCredits
import EsYoomoney.Application.Isolation
import EsYoomoney.Application.LoggedService
