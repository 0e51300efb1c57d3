import DigitalLedger.Lib.Interleave
import DigitalLedger.Lib.Purge
import DigitalLedger.Risk
import DigitalLedger.Waiting
import DigitalLedger.Dashboard
import DigitalLedger.Portal
import DigitalLedger.Failure
import DigitalLedger.Races
import DigitalLedger.Removal
import DigitalLedger.Isolation
import DigitalLedger.Categories
import DigitalLedger.Amounts
import DigitalLedger.Phones
import DigitalLedger.Staleness
import DigitalLedger.World
import DigitalLedger.Reminders
import DigitalLedger.Accounts
import DigitalLedger.Recovery
import DigitalLedger.Secrecy
import DigitalLedger.Batch
import DigitalLedger.Invoice
import DigitalLedger.Downloads
import DigitalLedger.InvoiceLayout
import DigitalLedger.Template
import DigitalLedger.PartialImport
import DigitalLedger.StorageOrder
import DigitalLedger.Delivery
import DigitalLedger.Redemption
import DigitalLedger.Trend
import DigitalLedger.Selectors
import DigitalLedger.ActivityLog
import DigitalLedger.Decimals
import DigitalLedger.Audit
import DigitalLedger.Endings
import DigitalLedger.Tenancy
import DigitalLedger.Privacy
import DigitalLedger.Serial
import DigitalLedger.Voided
import DigitalLedger.Credentials
import DigitalLedger.Messages
