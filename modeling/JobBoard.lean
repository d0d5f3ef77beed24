import JobBoard.Lib.Prog
import JobBoard.Lib.Wp
import JobBoard.Lib.Plain
import JobBoard.Lib.Sys
import JobBoard.Lib.Alone
import JobBoard.Lib.Solo
import JobBoard.Lib.Sound
import JobBoard.Lib.Last
import JobBoard.Lib.Publish
import JobBoard.Lib.Flat
import JobBoard.Lib.History
import JobBoard.Lib.Effects
import JobBoard.Lib.Table
import JobBoard.Model.Entities
import JobBoard.Model.Database
import JobBoard.Model.Statements
import JobBoard.Model.Pricing
import JobBoard.Services.Invoicing
import JobBoard.Services.Lifecycle
import JobBoard.Services.Webhook
import JobBoard.Services.Companies
import JobBoard.Services.Checkout
import JobBoard.Services.Conversations
import JobBoard.Services.TrialCodes
import JobBoard.Services.System
import JobBoard.Subscriptions.Effects
import JobBoard.Subscriptions.Interleaving
import JobBoard.Subscriptions.Serial
import JobBoard.Subscriptions.LiveSlot
import JobBoard.Subscriptions.Transitions
import JobBoard.Messaging.Opening
import JobBoard.Subscriptions.Counter
import JobBoard.Messaging.Contacts
import JobBoard.Auth.Entities
import JobBoard.Auth.Totp
import JobBoard.Auth.Database
import JobBoard.Auth.Services
import JobBoard.Auth.System
import JobBoard.Auth.Conduct
import JobBoard.Auth.Sessions
import JobBoard.Auth.Calls
import JobBoard.Auth.Provenance
import JobBoard.Auth.Erasure
import JobBoard.Auth.Lineage
import JobBoard.Auth.Revocation
import JobBoard.Auth.Rotation
import JobBoard.Auth.BackupCodes
import JobBoard.Assessments.Entities
import JobBoard.Assessments.Database
import JobBoard.Assessments.Attempts
import JobBoard.Assessments.Scoring
import JobBoard.Assessments.Profiles
import JobBoard.Assessments.System
import JobBoard.Assessments.Effects
import JobBoard.Assessments.Pieces
import JobBoard.Assessments.Retake
import JobBoard.Assessments.Voided
import JobBoard.Assessments.Completion
import JobBoard.Assessments.Redelivery
import JobBoard.Billing.Deliveries
import JobBoard.Billing.AuditTrail
import JobBoard.Billing.Numbering
import JobBoard.Billing.Statements
import JobBoard.Billing.TrialCodes
import JobBoard.Subscriptions.Agreement
import JobBoard.Subscriptions.PastDue
import JobBoard.Subscriptions.Handling
import JobBoard.Subscriptions.Grace
import JobBoard.Subscriptions.CancelFlag
import JobBoard.Lib.SqlText
import JobBoard.Lib.Keyset
import JobBoard.Cvtheque.Entities
import JobBoard.Cvtheque.Database
import JobBoard.Cvtheque.Search
import JobBoard.Cvtheque.Query
import JobBoard.Cvtheque.Visibility
import JobBoard.Cvtheque.Pagination
import JobBoard.Lib.Related
import JobBoard.Cvtheque.Anonymity
import JobBoard.Lib.Combinators
import JobBoard.Cvtheque.Profiles
import JobBoard.Cvtheque.Alerts
import JobBoard.Cvtheque.System
import JobBoard.Cvtheque.Conduct
import JobBoard.Cvtheque.Sweeps
import JobBoard.Cvtheque.Ownership
import JobBoard.Cvtheque.Freshness
import JobBoard.Lib.IpAddress
import JobBoard.Links.Prober
import JobBoard.Lib.Removal
import JobBoard.Growth.Views
import JobBoard.Growth.Cooldown
import JobBoard.Lib.Trace
import JobBoard.Growth.Badges
import JobBoard.Growth.Badges
import JobBoard.Growth.BadgeScores
import JobBoard.Growth.BadgeScores
import JobBoard.Messaging.Threads
import JobBoard.Messaging.Members
import JobBoard.Messaging.Interviews
import JobBoard.Messaging.Members
import JobBoard.Messaging.Receipts
import JobBoard.Companies.Recruiters
import JobBoard.Companies.Seats
import JobBoard.Candidates.Schools
import JobBoard.Candidates.SchoolBadge
import JobBoard.Candidates.Requests
import JobBoard.Candidates.Conduct
import JobBoard.Candidates.Resolutions
import JobBoard.Candidates.Files
import JobBoard.Cvtheque.SavedSearches
import JobBoard.Cvtheque.Anchors
import JobBoard.Lib.Exec
import JobBoard.Messaging.Reopening
import JobBoard.Model.Rounding
import JobBoard.Billing.Vat
import JobBoard.Assessments.Proctoring
import JobBoard.Assessments.Composite
import JobBoard.Assessments.Grading
import JobBoard.Assessments.Submission
import JobBoard.Lib.Shuffle
import JobBoard.Lib.Double
import JobBoard.Assessments.Questions
import JobBoard.Assessments.Exam
import JobBoard.Assessments.Percentiles
import JobBoard.Lib.Grouping
import JobBoard.Lib.Leaves
import JobBoard.Candidates.Edits
import JobBoard.Candidates.Completeness
import JobBoard.Candidates.Staleness
import JobBoard.Assessments.Remediation
import JobBoard.Assessments.CooldownSweep
import JobBoard.Cvtheque.Access
import JobBoard.Lib.Settle
import JobBoard.Assessments.Flags
import JobBoard.Assessments.Freshness
import JobBoard.Subscriptions.Tracking
import JobBoard.Lib.Bits
import JobBoard.Auth.Base32
import JobBoard.Auth.OneTimeCodes
import JobBoard.Candidates.UploadKeys
import JobBoard.Lib.Regex
import JobBoard.Adapters.ClamavFileScanner
import JobBoard.Lib.Words
import JobBoard.Lib.Unicode
import JobBoard.Candidates.GrandesEcoles
import JobBoard.Adapters.MailRenderer
import JobBoard.Companies.Conduct
import JobBoard.Companies.Acceptance
import JobBoard.Lib.OrderBy
import JobBoard.Messaging.Inbox
import JobBoard.Messaging.Activity
import JobBoard.Companies.Creation
import JobBoard.Lib.Interrupt
import JobBoard.Candidates.CvFailures
import JobBoard.Lib.Framing
import JobBoard.Adapters.Instream
import JobBoard.Lib.Calendar
import JobBoard.Analytics.Recruiter
import JobBoard.Analytics.Trend
import JobBoard.Lib.Confined
import JobBoard.Subscriptions.Refusals
import JobBoard.Subscriptions.Prices
import JobBoard.Subscriptions.Bills
import JobBoard.Subscriptions.Charges
import JobBoard.Jobs.Database
import JobBoard.Jobs.Services
import JobBoard.Jobs.Conduct
import JobBoard.Jobs.Applications
import JobBoard.Jobs.Lifecycle
import JobBoard.Lib.Simulation
import JobBoard.Jobs.Grants
import JobBoard.Client.Tab
import JobBoard.Auth.Spending
import JobBoard.Client.World
import JobBoard.Client.Reuse
import JobBoard.Growth.Notifications
import JobBoard.Companies.Teams
import JobBoard.Companies.Departures
import JobBoard.Candidates.LinkVerification
import JobBoard.Candidates.LinkChecks
import JobBoard.Client.ExamRunner
