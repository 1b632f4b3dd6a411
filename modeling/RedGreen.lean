import RedGreen.Main
import RedGreen.Time.Iso
import RedGreen.Proofs.Text.Digits
import RedGreen.Proofs.Text.Lines
import RedGreen.Proofs.Text.Utf8
import RedGreen.Proofs.Json.Spelling
import RedGreen.Proofs.Json.Written
import RedGreen.Proofs.Number.Rounding
import RedGreen.Proofs.Number.Shortest
import RedGreen.Proofs.Number.Decimals
import RedGreen.Proofs.Json.Floats
import RedGreen.Proofs.Time.Dates
import RedGreen.Proofs.Time.Stamps
import RedGreen.Proofs.Json.Characters
import RedGreen.Proofs.Json.Joining
import RedGreen.Proofs.Json.Received
import RedGreen.Proofs.Json.Depth
import RedGreen.Proofs.Record.Fields
import RedGreen.Proofs.Record.RoundTrip
import RedGreen.Proofs.Delivery.Handover
import RedGreen.Proofs.Journal.Reading
import RedGreen.Proofs.Journal.Growth
import RedGreen.Proofs.Cycle.Entries
import RedGreen.Proofs.Cycle.Ledger
import RedGreen.Proofs.Cycle.Visits
import RedGreen.Proofs.Cycle.History
import RedGreen.Proofs.Number.Bounds
import RedGreen.Proofs.Statistics.Figures
import RedGreen.Proofs.Run.Extraction
import RedGreen.Proofs.Cycle.Outcomes
import RedGreen.Proofs.Cycle.Applied
import RedGreen.Proofs.Cycle.Plans
import RedGreen.Proofs.Cycle.Drafts
import RedGreen.Proofs.Cycle.Corruption
import RedGreen.Proofs.Cycle.Traffic
import RedGreen.Proofs.Cycle.Orderly
import RedGreen.Proofs.Cycle.Interleaving
import RedGreen.Proofs.Run.Books
import RedGreen.Proofs.Run.Conservation
import RedGreen.Proofs.Run.Course
import RedGreen.Proofs.Run.Accounts
import RedGreen.Proofs.Number.Order
import RedGreen.Proofs.Json.Numerals
import RedGreen.Proofs.Circuit.History
import RedGreen.Proofs.Run.Rerun
import RedGreen.Proofs.Delivery.Waits
import RedGreen.Proofs.Delivery.Requests
import RedGreen.Proofs.Delivery.Answers
import RedGreen.Proofs.Delivery.Attempts
import RedGreen.Proofs.Delivery.Publishing
import RedGreen.Proofs.Json.Sameness
import RedGreen.Proofs.Documents.Canonical
import RedGreen.Proofs.Cycle.Frame
import RedGreen.Proofs.Delivery.Settling
import RedGreen.Proofs.Run.Separation
import RedGreen.Proofs.Number.Monotone
import RedGreen.Proofs.Time.Conversion
import RedGreen.Proofs.Console.Reports
import RedGreen.Proofs.Statistics.Laws
import RedGreen.Proofs.Journal.Skipping
import RedGreen.Proofs.Run.Sentinels
import RedGreen.Proofs.Statistics.Reporting
import RedGreen.Proofs.Number.Overflow
import RedGreen.Proofs.Circuit.Escapes
import RedGreen.Proofs.Circuit.Recovery
import RedGreen.Proofs.Time.Iso
import RedGreen.Proofs.Time.Offsets
import RedGreen.Proofs.Json.Unrepeated
import RedGreen.Proofs.Ingestion.Finite
import RedGreen.Proofs.Ingestion.Traces
import RedGreen.Proofs.Ingestion.Conveyed
import RedGreen.Proofs.ChangedPath.Grammar
import RedGreen.Proofs.Record.Durations
import RedGreen.Proofs.Cycle.Listing
import RedGreen.Proofs.Cycle.Pending
import RedGreen.Proofs.Run.Closing
import RedGreen.Proofs.Text.Trimming
import RedGreen.Proofs.Time.Clock
import RedGreen.Proofs.Settings.Credentials
import RedGreen.Proofs.Commit.Calls
import RedGreen.Proofs.Commit.Classification
