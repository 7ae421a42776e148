import DeckLegality.Sorted.Map
import DeckLegality.Text.Blank
import DeckLegality.Text.LowerCase
import DeckLegality.Text.Decimal
import DeckLegality.Card
import DeckLegality.Decklist
import DeckLegality.FormatRules
import DeckLegality.DecklistText
import DeckLegality.Printings
import DeckLegality.Verdict
import DeckLegality.BitSet
import DeckLegality.FirstSeen
import DeckLegality.FirstSeen.Table
import DeckLegality.Pairing.Candidates
import DeckLegality.Pairing.Search
import DeckLegality.Verifier
import DeckLegality.Json.Numeral
import DeckLegality.Json.Tree
import DeckLegality.Json.Reader
import DeckLegality.Json.Writer
import DeckLegality.Json.Access
import DeckLegality.Json.Decks
import DeckLegality.Json.Verdicts
import DeckLegality.Snapshot.Listing
import DeckLegality.Snapshot.Binary
import DeckLegality.Snapshot.File
import DeckLegality.FileTree
import DeckLegality.CommandLine.Request
import DeckLegality.CommandLine.Answer
import DeckLegality.Journal
import DeckLegality.Main
import DeckLegality.Scripting.Value
import DeckLegality.Scripting.Module
import DeckLegality.Proofs.BitSet.Histories
import DeckLegality.Proofs.Search.Completion
import DeckLegality.Proofs.Search.Selection
import DeckLegality.Proofs.Search.FullScan
import DeckLegality.Proofs.Search.FirstCompletion
import DeckLegality.Proofs.Search.Place
import DeckLegality.Proofs.Search.Calls
import DeckLegality.Proofs.Search.Moments
import DeckLegality.Proofs.Search.Checked
import DeckLegality.Proofs.Search.Balance
import DeckLegality.Proofs.Search.Stored
import DeckLegality.Proofs.Search.Counted
import DeckLegality.Proofs.Pairing.Choice
import DeckLegality.Proofs.Pairing.Numbers
import DeckLegality.Proofs.Pairing.Contents
import DeckLegality.Proofs.Pairing.Solve
import DeckLegality.Proofs.Pairing.Counters
import DeckLegality.Proofs.Pairing.Calls
import DeckLegality.Proofs.Pairing.DeadStates
import DeckLegality.Proofs.Pairing.Checked
import DeckLegality.Proofs.Pairing.Renaming
import DeckLegality.Proofs.Pairing.Procedure
import DeckLegality.Proofs.Pairing.Submission
import DeckLegality.Proofs.Text.FirstWord
import DeckLegality.Proofs.Text.Quantities
import DeckLegality.Proofs.Text.Trimming
import DeckLegality.Proofs.Deck.Counts
import DeckLegality.Proofs.Deck.Merging
import DeckLegality.Proofs.Deck.Lines
import DeckLegality.Proofs.Deck.Numbering
import DeckLegality.Proofs.Deck.Reading
import DeckLegality.Proofs.Deck.Faults
import DeckLegality.Proofs.Deck.Joining
import DeckLegality.Proofs.Deck.Respacing
import DeckLegality.Proofs.Deck.Writing
import DeckLegality.Proofs.Deck.MostCommon
import DeckLegality.Proofs.Deck.Totals
import DeckLegality.Proofs.Deck.Tallies
import DeckLegality.Proofs.Deck.Multisets
import DeckLegality.Proofs.Deck.History
import DeckLegality.Proofs.Json.Tokens
import DeckLegality.Proofs.Json.RoundTrip
import DeckLegality.Proofs.Json.Records
import DeckLegality.Proofs.Json.Parts
import DeckLegality.Proofs.Json.Violations
import DeckLegality.Proofs.Json.Decoded
import DeckLegality.Proofs.Json.Naturals
import DeckLegality.Proofs.Json.Entries
import DeckLegality.Proofs.Json.Verdicts
import DeckLegality.Proofs.Json.Rules
import DeckLegality.Proofs.Pairing.Insertions
import DeckLegality.Proofs.Snapshot.Enumeration
import DeckLegality.Proofs.Snapshot.Binary
import DeckLegality.Proofs.Snapshot.Files
import DeckLegality.Proofs.Verdict.Messages
import DeckLegality.Proofs.Verdict.Violations
import DeckLegality.Proofs.Verdict.Saturation
import DeckLegality.Proofs.Verdict.Agreement
import DeckLegality.Proofs.Verdict.Reports
import DeckLegality.Proofs.Verdict.NoSideboard
import DeckLegality.Proofs.Verdict.Layout
import DeckLegality.Proofs.Verdict.Relaxation
import DeckLegality.Proofs.Verdict.Dependence
import DeckLegality.Proofs.CommandLine.Answer
