import NoteAssistant.Backend.Script
import NoteAssistant.Backend.World
import NoteAssistant.Calendar
import NoteAssistant.Capability
import NoteAssistant.Chat
import NoteAssistant.Command.Arguments
import NoteAssistant.Command.Help
import NoteAssistant.Command.Program
import NoteAssistant.Config.Environment
import NoteAssistant.Config.Loading
import NoteAssistant.Config.Location
import NoteAssistant.Config.Model
import NoteAssistant.Config.Problem
import NoteAssistant.Config.Setting
import NoteAssistant.Config.Shape
import NoteAssistant.Config.Suggestion
import NoteAssistant.Config.Validation
import NoteAssistant.Duration
import NoteAssistant.Event
import NoteAssistant.Fault
import NoteAssistant.Json.Numeral
import NoteAssistant.Json.Reading
import NoteAssistant.Json.Records
import NoteAssistant.Json.Tree
import NoteAssistant.Json.Value
import NoteAssistant.Knowledge
import NoteAssistant.Main
import NoteAssistant.Mask.Map
import NoteAssistant.Mask.Scanner
import NoteAssistant.Moment
import NoteAssistant.Number.Binary
import NoteAssistant.Number.Double
import NoteAssistant.Number.Shortest
import NoteAssistant.Number.Single
import NoteAssistant.Number.Written
import NoteAssistant.Prompt.Assembly
import NoteAssistant.Prompt.Kind
import NoteAssistant.Prompt.Passages
import NoteAssistant.Prompt.Substitution
import NoteAssistant.Prompt.Template
import NoteAssistant.Prompt.TimeTable
import NoteAssistant.Reply.Processor
import NoteAssistant.Reply.Schedule
import NoteAssistant.Reply.Writer
import NoteAssistant.Retrieval.Candidates
import NoteAssistant.Retrieval.Distinct
import NoteAssistant.Retrieval.Enhancement
import NoteAssistant.Retrieval.Evidence
import NoteAssistant.Retrieval.Normalization
import NoteAssistant.Retrieval.Retriever
import NoteAssistant.Retrieval.Transcript
import NoteAssistant.Routing.Jobs
import NoteAssistant.Routing.Registry
import NoteAssistant.Routing.Router
import NoteAssistant.Store
import NoteAssistant.Text.Blank
import NoteAssistant.Text.Fence
import NoteAssistant.Text.Hex
import NoteAssistant.Text.Quoted
import NoteAssistant.Text.Search
import NoteAssistant.Text.Unprintable
import NoteAssistant.Text.Utf8
import NoteAssistant.Toml.Document
import NoteAssistant.Toml.Scalar
import NoteAssistant.Toml.Table
import NoteAssistant.Toml.Value
import NoteAssistant.Turn
import NoteAssistant.Usage
import NoteAssistant.Vault.Aes
import NoteAssistant.Vault.ContentKey
import NoteAssistant.Vault.Gcm
import NoteAssistant.Wire.Completion
import NoteAssistant.Wire.EventStream
import NoteAssistant.Wire.Ranking
import NoteAssistant.Wire.Request
import NoteAssistant.Wire.Service
import NoteAssistant.Wire.Status
import NoteAssistant.Proofs.Mask.Resolution
import NoteAssistant.Proofs.Mask.Scanning
import NoteAssistant.Proofs.Reply.Delivery
import NoteAssistant.Proofs.Reply.Running
import NoteAssistant.Proofs.Reply.Fidelity
import NoteAssistant.Proofs.Reply.Causes
import NoteAssistant.Proofs.Reply.Progress
import NoteAssistant.Proofs.Reply.Envelope
import NoteAssistant.Proofs.Backend.Steps
import NoteAssistant.Proofs.Retrieval.Distinct
import NoteAssistant.Proofs.Retrieval.Evidence
import NoteAssistant.Proofs.Retrieval.Fusion
import NoteAssistant.Proofs.Retrieval.Remasking
import NoteAssistant.Proofs.Turn.Preparation
import NoteAssistant.Proofs.Mask.Likeness
import NoteAssistant.Proofs.Reply.Likeness
import NoteAssistant.Proofs.Reply.Schedule
import NoteAssistant.Proofs.Retrieval.Sources
import NoteAssistant.Proofs.Turn.Confidentiality
import NoteAssistant.Proofs.Turn.Isolation
import NoteAssistant.Proofs.Retrieval.Preservation
import NoteAssistant.Proofs.Text.NameKey
import NoteAssistant.Proofs.Routing.Registration
import NoteAssistant.Proofs.Routing.Building
import NoteAssistant.Proofs.Reply.Flushing
import NoteAssistant.Proofs.Calendar.Numbering
import NoteAssistant.Proofs.Calendar.Periods
import NoteAssistant.Proofs.Prompt.TimeTable
import NoteAssistant.Proofs.Json.Parts
import NoteAssistant.Proofs.Retrieval.Blocks
import NoteAssistant.Proofs.Config.Acceptance
import NoteAssistant.Proofs.Routing.Agreement
import NoteAssistant.Proofs.Mask.Passing
import NoteAssistant.Proofs.Reply.Reading
import NoteAssistant.Proofs.Reply.Ledger
import NoteAssistant.Proofs.Reply.Order
import NoteAssistant.Proofs.Backend.Alongside
import NoteAssistant.Proofs.Retrieval.Degradation
import NoteAssistant.Proofs.Turn.Degradation
import NoteAssistant.Proofs.Mask.Pieces
import NoteAssistant.Proofs.Mask.Surroundings
import NoteAssistant.Proofs.Retrieval.Faults
import NoteAssistant.Proofs.Backend.Calls
import NoteAssistant.Proofs.Turn.Enhancement
import NoteAssistant.Proofs.Retrieval.Selection
import NoteAssistant.Proofs.Text.Search
import NoteAssistant.Proofs.Prompt.Pieces
import NoteAssistant.Proofs.Prompt.Layers
import NoteAssistant.Proofs.Mask.Tables
import NoteAssistant.Proofs.Vault.Sealing
import NoteAssistant.Proofs.Wire.Tokens
import NoteAssistant.Proofs.Wire.Embedding
import NoteAssistant.Proofs.Prompt.Overrides
import NoteAssistant.Proofs.Routing.Startup
import NoteAssistant.Proofs.Config.Tables
import NoteAssistant.Proofs.Config.Assignments
import NoteAssistant.Proofs.Json.Strings
import NoteAssistant.Proofs.Retrieval.Wordings
import NoteAssistant.Proofs.Text.Slices
import NoteAssistant.Proofs.Json.Numbers
import NoteAssistant.Proofs.Json.Grammar
import NoteAssistant.Proofs.Text.Fence
import NoteAssistant.Proofs.Routing.Fencing
import NoteAssistant.Proofs.Json.Records
import NoteAssistant.Proofs.Routing.Summaries
import NoteAssistant.Proofs.Prompt.Passages
import NoteAssistant.Proofs.Turn.Tips
import NoteAssistant.Proofs.Text.HexDigits
import NoteAssistant.Proofs.Vault.Keys
import NoteAssistant.Proofs.Mask.Rescanning
import NoteAssistant.Proofs.Reply.Holding
import NoteAssistant.Proofs.Json.Printing
import NoteAssistant.Proofs.Json.Restating
import NoteAssistant.Proofs.Json.RoundTrip
