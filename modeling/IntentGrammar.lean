import IntentGrammar.Text.Ranges
import IntentGrammar.Text.Blank
import IntentGrammar.Text.Alphanumeric
import IntentGrammar.Text.Lowercase
import IntentGrammar.Decimal.Nearest
import IntentGrammar.Decimal.Reading
import IntentGrammar.Decimal.Shortest
import IntentGrammar.Hash.Sha256
import IntentGrammar.Random.Words
import IntentGrammar.Random.ChaCha12
import IntentGrammar.Grammar.Basic
import IntentGrammar.Grammar.Fault
import IntentGrammar.Grammar.Label
import IntentGrammar.Grammar.Sentence
import IntentGrammar.Grammar.Header
import IntentGrammar.Grammar.Arguments
import IntentGrammar.Grammar.Source
import IntentGrammar.Json.Basic
import IntentGrammar.Json.Reading
import IntentGrammar.Settings
import IntentGrammar.Error
import IntentGrammar.Graph.Basic
import IntentGrammar.Graph.Link
import IntentGrammar.Graph.Cardinality
import IntentGrammar.Graph.Weight
import IntentGrammar.Graph.Cycle
import IntentGrammar.Graph.Nesting
import IntentGrammar.Graph.Build
import IntentGrammar.Utterance
import IntentGrammar.Expansion.Basic
import IntentGrammar.Expansion.Enumeration
import IntentGrammar.Expansion.Sampling
import IntentGrammar.Split
import IntentGrammar.Cancellation
import IntentGrammar.Plan
import IntentGrammar.Stream
import IntentGrammar.Delivery
import IntentGrammar.Dataset
import IntentGrammar.Summary
import IntentGrammar.Run
import IntentGrammar.Record.Basic
import IntentGrammar.Record.Utterance
import IntentGrammar.Record.Summary
import IntentGrammar.Yaml.Place
import IntentGrammar.Yaml.Token
import IntentGrammar.Yaml.Fold
import IntentGrammar.Yaml.Quoted
import IntentGrammar.Yaml.Plain
import IntentGrammar.Yaml.Block
import IntentGrammar.Yaml.Property
import IntentGrammar.Yaml.Layout
import IntentGrammar.Yaml.Node
import IntentGrammar.Yaml.Document
import IntentGrammar.Yaml.Field
import IntentGrammar.Project
import IntentGrammar.Text.Cut
import IntentGrammar.Files.Path
import IntentGrammar.Files.Basic
import IntentGrammar.Files.Loading
import IntentGrammar.Command.Basic
import IntentGrammar.LineFiles
import IntentGrammar.Workers
import IntentGrammar.Command.Generate
import IntentGrammar.Command.Validate
import IntentGrammar.Command.Start
import IntentGrammar.Command.Line
import IntentGrammar.Main
import IntentGrammar.Proofs.References
import IntentGrammar.Proofs.Derivations
import IntentGrammar.Proofs.Circles
import IntentGrammar.Proofs.Counts
import IntentGrammar.Proofs.Nesting
import IntentGrammar.Proofs.Visits
import IntentGrammar.Proofs.Linking
import IntentGrammar.Proofs.Acceptance
import IntentGrammar.Proofs.Cardinalities
import IntentGrammar.Proofs.Enumeration
import IntentGrammar.Proofs.Sampling
import IntentGrammar.Proofs.Shares
import IntentGrammar.Proofs.Interruptions
import IntentGrammar.Proofs.Locality
import IntentGrammar.Proofs.Batches
import IntentGrammar.Proofs.Sinks
import IntentGrammar.Proofs.Harvests
import IntentGrammar.Proofs.Accounts
import IntentGrammar.Proofs.Channels
import IntentGrammar.Proofs.Schedules
import IntentGrammar.Proofs.Quotas
import IntentGrammar.Proofs.Refusals
import IntentGrammar.Proofs.Brackets
import IntentGrammar.Proofs.Sentences
import IntentGrammar.Proofs.Labels
import IntentGrammar.Proofs.Readings
import IntentGrammar.Proofs.Places
import IntentGrammar.Proofs.Paths
import IntentGrammar.Proofs.OpenFiles
import IntentGrammar.Proofs.Lines
import IntentGrammar.Proofs.Filings
import IntentGrammar.Proofs.JsonLines
import IntentGrammar.Proofs.Jobs
import IntentGrammar.Proofs.Commands
import IntentGrammar.Proofs.Manifests
import IntentGrammar.Proofs.Renumbering
import IntentGrammar.Proofs.Layout
import IntentGrammar.Proofs.Concatenation
import IntentGrammar.Proofs.Depths
import IntentGrammar.Proofs.Words
import IntentGrammar.Proofs.Utterances
import IntentGrammar.Proofs.Culprits
import IntentGrammar.Proofs.Datasets
import IntentGrammar.Proofs.Portions
import IntentGrammar.Proofs.Requests
import IntentGrammar.Proofs.JsonReading
import IntentGrammar.Proofs.Transcripts
import IntentGrammar.Proofs.Proportions
import IntentGrammar.Proofs.Startups
import IntentGrammar.Proofs.Headers
import IntentGrammar.Proofs.Positions
import IntentGrammar.Proofs.Trials
import IntentGrammar.Proofs.Attempts
import IntentGrammar.Proofs.Wordings
import IntentGrammar.Proofs.Splits
import IntentGrammar.Proofs.Names
