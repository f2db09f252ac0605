import StackLexer.Command.Folder
import StackLexer.Command.Help
import StackLexer.Command.PathName
import StackLexer.Command.Request
import StackLexer.Command.Run
import StackLexer.Decimal.Shortest
import StackLexer.Grammar.Bundled
import StackLexer.Grammar.Expansion
import StackLexer.Grammar.Field
import StackLexer.Grammar.FromJson
import StackLexer.Grammar.FromYaml
import StackLexer.Grammar.Lexicon
import StackLexer.Grammar.LoadError
import StackLexer.Grammar.Loading
import StackLexer.Grammar.Pattern
import StackLexer.Grammar.Place
import StackLexer.Grammar.Rule
import StackLexer.Grammar.StringTemplate
import StackLexer.Grammar.ToJson
import StackLexer.Json.Draft
import StackLexer.Json.Number
import StackLexer.Json.Pretty
import StackLexer.Json.Value
import StackLexer.Lexing.Event
import StackLexer.Lexing.Scan
import StackLexer.Lexing.Session
import StackLexer.Lexing.Stack
import StackLexer.Lexing.Token
import StackLexer.Main
import StackLexer.Proofs.Grammar.Acceptance
import StackLexer.Proofs.Grammar.Arena
import StackLexer.Proofs.Grammar.Checking
import StackLexer.Proofs.Grammar.Decoding
import StackLexer.Proofs.Grammar.Includes
import StackLexer.Proofs.Grammar.Memory
import StackLexer.Proofs.Grammar.Numbering
import StackLexer.Proofs.Grammar.PushPlaces
import StackLexer.Proofs.Grammar.Renaming
import StackLexer.Proofs.Grammar.SharedPatterns
import StackLexer.Proofs.Grammar.Sources
import StackLexer.Proofs.Grammar.Splice
import StackLexer.Proofs.Grammar.Walk
import StackLexer.Proofs.Grammar.WellFormed
import StackLexer.Proofs.Json.Reading
import StackLexer.Proofs.Lexing.Above
import StackLexer.Proofs.Lexing.Accounting
import StackLexer.Proofs.Lexing.Duration
import StackLexer.Proofs.Lexing.Gaps
import StackLexer.Proofs.Lexing.Guarded
import StackLexer.Proofs.Lexing.History
import StackLexer.Proofs.Lexing.Labels
import StackLexer.Proofs.Lexing.Layout
import StackLexer.Proofs.Lexing.Machine
import StackLexer.Proofs.Lexing.Merging
import StackLexer.Proofs.Lexing.Progress
import StackLexer.Proofs.Lexing.Reference
import StackLexer.Proofs.Lexing.Run
import StackLexer.Proofs.Lexing.Shares
import StackLexer.Proofs.Lexing.Simulation
import StackLexer.Proofs.Lexing.StackSafety
import StackLexer.Proofs.Lexing.Tiling
import StackLexer.Proofs.Lexing.Visits
import StackLexer.Regex.Engine
import StackLexer.Regex.Extent
import StackLexer.Proofs.Text.ByteOrder
import StackLexer.Proofs.Text.Slice
import StackLexer.Regex.Bracket
import StackLexer.Regex.CharSet
import StackLexer.Regex.Escape
import StackLexer.Regex.Fault
import StackLexer.Regex.Matching
import StackLexer.Regex.Node
import StackLexer.Regex.Reader
import StackLexer.Settings.Basic
import StackLexer.Settings.Fault
import StackLexer.Settings.Layers
import StackLexer.Settings.Path
import StackLexer.Settings.Reading
import StackLexer.Settings.Value
import StackLexer.Text.Dictionary
import StackLexer.Text.Line
import StackLexer.Text.Lines
import StackLexer.Text.Quoted
import StackLexer.Text.Utf8
import StackLexer.Toml.Document
import StackLexer.Toml.Number
import StackLexer.Toml.Table
import StackLexer.Toml.Text
import StackLexer.Toml.Value
import StackLexer.Unicode.Category
import StackLexer.Unicode.Folding
import StackLexer.Unicode.Lowercase
import StackLexer.Unicode.Property
import StackLexer.Unicode.Ranges
import StackLexer.Unicode.Script
import StackLexer.Yaml.Block
import StackLexer.Yaml.Name
import StackLexer.Yaml.Node
import StackLexer.Yaml.Nodes
import StackLexer.Yaml.Scalar
import StackLexer.Yaml.Text
import StackLexer.Yaml.Token
import StackLexer.Yaml.Tokens
import StackLexer.Yaml.Words
import StackLexer.Proofs.Grammar.Marks
import StackLexer.Proofs.Grammar.Refusal
import StackLexer.Proofs.Grammar.DeedOrder
import StackLexer.Proofs.Grammar.FieldParts
import StackLexer.Proofs.Grammar.JsonForms
import StackLexer.Proofs.Grammar.LoadBounds
import StackLexer.Proofs.Grammar.JsonRuleSets
import StackLexer.Proofs.Lexing.Documents
import StackLexer.Proofs.Lexing.Limits
import StackLexer.Proofs.Lexing.Fallback
import StackLexer.Proofs.Grammar.JsonTexts
import StackLexer.Proofs.Grammar.PatternTable
import StackLexer.Proofs.Lexing.Discipline
import StackLexer.Proofs.Lexing.Balance
import StackLexer.Proofs.Settings.Layering
import StackLexer.Proofs.Settings.Winning
import StackLexer.Proofs.Json.Printing
import StackLexer.Proofs.Lexing.Transcript
import StackLexer.Proofs.Command.Answers
