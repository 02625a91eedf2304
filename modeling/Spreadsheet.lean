import Spreadsheet.Area
import Spreadsheet.Cell
import Spreadsheet.Command.Arguments
import Spreadsheet.Command.Run
import Spreadsheet.Erasure
import Spreadsheet.Formula.Desugar
import Spreadsheet.Formula.Evaluate
import Spreadsheet.Formula.Generation
import Spreadsheet.Formula.Literal
import Spreadsheet.Formula.Outcome
import Spreadsheet.Formula.Packing
import Spreadsheet.Formula.Reference
import Spreadsheet.Grid
import Spreadsheet.Label
import Spreadsheet.Main
import Spreadsheet.Markup
import Spreadsheet.Number.Double
import Spreadsheet.Number.Format
import Spreadsheet.Number.Read
import Spreadsheet.Number.Shortest
import Spreadsheet.Script.Error
import Spreadsheet.Script.Eval
import Spreadsheet.Script.Expr
import Spreadsheet.Script.Function
import Spreadsheet.Script.Language
import Spreadsheet.Script.Lex
import Spreadsheet.Script.Lexer
import Spreadsheet.Script.Operator
import Spreadsheet.Script.Parse
import Spreadsheet.Script.Simplify
import Spreadsheet.Script.Token
import Spreadsheet.Script.Value
import Spreadsheet.Settings
import Spreadsheet.Sheet.Action
import Spreadsheet.Sheet.Basic
import Spreadsheet.Sheet.Change
import Spreadsheet.Sheet.Generation
import Spreadsheet.Sheet.Markdown
import Spreadsheet.Sheet.Render
import Spreadsheet.Sheet.Resize
import Spreadsheet.Sheet.Selection
import Spreadsheet.Sheet.Tool
import Spreadsheet.Text.Basic
import Spreadsheet.Text.Blank
import Spreadsheet.Text.Bracket
import Spreadsheet.Text.Hex
import Spreadsheet.Text.Quoted
import Spreadsheet.Text.Visible
import Spreadsheet.Text.Word
import Spreadsheet.Toml.Document
import Spreadsheet.Toml.Item
import Spreadsheet.Toml.Quoted
import Spreadsheet.Proofs.Area
import Spreadsheet.Proofs.Markup
import Spreadsheet.Proofs.Markup.Peeling
import Spreadsheet.Proofs.Markup.Tools
import Spreadsheet.Proofs.Grid
import Spreadsheet.Proofs.Sheet.Sound
import Spreadsheet.Proofs.Sheet.History
import Spreadsheet.Proofs.Sheet.Dispatch
import Spreadsheet.Proofs.Sheet.Selection
import Spreadsheet.Proofs.Sheet.Bar
import Spreadsheet.Proofs.Sheet.Failure
import Spreadsheet.Proofs.Sheet.Completion
import Spreadsheet.Proofs.Sheet.Render
import Spreadsheet.Proofs.Sheet.Refill
import Spreadsheet.Proofs.Sheet.Markdown
import Spreadsheet.Proofs.Sheet.Format
import Spreadsheet.Proofs.Sheet.Wrapping
import Spreadsheet.Proofs.Sheet.Redispatch
import Spreadsheet.Proofs.Sheet.Clicks
import Spreadsheet.Proofs.Text.Blank
import Spreadsheet.Proofs.Text.Quoted
import Spreadsheet.Proofs.Text.Nesting
import Spreadsheet.Proofs.Text.Template
import Spreadsheet.Proofs.Text.Literals
import Spreadsheet.Proofs.Text.Pattern
import Spreadsheet.Proofs.Formula.Packing
import Spreadsheet.Proofs.Formula.References
import Spreadsheet.Proofs.Formula.Denotation
import Spreadsheet.Proofs.Formula.Memory
import Spreadsheet.Proofs.Formula.Propagation
import Spreadsheet.Proofs.Formula.Cycles
import Spreadsheet.Proofs.Formula.Injection
import Spreadsheet.Proofs.Formula.Brackets
import Spreadsheet.Proofs.Script.Lexing
import Spreadsheet.Proofs.Script.Rules
import Spreadsheet.Proofs.Script.Lexer
import Spreadsheet.Proofs.Script.Lexemes
import Spreadsheet.Proofs.Formula.Notation
import Spreadsheet.Proofs.Formula.Relocation
import Spreadsheet.Proofs.Formula.Dependence
import Spreadsheet.Proofs.Formula.Coordinates
import Spreadsheet.Proofs.Formula.Substitution
import Spreadsheet.Proofs.Formula.Columns
import Spreadsheet.Proofs.Formula.Literals
import Spreadsheet.Proofs.Formula.Draft
import Spreadsheet.Proofs.Formula.Drafting
import Spreadsheet.Proofs.Formula.Promotion
import Spreadsheet.Proofs.Formula.Placement
import Spreadsheet.Proofs.Script.Parsing
import Spreadsheet.Proofs.Script.Running
import Spreadsheet.Proofs.Formula.Calls
import Spreadsheet.Proofs.Formula.Ranges
import Spreadsheet.Proofs.Formula.Variadic
import Spreadsheet.Proofs.Formula.Numerals
import Spreadsheet.Proofs.Formula.Promoted
import Spreadsheet.Proofs.Formula.Data
import Spreadsheet.Proofs.Formula.Arguments
import Spreadsheet.Proofs.Formula.Quotations
import Spreadsheet.Proofs.Formula.Grammar
import Spreadsheet.Proofs.Formula.Corners
import Spreadsheet.Proofs.Formula.Trails
import Spreadsheet.Proofs.Naming
import Spreadsheet.Proofs.Provenance
