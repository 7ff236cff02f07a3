import HindiScript.Bundle.Build
import HindiScript.Bundle.Event
import HindiScript.Bundle.Files
import HindiScript.Bundle.Module
import HindiScript.Command
import HindiScript.Decimal.Shortest
import HindiScript.Disk
import HindiScript.Json.Basic
import HindiScript.Json.Quote
import HindiScript.Json.Reader
import HindiScript.Json.Writer
import HindiScript.Main
import HindiScript.Path
import HindiScript.Registry
import HindiScript.Script.FetchHelper
import HindiScript.Script.Text
import HindiScript.Settings.Basic
import HindiScript.Settings.Load
import HindiScript.Text.Blank
import HindiScript.Text.Indent
import HindiScript.Text.Letter
import HindiScript.Text.Lines
import HindiScript.Text.Mark
import HindiScript.Text.Numeric
import HindiScript.Text.Quoted
import HindiScript.Text.Ranges
import HindiScript.Text.Template
import HindiScript.Text.Unprintable
import HindiScript.Token.Basic
import HindiScript.Token.Cursor
import HindiScript.Token.Scan
import HindiScript.Tree.Basic
import HindiScript.Tree.Grammar
import HindiScript.Tree.Outline
import HindiScript.Typing.Check
import HindiScript.Typing.Finding
import HindiScript.Typing.Scope
import HindiScript.Typing.Spec
import HindiScript.Typing.Union
import HindiScript.Proofs.Bundle.Accounting
import HindiScript.Proofs.Bundle.Closure
import HindiScript.Proofs.Bundle.Cycles
import HindiScript.Proofs.Bundle.Depth
import HindiScript.Proofs.Bundle.Failures
import HindiScript.Proofs.Bundle.History
import HindiScript.Proofs.Bundle.Linking
import HindiScript.Proofs.Bundle.Locality
import HindiScript.Proofs.Bundle.Lockstep
import HindiScript.Proofs.Bundle.Nesting
import HindiScript.Proofs.Bundle.Opening
import HindiScript.Proofs.Bundle.Run
import HindiScript.Proofs.Bundle.Steps
import HindiScript.Proofs.Bundle.Traversal
import HindiScript.Proofs.Script.Grouping
import HindiScript.Proofs.Script.Literals
import HindiScript.Proofs.Text.Hanging
import HindiScript.Proofs.Text.Template
import HindiScript.Proofs.Token.Cutting
import HindiScript.Proofs.Token.Spelling
import HindiScript.Proofs.Token.Tiling
import HindiScript.Proofs.Tree.Inverse
import HindiScript.Proofs.Tree.Lines
import HindiScript.Proofs.Tree.Productions
import HindiScript.Proofs.Tree.Progress
import HindiScript.Proofs.Tree.Reading
import HindiScript.Proofs.Tree.Relining
import HindiScript.Proofs.Tree.Shape
import HindiScript.Proofs.Tree.SourceLines
import HindiScript.Proofs.Tree.Termination
import HindiScript.Proofs.Tree.Written
import HindiScript.Proofs.Typing.Erasure
import HindiScript.Proofs.Typing.Isolation
import HindiScript.Proofs.Tree.WellFormed
import HindiScript.Proofs.Script.Layout
import HindiScript.Proofs.Json.Quoting
import HindiScript.Proofs.Script.Recoding
import HindiScript.Proofs.Script.Regrouping
import HindiScript.Proofs.Token.Overlong
import HindiScript.Proofs.Token.Positions
import HindiScript.Proofs.Typing.Visits
import HindiScript.Proofs.Typing.Attribution
import HindiScript.Proofs.Typing.Redeclaration
import HindiScript.Proofs.Bundle.Bindings
import HindiScript.Proofs.Script.Exports
import HindiScript.Proofs.Tree.Climbing
import HindiScript.Proofs.Tree.Arrows
import HindiScript.Proofs.Script.Conditions
import HindiScript.Proofs.Token.Respelling
import HindiScript.Proofs.Script.Imports
import HindiScript.Proofs.Typing.Relevance
import HindiScript.Proofs.Typing.SpecText
import HindiScript.Proofs.Text.Trimming
import HindiScript.Proofs.Typing.Unions
import HindiScript.Proofs.Typing.Hoisting
import HindiScript.Proofs.Path.Canonical
import HindiScript.Proofs.Json.Contents
import HindiScript.Proofs.Script.FetchHelper
import HindiScript.Proofs.Typing.Lexical
import HindiScript.Proofs.Settings.Malformed
