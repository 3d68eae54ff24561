import LineScript.Check.Basic
import LineScript.Check.Json
import LineScript.Command.Invocation
import LineScript.Command.Line
import LineScript.Command.Program
import LineScript.Command.Report
import LineScript.Command.Run
import LineScript.Command.Style
import LineScript.Decimal.Shortest
import LineScript.Document.Basic
import LineScript.Document.Definition
import LineScript.Document.Occurrence
import LineScript.Document.Preview
import LineScript.Document.Survey
import LineScript.Expansion.Call
import LineScript.Expansion.Stacks
import LineScript.Expansion.Cause
import LineScript.Expansion.Diagnostic
import LineScript.Expansion.Expanded
import LineScript.Expansion.Expander
import LineScript.Expansion.Options
import LineScript.Expansion.Work
import LineScript.Json.Number
import LineScript.Text.Quoted
import LineScript.Json.Read
import LineScript.Json.Value
import LineScript.Main
import LineScript.Pattern.Basic
import LineScript.Pattern.CaseTable
import LineScript.Pattern.CharSet
import LineScript.Pattern.Class
import LineScript.Pattern.Escape
import LineScript.Pattern.Match
import LineScript.Pattern.Read
import LineScript.Pattern.WordTable
import LineScript.Script.Arguments
import LineScript.Script.Expression
import LineScript.Script.Reader
import LineScript.Source.Line
import LineScript.Source.FileSystem
import LineScript.Template.Basic
import LineScript.Template.Reference
import LineScript.Template.Registry
import LineScript.Text.Basic
import LineScript.Text.Blank
import LineScript.Text.Extending
import LineScript.Text.Unprintable
import LineScript.Tree.Basic
import LineScript.Tree.Scripts
import LineScript.Proofs.Nesting
import LineScript.Proofs.Evaluator
import LineScript.Proofs.Refinement
import LineScript.Proofs.Reading
import LineScript.Proofs.Turns
import LineScript.Proofs.Termination
import LineScript.Proofs.Printing
import LineScript.Proofs.Contents
import LineScript.Proofs.Grammar
import LineScript.Proofs.Reached
import LineScript.Proofs.Agreement
import LineScript.Proofs.Blocks
import LineScript.Proofs.Actions
import LineScript.Proofs.Outcomes
import LineScript.Proofs.Orderly
import LineScript.Proofs.Chains
import LineScript.Proofs.Cycles
import LineScript.Proofs.Joining
import LineScript.Proofs.Likeness
import LineScript.Proofs.Pasting
import LineScript.Proofs.Previews
import LineScript.Proofs.Faults
import LineScript.Proofs.Ledger
import LineScript.Proofs.Irreducible
import LineScript.Proofs.Roots
import LineScript.Proofs.Interleaving
import LineScript.Proofs.Verbatim
import LineScript.Proofs.Targets
import LineScript.Proofs.Places
import LineScript.Proofs.Fields
import LineScript.Proofs.Occurrences
import LineScript.Proofs.Spelling
import LineScript.Proofs.Reprinting
import LineScript.Proofs.Arity
import LineScript.Proofs.Segments
import LineScript.Proofs.Shape
import LineScript.Proofs.Producing
import LineScript.Proofs.EarlyUse
import LineScript.Proofs.Sites
import LineScript.Proofs.Forwarding
import LineScript.Proofs.Pathless
import LineScript.Proofs.Unrolling
import LineScript.Proofs.Restoring
import LineScript.Proofs.Truncation
import LineScript.Proofs.Bodies
import LineScript.Proofs.Complements
