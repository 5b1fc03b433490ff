import DocTransfer.Command
import DocTransfer.Command.Arguments
import DocTransfer.Command.Console
import DocTransfer.Command.Listing
import DocTransfer.Command.Transfer
import DocTransfer.Config
import DocTransfer.Declared
import DocTransfer.Declared.Names
import DocTransfer.Diff.Compact
import DocTransfer.Diff.Script
import DocTransfer.Diff.Unified
import DocTransfer.Error
import DocTransfer.FileTree
import DocTransfer.Glob
import DocTransfer.Header.ExportWord
import DocTransfer.Header.Reader
import DocTransfer.Header.Types
import DocTransfer.Javadoc.Basic
import DocTransfer.Javadoc.Extract
import DocTransfer.Javadoc.Folder
import DocTransfer.Javadoc.Json
import DocTransfer.Javadoc.Reader
import DocTransfer.Javadoc.Tree
import DocTransfer.Json.Basic
import DocTransfer.Json.Decode
import DocTransfer.Json.Fault
import DocTransfer.Json.Numeral
import DocTransfer.Json.Outline
import DocTransfer.Json.Printer
import DocTransfer.Language
import DocTransfer.Language.Style
import DocTransfer.Main
import DocTransfer.Matching.Basic
import DocTransfer.Matching.Similarity
import DocTransfer.Model.Client
import DocTransfer.Model.Service
import DocTransfer.Model.Table
import DocTransfer.Number.Binary
import DocTransfer.Number.Digits
import DocTransfer.Number.Read
import DocTransfer.Number.Shortest
import DocTransfer.Number.Written
import DocTransfer.Path
import DocTransfer.Proofs.Answer.Literal
import DocTransfer.Proofs.Answer.Tolerance
import DocTransfer.Proofs.Edit.Patch
import DocTransfer.Proofs.EditLoop.Bounds
import DocTransfer.Proofs.EditLoop.CrashSafety
import DocTransfer.Proofs.EditLoop.Refinement
import DocTransfer.Proofs.EditLoop.Semantics
import DocTransfer.Proofs.Json.Grammar
import DocTransfer.Proofs.Json.Lexeme
import DocTransfer.Proofs.Json.Quoting
import DocTransfer.Proofs.Text.Find
import DocTransfer.Script.Reader
import DocTransfer.Script.Token
import DocTransfer.Script.Types
import DocTransfer.Sharp.Reader
import DocTransfer.Sharp.Types
import DocTransfer.Source.Bracket
import DocTransfer.Source.Token
import DocTransfer.Source.Tree
import DocTransfer.Storage
import DocTransfer.Text.Blank
import DocTransfer.Text.Find
import DocTransfer.Text.Letter
import DocTransfer.Text.LetterTable
import DocTransfer.Text.Lower
import DocTransfer.Transfer.Answer
import DocTransfer.Transfer.Batch
import DocTransfer.Transfer.Collect
import DocTransfer.Transfer.Dump
import DocTransfer.Transfer.Edit
import DocTransfer.Transfer.EditLoop
import DocTransfer.Transfer.File
import DocTransfer.Transfer.Prompt
import DocTransfer.Transfer.Session
import DocTransfer.Usage
import DocTransfer.Proofs.Json.Written
import DocTransfer.Proofs.Answer.Understood
import DocTransfer.Proofs.Batch.Accounting
import DocTransfer.Proofs.FileTree.Overwrite
import DocTransfer.Proofs.Batch.Frame
import DocTransfer.Proofs.Batch.Preview
import DocTransfer.Proofs.Batch.Independence
import DocTransfer.Proofs.Session.Stages
import DocTransfer.Proofs.Json.Pretty
import DocTransfer.Proofs.Json.Numbers
import DocTransfer.Proofs.Javadoc.RoundTrip
import DocTransfer.Proofs.Command.Action
import DocTransfer.Proofs.Command.Plan
import DocTransfer.Proofs.Command.AllOrNothing
import DocTransfer.Proofs.FileTree.Walk
import DocTransfer.Proofs.FileTree.Create
import DocTransfer.Proofs.Command.Saving
import DocTransfer.Proofs.Command.Workflows
import DocTransfer.Proofs.Javadoc.Rows
import DocTransfer.Proofs.Javadoc.Shape
import DocTransfer.Proofs.Source.Place
import DocTransfer.Proofs.Javadoc.Declared
import DocTransfer.Proofs.Javadoc.Attribution
import DocTransfer.Proofs.Config.Stability
import DocTransfer.Proofs.Path.Below
import DocTransfer.Proofs.Dump.Paths
import DocTransfer.Proofs.Dump.Recorded
import DocTransfer.Proofs.Dump.Apart
import DocTransfer.Proofs.Text.Occurrence
import DocTransfer.Proofs.Edit.Semantics
import DocTransfer.Proofs.Edit.Insertion
import DocTransfer.Proofs.EditLoop.Preservation
import DocTransfer.Proofs.Edit.Repetition
import DocTransfer.Proofs.EditLoop.Insistence
import DocTransfer.Proofs.Edit.Slots
import DocTransfer.Proofs.Edit.Convergence
import DocTransfer.Proofs.Matching.Changes
import DocTransfer.Proofs.Matching.Distance
import DocTransfer.Proofs.Matching.Names
import DocTransfer.Proofs.Javadoc.DepthFirst
import DocTransfer.Proofs.Matching.Selection
import DocTransfer.Proofs.Text.Words
import DocTransfer.Proofs.Header.Stripping
import DocTransfer.Proofs.Header.Sparing
import DocTransfer.Proofs.Source.Lexing
import DocTransfer.Proofs.Header.Lexing
import DocTransfer.Proofs.Header.Specifier
import DocTransfer.Proofs.Header.ClassHead
import DocTransfer.Proofs.Header.ClassName
import DocTransfer.Proofs.Header.TypeSpec
import DocTransfer.Proofs.Header.Typedef
import DocTransfer.Proofs.Path.Order
import DocTransfer.Proofs.FileTree.Collection
import DocTransfer.Proofs.Glob.Exclusion
import DocTransfer.Proofs.Answer.Escaping
import DocTransfer.Proofs.Source.Walk
import DocTransfer.Proofs.Declared.Names
import DocTransfer.Proofs.Declared.Candidates
