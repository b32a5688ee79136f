import CTyping.Location
import CTyping.Operator
import CTyping.Ty.Basic
import CTyping.Ty.Conversion
import CTyping.Ty.DataModel
import CTyping.Ty.Declarations
import CTyping.Tree.Expr
import CTyping.Tree.Program
import CTyping.Tree.Walk
import CTyping.Diagnostic
import CTyping.Checker.Problem
import CTyping.Checker.Trace
import CTyping.Checker.Rules
import CTyping.Checker.Expr
import CTyping.Checker.Program
import CTyping.Json.Basic
import CTyping.Json.Token
import CTyping.Json.Reader
import CTyping.Json.Printer
import CTyping.Json.Decoder
import CTyping.Document.Ty
import CTyping.Document.Expr
import CTyping.Document.Program
import CTyping.Analysis
import CTyping.Command.Options
import CTyping.Command.Run
import CTyping.Main
import CTyping.Proofs.Tree.Induction
import CTyping.Proofs.Ty.Conversion
import CTyping.Proofs.Checker.Trace
import CTyping.Proofs.Checker.Rules
import CTyping.Proofs.Tree.Demands
import CTyping.Proofs.Typing.Judgment
import CTyping.Proofs.Typing.Expr
import CTyping.Proofs.Checker.Statements
import CTyping.Proofs.Journal
import CTyping.Proofs.Typing.Program
import CTyping.Proofs.Checker.Explicit
import CTyping.Proofs.Checker.Again
import CTyping.Proofs.Checker.Layout
import CTyping.Proofs.Recheck
import CTyping.Proofs.Tree.Erasure
import CTyping.Proofs.Checker.Erasure
import CTyping.Proofs.Typing.Decision
import CTyping.Proofs.Checker.Coverage
import CTyping.Proofs.Checker.Lookup
import CTyping.Proofs.Checker.Pieces
import CTyping.Proofs.Checker.Slots
import CTyping.Proofs.Document.Expr
import CTyping.Proofs.Document.Program
import CTyping.Proofs.Ty.Decay
import CTyping.Proofs.Ty.Fresh
import CTyping.Proofs.History
import CTyping.Proofs.Delivery
import CTyping.Proofs.Ty.Registration
import CTyping.Proofs.Ty.Identity
import CTyping.Proofs.Checker.Losses
import CTyping.Proofs.Conversions
import CTyping.Proofs.Widths
import CTyping.Proofs.Ty.Retarget
import CTyping.Proofs.Ty.Words
import CTyping.Proofs.Ty.Text
import CTyping.Proofs.Tree.Parts
import CTyping.Proofs.Tree.Order
import CTyping.Proofs.Tree.Outline
import CTyping.Proofs.Checker.Simulation
import CTyping.Proofs.Checker.Outline
import CTyping.Proofs.Document.Format
import CTyping.Proofs.Document.Restyling
import CTyping.Proofs.Document.Presentation
import CTyping.Proofs.Casts
