import ShiftReduce.Text.Printing
import ShiftReduce.Text.Quoted
import ShiftReduce.Text.Words
import ShiftReduce.Sorting.Search
import ShiftReduce.Sorting.Run
import ShiftReduce.Sorting.Merge
import ShiftReduce.Sorting.Adaptive
import ShiftReduce.Value.Basic
import ShiftReduce.Value.Printer
import ShiftReduce.Value.Equality
import ShiftReduce.Fault
import ShiftReduce.Activity
import ShiftReduce.Value.HashKey
import ShiftReduce.Value.Access
import ShiftReduce.Value.Description
import ShiftReduce.Value.Store
import ShiftReduce.Value.Order
import ShiftReduce.Value.Dictionary
import ShiftReduce.Table.Cell
import ShiftReduce.Table.Lookup
import ShiftReduce.Table.Listing
import ShiftReduce.Table.Query
import ShiftReduce.Recipe.Basic
import ShiftReduce.Recipe.Build
import ShiftReduce.Grammar.Single
import ShiftReduce.Grammar.Nullable
import ShiftReduce.Grammar.Expression
import ShiftReduce.Parser.Registry
import ShiftReduce.Parser.Basic
import ShiftReduce.Parser.Trace
import ShiftReduce.Parser.Step
import ShiftReduce.Parser.Run
import ShiftReduce.Session.Basic
import ShiftReduce.Session.View
import ShiftReduce.Session.Delivery
import ShiftReduce.Session.Perform
import ShiftReduce.ErrorFamily
import ShiftReduce.Interface
import ShiftReduce.Packaging.Version
import ShiftReduce.Packaging.Build
import ShiftReduce.Packaging.ExtensionOptions
import ShiftReduce.Packaging.Exports
import ShiftReduce.Proofs.Parser.Situation
import ShiftReduce.Proofs.Run.Turn
import ShiftReduce.Proofs.Run.Course
import ShiftReduce.Proofs.Run.Path
import ShiftReduce.Proofs.Run.Record
import ShiftReduce.Proofs.Run.Forest
import ShiftReduce.Proofs.Value.Constant
import ShiftReduce.Proofs.Value.Plain
import ShiftReduce.Proofs.Machine.Basic
import ShiftReduce.Proofs.Parser.Legible
import ShiftReduce.Proofs.Machine.Lockstep
import ShiftReduce.Proofs.Machine.Refinement
import ShiftReduce.Proofs.Run.Confined
import ShiftReduce.Proofs.Grammar.Derivation
import ShiftReduce.Proofs.Grammar.ExpressionAutomaton
import ShiftReduce.Proofs.Grammar.ExpressionSoundness
import ShiftReduce.Proofs.Grammar.ExpressionTree
import ShiftReduce.Proofs.Grammar.ExpressionCompleteness
import ShiftReduce.Proofs.Grammar.ExpressionLanguage
import ShiftReduce.Proofs.Session.Collector
import ShiftReduce.Proofs.Session.Expression
import ShiftReduce.Proofs.Run.Rightmost
import ShiftReduce.Proofs.Grammar.ExpressionPrefix
import ShiftReduce.Proofs.Run.CorrectPrefix
import ShiftReduce.Proofs.Run.Settlement
import ShiftReduce.Proofs.Run.ObserverFault
import ShiftReduce.Proofs.Run.Announcement
import ShiftReduce.Proofs.Parser.Views
import ShiftReduce.Proofs.Run.Replay
import ShiftReduce.Proofs.Run.FanOut
import ShiftReduce.Proofs.Run.Verdict
import ShiftReduce.Proofs.Run.Tandem
import ShiftReduce.Proofs.Run.Lookups
import ShiftReduce.Proofs.Run.Consultation
import ShiftReduce.Proofs.Run.Lookahead
import ShiftReduce.Proofs.Run.Noninterference
import ShiftReduce.Proofs.Grammar.Arithmetic
import ShiftReduce.Proofs.Run.Evaluation
import ShiftReduce.Proofs.Request.Residue
import ShiftReduce.Proofs.Parser.Parse
import ShiftReduce.Proofs.Request.Conduct
import ShiftReduce.Proofs.Run.Continuation
import ShiftReduce.Proofs.Request.Once
import ShiftReduce.Proofs.Parser.Sight
import ShiftReduce.Proofs.Run.Alone
import ShiftReduce.Proofs.Session.Parsers
import ShiftReduce.Proofs.Session.Nesting
import ShiftReduce.Proofs.Session.SharedTable
import ShiftReduce.Proofs.Value.Reading
import ShiftReduce.Proofs.Table.Filed
import ShiftReduce.Proofs.Table.Distinct
import ShiftReduce.Proofs.Table.Rows
import ShiftReduce.Proofs.Run.Halting
import ShiftReduce.Proofs.Table.Expected
import ShiftReduce.Proofs.Table.Failure
import ShiftReduce.Proofs.Run.Constancy
import ShiftReduce.Proofs.Parser.Refusal
import ShiftReduce.Proofs.Run.Diagnosis
import ShiftReduce.Proofs.Run.Acceptance
import ShiftReduce.Proofs.Table.Descent
import ShiftReduce.Proofs.Run.Termination
import ShiftReduce.Proofs.Session.RuleListing
import ShiftReduce.Proofs.Value.Alike
import ShiftReduce.Proofs.Value.Unfolding
import ShiftReduce.Proofs.Value.Kinds
import ShiftReduce.Proofs.Value.Filing
import ShiftReduce.Proofs.Value.Equivalence
import ShiftReduce.Proofs.Run.Complaint
import ShiftReduce.Proofs.Run.Narration
import ShiftReduce.Proofs.Packaging.VersionLine
import ShiftReduce.Proofs.Packaging.Finalization
import ShiftReduce.Proofs.Parser.Columns
