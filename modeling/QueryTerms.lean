import QueryTerms.Attribute
import QueryTerms.Backtrace
import QueryTerms.Bound
import QueryTerms.Build
import QueryTerms.Calendar
import QueryTerms.Command.Arguments
import QueryTerms.Command.Run
import QueryTerms.Config.Basic
import QueryTerms.Config.Reader
import QueryTerms.Context
import QueryTerms.Datum.Basic
import QueryTerms.Datum.Mismatch
import QueryTerms.Datum.Reader
import QueryTerms.Datum.Text
import QueryTerms.Describe
import QueryTerms.Expr.Basic
import QueryTerms.Expr.Operators
import QueryTerms.Fault
import QueryTerms.Fields
import QueryTerms.FileTree
import QueryTerms.HostValue
import QueryTerms.Log
import QueryTerms.Main
import QueryTerms.Number.Double
import QueryTerms.Number.Shortest
import QueryTerms.Operator
import QueryTerms.OptionList
import QueryTerms.Query
import QueryTerms.Shape
import QueryTerms.Term.Basic
import QueryTerms.Term.Inlining
import QueryTerms.Term.Printer
import QueryTerms.Term.Renaming
import QueryTerms.Term.Wire
import QueryTerms.Text.Block
import QueryTerms.Text.Escape
import QueryTerms.Text.Visible
import QueryTerms.Proofs.AlphaEquivalence
import QueryTerms.Proofs.BetaLaw
import QueryTerms.Proofs.Binders
import QueryTerms.Proofs.Blocks
import QueryTerms.Proofs.BuildHygiene
import QueryTerms.Proofs.CivilCalendar
import QueryTerms.Proofs.ComputedNumbers
import QueryTerms.Proofs.DatumReading
import QueryTerms.Proofs.Envelope
import QueryTerms.Proofs.Framing
import QueryTerms.Proofs.FreshVariables
import QueryTerms.Proofs.HexText
import QueryTerms.Proofs.HostMaps
import QueryTerms.Proofs.InlinableCalls
import QueryTerms.Proofs.InliningComplete
import QueryTerms.Proofs.InliningMeaning
import QueryTerms.Proofs.Instants
import QueryTerms.Proofs.LabelErasure
import QueryTerms.Proofs.LabelledRenaming
import QueryTerms.Proofs.Labels
import QueryTerms.Proofs.LatestEntries
import QueryTerms.Proofs.LogLines
import QueryTerms.Proofs.Meaning
import QueryTerms.Proofs.NamedParts
import QueryTerms.Proofs.ObjectForms
import QueryTerms.Proofs.OptionSteps
import QueryTerms.Proofs.PartOrder
import QueryTerms.Proofs.PathDecoding
import QueryTerms.Proofs.PathText
import QueryTerms.Proofs.Positions
import QueryTerms.Proofs.PrintedLayout
import QueryTerms.Proofs.RangeEnds
import QueryTerms.Proofs.RenamingExact
import QueryTerms.Proofs.RenamingLaws
import QueryTerms.Proofs.RenamingRules
import QueryTerms.Proofs.Renumbering
import QueryTerms.Proofs.Rewriting
import QueryTerms.Proofs.Rounding
import QueryTerms.Proofs.SortedEntries
import QueryTerms.Proofs.TableCommand
import QueryTerms.Proofs.TableReferences
import QueryTerms.Proofs.TermForms
import QueryTerms.Proofs.TokenModel
import QueryTerms.Proofs.TwinBuilds
import QueryTerms.Proofs.TwinExpressions
import QueryTerms.Proofs.VariableMaps
import QueryTerms.Proofs.VariableNames
import QueryTerms.Proofs.WireForm
import QueryTerms.Proofs.ZeroSigns
