import ScriptLang.Binding
import ScriptLang.Binding.HopTable
import ScriptLang.CommandLine
import ScriptLang.Decimal.Binary
import ScriptLang.Decimal.Layout
import ScriptLang.Decimal.Numeral
import ScriptLang.Decimal.Shortest
import ScriptLang.Fault
import ScriptLang.Grammar
import ScriptLang.Grammar.Expression
import ScriptLang.Grammar.Reading
import ScriptLang.Grammar.Statement
import ScriptLang.Ledger
import ScriptLang.Machine
import ScriptLang.Machine.Evaluate
import ScriptLang.Machine.Operator
import ScriptLang.Main
import ScriptLang.NameMap
import ScriptLang.Proofs.Binding.Bound
import ScriptLang.Proofs.Binding.Distance
import ScriptLang.Proofs.Binding.Instance
import ScriptLang.Proofs.Binding.Passage
import ScriptLang.Proofs.Binding.Placed
import ScriptLang.Proofs.Binding.Relabel
import ScriptLang.Proofs.Binding.Respelled
import ScriptLang.Proofs.Binding.Rules
import ScriptLang.Proofs.Binding.Standing
import ScriptLang.Proofs.Binding.Walk
import ScriptLang.Proofs.Grammar.Acceptance
import ScriptLang.Proofs.Grammar.Completeness
import ScriptLang.Proofs.Grammar.Language
import ScriptLang.Proofs.Grammar.Loops
import ScriptLang.Proofs.Grammar.Phrase
import ScriptLang.Proofs.Grammar.Reader
import ScriptLang.Proofs.Grammar.Shift
import ScriptLang.Proofs.Grammar.Soundness
import ScriptLang.Proofs.Grammar.Trees
import ScriptLang.Proofs.Machine.Control
import ScriptLang.Proofs.Machine.Discipline
import ScriptLang.Proofs.Machine.Fuel
import ScriptLang.Proofs.Machine.Instance
import ScriptLang.Proofs.Machine.Termination
import ScriptLang.Proofs.Machine.Tracing
import ScriptLang.Proofs.Machine.Variables
import ScriptLang.Proofs.Machine.Visits
import ScriptLang.Proofs.Reference.Correspondence
import ScriptLang.Proofs.Reference.Erasure
import ScriptLang.Proofs.Reference.Evaluate
import ScriptLang.Proofs.Reference.Mirroring
import ScriptLang.Proofs.Reference.Respelled
import ScriptLang.Proofs.Reference.Scripts
import ScriptLang.Proofs.Reference.Simulation
import ScriptLang.Proofs.Reference.Steps
import ScriptLang.Proofs.Session.Control
import ScriptLang.Proofs.Session.FaultyLines
import ScriptLang.Proofs.Session.HeapShape
import ScriptLang.Proofs.Session.History
import ScriptLang.Proofs.Session.Instance
import ScriptLang.Proofs.Session.Joining
import ScriptLang.Proofs.Session.Reachable
import ScriptLang.Proofs.Session.Renaming
import ScriptLang.Proofs.Session.Termination
import ScriptLang.Proofs.Store.Changes
import ScriptLang.Proofs.Store.Frames
import ScriptLang.Proofs.Text.Decoding
import ScriptLang.Proofs.Token.LongestMatch
import ScriptLang.Proofs.Token.Pieces
import ScriptLang.Proofs.Token.Tiling
import ScriptLang.Proofs.Tree.Equality
import ScriptLang.Proofs.Tree.Relabel
import ScriptLang.Session
import ScriptLang.Store
import ScriptLang.Text.Backspace
import ScriptLang.Text.Cluster
import ScriptLang.Text.Cluster.Conjunct
import ScriptLang.Text.Cluster.Pictograph
import ScriptLang.Text.Cluster.Spacing
import ScriptLang.Text.Extending
import ScriptLang.Text.Quoted
import ScriptLang.Text.Ranges
import ScriptLang.Text.Unassigned
import ScriptLang.Text.Utf8
import ScriptLang.Text.Visible
import ScriptLang.Token
import ScriptLang.Token.Listing
import ScriptLang.Token.Scan
import ScriptLang.Tree
import ScriptLang.Tree.Mention
import ScriptLang.Tree.Outline
import ScriptLang.Value
import ScriptLang.Proofs.Grammar.Outcomes
import ScriptLang.Proofs.Session.Identities
import ScriptLang.Proofs.Binding.Places
import ScriptLang.Proofs.Machine.Places
import ScriptLang.Proofs.Session.Places
import ScriptLang.Proofs.Grammar.Strata
import ScriptLang.Proofs.Grammar.Alongside
import ScriptLang.Proofs.Grammar.Isolation
import ScriptLang.Proofs.Grammar.Pace
import ScriptLang.Proofs.Grammar.Progress
import ScriptLang.Proofs.Text.Encoding
import ScriptLang.Proofs.Token.Rescanning
import ScriptLang.Proofs.Token.Characters
import ScriptLang.Proofs.Machine.Activation
import ScriptLang.Proofs.Session.Returns
import ScriptLang.Proofs.Session.WellFormed
import ScriptLang.Proofs.Session.Parameters
import ScriptLang.Proofs.Decimal.Readback
import ScriptLang.Proofs.Decimal.Positional
import ScriptLang.Proofs.Tree.Forms
import ScriptLang.Proofs.Tree.Words
import ScriptLang.Proofs.Tree.Recovery
import ScriptLang.Proofs.Tree.Unambiguous
import ScriptLang.Proofs.Reference.Fuel
import ScriptLang.Proofs.Reference.ForLoop
import ScriptLang.Proofs.Session.ForLoops
import ScriptLang.Proofs.Store.Chains
import ScriptLang.Proofs.Machine.Access
