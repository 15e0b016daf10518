import SyncGrammar.Config.Printer
import SyncGrammar.Grammar.Expansion
import SyncGrammar.Grammar.Printer
import SyncGrammar.Regex.Engine
import SyncGrammar.Sample
import SyncGrammar.SingleRule
import SyncGrammar.Translator
import SyncGrammar.Proofs.Run
import SyncGrammar.Proofs.CycleSearch
import SyncGrammar.Proofs.UnitCycle
import SyncGrammar.Proofs.WayDown
import SyncGrammar.Proofs.Derives
import SyncGrammar.Proofs.Termination
import SyncGrammar.Proofs.Translation
import SyncGrammar.Proofs.Fixpoint
import SyncGrammar.Proofs.Timely
import SyncGrammar.Proofs.Brackets
import SyncGrammar.Proofs.Apart
import SyncGrammar.Proofs.Exact
import SyncGrammar.Proofs.Resolution
import SyncGrammar.Proofs.RoundTrip
import SyncGrammar.Proofs.Grafting
import SyncGrammar.Proofs.BoundTokens
import SyncGrammar.Proofs.Matching
import SyncGrammar.Proofs.Unbound
import SyncGrammar.Proofs.RuleTable
import SyncGrammar.Proofs.Building
import SyncGrammar.Proofs.ByteOrder
import SyncGrammar.Proofs.BuildHistory
import SyncGrammar.Proofs.LineForms
import SyncGrammar.Proofs.Writing
import SyncGrammar.Proofs.Rereading
import SyncGrammar.Proofs.Layout
import SyncGrammar.Proofs.InOrder
import SyncGrammar.Proofs.Agreement
import SyncGrammar.Proofs.Duality
import SyncGrammar.Proofs.Pieces
import SyncGrammar.Proofs.Soundness
import SyncGrammar.Proofs.Passage
import SyncGrammar.Proofs.Splicing
import SyncGrammar.Proofs.FaithfulEngine
import SyncGrammar.Proofs.Containment
import SyncGrammar.Proofs.GreedyEngine
import SyncGrammar.Proofs.Sources
import SyncGrammar.Proofs.Renaming
import SyncGrammar.Proofs.Reindexing
import SyncGrammar.Proofs.GreedyRuns
import SyncGrammar.Proofs.Lossless
import SyncGrammar.Proofs.QueueOrder
import SyncGrammar.Proofs.Precompiled
import SyncGrammar.Proofs.Literal
import SyncGrammar.Proofs.AllBound
import SyncGrammar.Proofs.Places
import SyncGrammar.Proofs.Overwriting
import SyncGrammar.Proofs.Ownership
import SyncGrammar.Proofs.Remembering
import SyncGrammar.Proofs.Combinations
import SyncGrammar.Proofs.Nesting
import SyncGrammar.Proofs.Caching
import SyncGrammar.Proofs.Sections
import SyncGrammar.Proofs.MaximalMunch
import SyncGrammar.Proofs.Pairing
import SyncGrammar.Proofs.WorklistHistory
import SyncGrammar.Proofs.BindingHistory
