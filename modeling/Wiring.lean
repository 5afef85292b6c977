import Wiring.Limits
import Wiring.Walk
import Wiring.QName
import Wiring.Identity
import Wiring.QualifierSet
import Wiring.Ty
import Wiring.Ty.Substitution
import Wiring.Ty.Star
import Wiring.Registry
import Wiring.Registry.Hierarchy
import Wiring.Relation.Assignability
import Wiring.Relation.Unification
import Wiring.Relation.Erasure
import Wiring.Ty.Format
import Wiring.Declaration
import Wiring.Options
import Wiring.Diagnostic.Message
import Wiring.Json
import Wiring.Json.Printer
import Wiring.Diagnostic
import Wiring.Request
import Wiring.ResolutionError
import Wiring.Expansion
import Wiring.Catalog
import Wiring.Candidate
import Wiring.Candidate.Matching
import Wiring.Scope
import Wiring.Scope.Ancestry
import Wiring.Scope.Candidates
import Wiring.Collection
import Wiring.Collection.Memo
import Wiring.Selection
import Wiring.Plan
import Wiring.Plan.StarMerge
import Wiring.Graph
import Wiring.Graph.Search
import Wiring.Graph.Construction
import Wiring.Graph.Resolution
import Wiring.Execution.Value
import Wiring.Execution.Error
import Wiring.Execution.Slot
import Wiring.Execution.Host
import Wiring.Execution.Interpreter
import Wiring.Execution.Rehearsal
import Wiring.Plan.Export
import Wiring.Text.Words
import Wiring.Text.Shapeless
import Wiring.Text.Quoted
import Wiring.Json.Reader
import Wiring.Settings
import Wiring.Settings.Path
import Wiring.Settings.Inheritance
import Wiring.LogFormat
import Wiring.Proofs.Cycle
import Wiring.Proofs.Ownership
import Wiring.Proofs.Typing
import Wiring.Proofs.Batched
import Wiring.Proofs.Calling
import Wiring.Proofs.History
import Wiring.Proofs.Retention
import Wiring.Proofs.Atomicity
import Wiring.Proofs.Merging.Cycles
import Wiring.Proofs.Merging.Slots
import Wiring.Proofs.Completion
import Wiring.Proofs.Deferral
import Wiring.Proofs.Hierarchy
import Wiring.Proofs.Filing
import Wiring.Proofs.Merging.Delegates
import Wiring.Proofs.Collecting
import Wiring.Proofs.Pinning
import Wiring.Proofs.Integrity
import Wiring.Proofs.Bounds
import Wiring.Proofs.Caching
import Wiring.Proofs.Assignability
import Wiring.Proofs.Unification
import Wiring.Proofs.Instances
import Wiring.Proofs.Interception
import Wiring.Proofs.Overriding
import Wiring.Proofs.Inclusion
import Wiring.Proofs.Inheritance
import Wiring.Proofs.Wrapping
import Wiring.Proofs.Merging.Repetition
import Wiring.Proofs.Hierarchy.Agreement
import Wiring.Proofs.Caching.Provenance
import Wiring.Proofs.Assistance
import Wiring.Proofs.Collecting.Keys
import Wiring.Proofs.Entries
import Wiring.Proofs.Merging.Chains
import Wiring.Proofs.Templates
import Wiring.Proofs.Readability
import Wiring.Proofs.Extending
import Wiring.Proofs.Composition
import Wiring.Proofs.Balance
