import Statefuse.Materialize.Full
import Statefuse.View.Build

/-!
# Compaction

A log is compacted to the operations that its current state needs: the active claims with the
evidence they name, every retraction that names a target, and all that is not a claim, evidence
or a retraction.  What the compaction reports about itself it finds out by materializing and
viewing both logs.
-/

namespace Statefuse

open Foundation

variable [Runtime]

/-- The identifiers that the operations of a compacted log are chosen by. -/
structure CompactionNeeds where
  activeClaimIds : PySet String
  activeDecisionIds : PySet String
  evidenceIds : PySet String
  retractionOpIds : PySet String

namespace CompactionNeeds

/-- The retractions of a state that name a target. -/
def retractionsOf (state : MemoryState) : List ClaimRetracted :=
  (Dict.values state.retractionsByTarget).flatten ++
    (Dict.values state.retractionsByTargetRef).flatten

/-- Every evidence id that an active claim, a retraction or a resolution names. -/
def evidenceIdsOf (state : MemoryState) : List String :=
  (Dict.values state.activeClaimsByKey).flatten.flatMap Claim.evidenceIds ++
    (retractionsOf state).flatMap (·.evidenceIds) ++
    (Dict.values state.resolutionsById).flatMap (·.evidenceIds)

def ofState (state : MemoryState) : CompactionNeeds where
  activeClaimIds := Std.ExtTreeSet.ofList
    ((Dict.values state.activeClaimsByKey).flatten.map Claim.claimId) compare
  activeDecisionIds := Std.ExtTreeSet.ofList (state.activeDecisions.map (·.decisionId)) compare
  evidenceIds := Std.ExtTreeSet.ofList (evidenceIdsOf state) compare
  retractionOpIds := Std.ExtTreeSet.ofList ((retractionsOf state).map (·.opId)) compare

/-- Whether an operation is kept.  What custom detectors read is not known, so they keep all
evidence. -/
def keeps (needs : CompactionNeeds) (detectors : List ConflictDetector) : Op → Bool
  | .evidenceAdded _ evidence => detectors ≠ [] ∨ evidence.evidenceId ∈ needs.evidenceIds
  | .claimAdded _ claim => claim.claimId ∈ needs.activeClaimIds
  | .claimRetracted retraction => retraction.opId ∈ needs.retractionOpIds
  | .decisionAdded _ decision => decision.decisionId ∈ needs.activeDecisionIds
  | _ => true

end CompactionNeeds

/-- `_projection_signature`: the choices of a view, by the labels of the keys. -/
structure ProjectionSignature where
  selected : List (String × String)
  provisional : List (String × String)
  compatible : List (String × List String)
  unresolved : List String
  surfaced : List String
  explanations : List (String × String)
  deriving DecidableEq

/-- The signature of a view that is computed. -/
def Projection.signature (projection : Projection) : ProjectionSignature where
  selected := projection.selectedClaims.toList.map fun entry =>
    (keyLabel entry.1, entry.2.claimId)
  provisional := projection.provisionalClaims.toList.map fun entry =>
    (keyLabel entry.1, entry.2.claimId)
  compatible := projection.compatibleClaims.toList.map fun entry =>
    (keyLabel entry.1, entry.2.map Claim.claimId)
  unresolved := projection.unresolvedConflicts.map (·.conflictId)
  surfaced := projection.surfacedFindings.keys
  explanations := projection.explanations.toList

def projectionSignature (log : OpLog) (registry : PredicateRegistry)
    (constraints : ViewConstraints) (resolver : Option Resolver)
    (detectors : List ConflictDetector) : Result ProjectionSignature := do
  let state ← materialize log registry detectors constraints.validAt constraints.context
  let projection ← buildView state constraints resolver
  return projection.signature

structure CompactionReport where
  compacted : OpLog
  originalOps : Nat
  compactedOps : Nat
  activeClaimsEquivalent : Bool
  conflictsEquivalent : Bool
  projectionsEquivalent : Bool

def CompactionReport.droppedOps (report : CompactionReport) : Int :=
  (report.originalOps : Int) - report.compactedOps

/-- The `==` of lists. -/
def sameItems {α : Type} [PyEq α] (first second : List α) : Bool :=
  first.length = second.length ∧ (first.zip second).all fun pair => pyEq pair.1 pair.2

/-- The `==` of the tables of active claims. -/
def sameActiveClaims (first second : Dict ClaimKey (List Claim)) : Bool :=
  first.keys = second.keys ∧
    first.keys.all fun key => sameItems (first[key]?.getD []) (second[key]?.getD [])

/-- The scope of a compaction that is given no constraints. -/
def compactionScope : String := "projection-equivalent-compaction"

/-- `compact_projection_equivalent_with_report`. -/
def compactWithReport (log : OpLog) (registry : PredicateRegistry)
    (constraints : Option ViewConstraints) (resolver : Option Resolver)
    (detectors : List ConflictDetector) : Result CompactionReport := do
  let constraints := constraints.getD (.ofScope (some compactionScope))
  let state ← materialize log registry detectors none ∅
  let needs := CompactionNeeds.ofState state
  let compacted ← OpLog.ofOps (log.iterOps.filter (needs.keeps detectors))
  let originalState ← materialize log registry detectors none ∅
  let compactedState ← materialize compacted registry detectors none ∅
  let originalProjection ← projectionSignature log registry constraints resolver detectors
  let compactedProjection ← projectionSignature compacted registry constraints resolver detectors
  return {
    compacted := compacted
    originalOps := log.iterOps.length
    compactedOps := compacted.iterOps.length
    activeClaimsEquivalent :=
      sameActiveClaims originalState.activeClaimsByKey compactedState.activeClaimsByKey
    conflictsEquivalent := sameItems originalState.conflicts compactedState.conflicts
    projectionsEquivalent := originalProjection = compactedProjection }

/-- `compact_oplog`. -/
def compactOplog (log : OpLog) (registry : PredicateRegistry) (detectors : List ConflictDetector) :
    Result OpLog :=
  (compactWithReport log registry none none detectors).map (·.compacted)

end Statefuse
