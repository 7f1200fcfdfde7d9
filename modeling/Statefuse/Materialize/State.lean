import Statefuse.Materialize.Lifecycle

/-!
# Materialized state

The state a log amounts to: the records by id, the active claims by key, the
conflicts, the lifecycle of their resolutions, and the reverse indexes from which
an incremental step reads what a new record affects.
-/

namespace Statefuse

open Foundation

variable [Runtime]

structure MemoryState where
  evidenceById : Dict String Evidence
  activeClaimsByKey : Dict ClaimKey (List Claim)
  activeDecisions : List Decision
  conflicts : List ConflictSet
  claimsById : Dict String Claim
  claimRefsById : Dict String String
  claimIdsByRef : Dict String (List String)
  retractionsByTarget : Dict String (List ClaimRetracted)
  retractionsByTargetRef : Dict String (List ClaimRetracted)
  retractionsBySuperseder : Dict String (List ClaimRetracted)
  retractionsBySupersederRef : Dict String (List ClaimRetracted)
  inactiveClaimIds : PySet String
  sourcesById : Dict String Source
  derivationsById : Dict String Derivation
  resolutionsById : Dict String ResolutionRecord
  lifecycleEventsById : Dict String ConflictLifecycleEvent
  resolutionsByConflictRef : Dict String (List ResolutionRecord)
  resolutionsByConflictRefAndScope : Dict Lane (List ResolutionRecord)
  lifecycleHistoryByConflictRef : Dict String (List ConflictLifecycleEvent)
  lifecycleHistoryByConflictRefAndScope : Dict Lane (List ConflictLifecycleEvent)
  effectiveResolutionsByConflictRefAndScope : Dict Lane ResolutionRecord
  activeResolutionsByConflictRefAndScope : Dict Lane ResolutionRecord
  lifecycleStatusByConflictRefAndScope : Dict Lane LifecycleStatus
  conflictsById : Dict String ConflictSet
  conflictsByRef : Dict String ConflictSet
  conflictsByKey : Dict ClaimKey (List ConflictSet)
  inapplicableClaimIds : PySet String
  claimIdsByEvidenceId : Dict String (List String)
  claimIdsByDerivationId : Dict String (List String)
  evidenceIdsBySourceId : Dict String (List String)
  resolutionIdsByClaimId : Dict String (List String)
  directConflictIndexes : Dict ClaimKey DirectConflictIndex
  predicateRegistry : PredicateRegistry

/-- The tables of records that both ways of materializing fill. -/
structure Records where
  sourcesById : Dict String Source
  evidenceById : Dict String Evidence
  claimsById : Dict String Claim
  decisionsById : Dict String Decision
  derivationsById : Dict String Derivation
  resolutionsById : Dict String ResolutionRecord
  lifecycleEventsById : Dict String ConflictLifecycleEvent

structure MaterializationDelta where
  processedOpIds : List String
  affectedKeys : List ClaimKey
  affectedNamespaces : List String
  affectedClaimIds : List String
  previousConflictIds : List String
  currentConflictIds : List String
  affectedConflictRefs : List String
  affectedResolutionIds : List String
  cursorBefore : Nat
  cursorAfter : Nat
  fullRebuild : Bool
  conflictComparisons : Nat
  deriving DecidableEq

/-- The delta of no operations. -/
def MaterializationDelta.empty : MaterializationDelta :=
  ⟨[], [], [], [], [], [], [], [], 0, 0, false, 0⟩

/-- The seconds a decision is sorted by; no timestamp comes before every one. -/
def decisionTime (decision : Decision) : Result (WithBot ℚ) :=
  if decision.timestamp = "" then .ok ⊥
  else (parseUtcIso decision.timestamp).map fun instant => ((timestampOf instant : ℚ) : WithBot ℚ)

/-- Decisions ordered by time, then by id. -/
def sortDecisions (decisions : List Decision) : Result (List Decision) := do
  let timed ← decisions.mapM fun decision => do
    let time ← decisionTime decision
    return (time, decision)
  return (sortBy (fun entry : WithBot ℚ × Decision => toLex (entry.1, entry.2.decisionId))
    timed).map Prod.snd

/-- Retractions are ordered by the text of their timestamp, then by operation id. -/
def ClaimRetracted.order (retraction : ClaimRetracted) : String ×ₗ String :=
  toLex (retraction.timestamp, retraction.opId)

/-- The conflict that a key has of its own, among the conflicts that touch it. -/
def isDirectFor (key : ClaimKey) (conflict : ConflictSet) : Bool :=
  conflict.detectorId = "direct" ∧ conflict.keys = [key]

/-- Every claim id a resolution names, in the order of its fields. -/
def ResolutionRecord.claimIds (resolution : ResolutionRecord) : List String :=
  resolution.selectedClaimIds ++ resolution.rejectedClaimIds ++ resolution.retainedClaimIds

def claimIdsByEvidenceIdOf (claims : List Claim) : Dict String (List String) :=
  listed (reverseIndex Claim.evidenceIds Claim.claimId claims)

def claimIdsByDerivationIdOf (claims : List Claim) : Dict String (List String) :=
  listed (reverseIndex (fun claim => claim.derivationId.toList) Claim.claimId claims)

def evidenceIdsBySourceIdOf (evidence : List Evidence) : Dict String (List String) :=
  listed (reverseIndex (fun item => item.sourceId.toList) Evidence.evidenceId evidence)

def resolutionIdsByClaimIdOf (resolutions : List ResolutionRecord) : Dict String (List String) :=
  listed (reverseIndex ResolutionRecord.claimIds (fun item => item.resolutionId) resolutions)

end Statefuse
