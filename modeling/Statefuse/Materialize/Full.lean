import Statefuse.Foundation.Outcome
import Statefuse.Materialize.State

/-!
# Full materialization

One pass over the log in the order of operation ids collects the records; the
rest of the state is computed from them.
-/

namespace Statefuse

open Foundation

variable [Runtime]

/-- What the pass over the log collects. -/
structure Collected extends Records where
  claimRefsById : Dict String String
  claimIdsByRef : Dict String (PySet String)
  retractionsByTarget : Dict String (List ClaimRetracted)
  retractionsByTargetRef : Dict String (List ClaimRetracted)
  retractionsBySuperseder : Dict String (List ClaimRetracted)
  retractionsBySupersederRef : Dict String (List ClaimRetracted)

namespace Collected

def empty : Collected := ⟨⟨∅, ∅, ∅, ∅, ∅, ∅, ∅⟩, ∅, ∅, ∅, ∅, ∅, ∅⟩

end Collected

/-- Bind a record to its identifier, unless the identifier has another record. -/
def bindRecord {α : Type} [PyEq α] (records : Dict String α) (recordId : String) (record : α)
    (identifierName : String) : Result (Dict String α) :=
  match records[recordId]? with
  | some existing =>
      if pyEq existing record then .ok (records.insert recordId record)
      else valueError (identifierName ++ " collision with different payload: " ++ recordId)
  | none => .ok (records.insert recordId record)

/-- Add a retraction to the list of a target that is there and not empty. -/
def appendRetraction (retractions : Dict String (List ClaimRetracted)) (target : Option String)
    (retraction : ClaimRetracted) : Dict String (List ClaimRetracted) :=
  match truthy target with
  | none => retractions
  | some target => appendTo retractions target retraction

/-- One operation of the pass. -/
def collectStep (registry : PredicateRegistry) (collected : Collected) (op : Op) :
    Result Collected :=
  match op with
  | .sourceAdded _ source => do
      let sourcesById ← bindRecord collected.sourcesById source.sourceId source "source_id"
      return { collected with sourcesById := sourcesById }
  | .evidenceAdded _ evidence => do
      let evidenceById ←
        bindRecord collected.evidenceById evidence.evidenceId evidence "evidence_id"
      return { collected with evidenceById := evidenceById }
  | .claimAdded _ claim => do
      let claimsById ← bindRecord collected.claimsById claim.claimId claim "claim_id"
      let claimRef := registry.claimRefForClaim claim
      return { collected with
        claimsById := claimsById
        claimRefsById := collected.claimRefsById.insert claim.claimId claimRef
        claimIdsByRef := addTo collected.claimIdsByRef claimRef claim.claimId }
  | .claimRetracted retraction =>
      .ok { collected with
        retractionsByTarget :=
          appendRetraction collected.retractionsByTarget retraction.targetClaimId retraction
        retractionsByTargetRef :=
          appendRetraction collected.retractionsByTargetRef retraction.targetClaimRef retraction
        retractionsBySuperseder :=
          appendRetraction collected.retractionsBySuperseder retraction.supersedesClaimId retraction
        retractionsBySupersederRef :=
          appendRetraction collected.retractionsBySupersederRef retraction.supersedesClaimRef
            retraction }
  | .decisionAdded _ decision => do
      let decisionsById ←
        bindRecord collected.decisionsById decision.decisionId decision "decision_id"
      return { collected with decisionsById := decisionsById }
  | .derivationAdded _ derivation => do
      let derivationsById ← bindRecord collected.derivationsById derivation.derivationId derivation
        "derivation_id"
      return { collected with derivationsById := derivationsById }
  | .resolutionAdded _ resolution => do
      let resolutionsById ← bindRecord collected.resolutionsById resolution.resolutionId resolution
        "resolution_id"
      return { collected with resolutionsById := resolutionsById }
  | .conflictLifecycleEventAdded _ event => do
      let lifecycleEventsById ←
        bindRecord collected.lifecycleEventsById event.eventId event "event_id"
      return { collected with lifecycleEventsById := lifecycleEventsById }

/-- Retracted by id, or by a reference that the claim has. -/
def inactiveIds (collected : Collected) : PySet String :=
  collected.retractionsByTargetRef.keys.foldl
    (fun inactive claimRef => (collected.claimIdsByRef[claimRef]?.getD ∅).toList.foldl
      (fun inactive claimId => inactive.insert claimId) inactive)
    (Std.ExtTreeSet.ofList collected.retractionsByTarget.keys compare)

/-- The active claims, and the ids of those that do not apply. -/
def partitionClaims (collected : Collected) (inactive : PySet String) (validAt : Option String)
    (context : JSONObject) : Result (List Claim × PySet String) :=
  (Dict.values collected.claimsById).foldlM (fun (state : List Claim × PySet String) claim =>
    if claim.claimId ∈ inactive then return state
    else do
      let applies ← claimApplies claim validAt context
      if applies then return (state.1 ++ [claim], state.2)
      else return (state.1, state.2.insert claim.claimId)) ([], ∅)

/-- The conflicts under the keys they touch. -/
def groupConflictsByKey (conflicts : List ConflictSet) : Dict ClaimKey (List ConflictSet) :=
  sortGroups (·.conflictId) (conflicts.foldl (fun groups conflict =>
    conflict.keys.foldl (fun groups key => appendTo groups key conflict) groups) ∅)

/-- The conflicts of the direct detector under their keys. -/
def directConflictsByKey (conflicts : List ConflictSet) : Dict ClaimKey ConflictSet :=
  Dict.ofItems (·.key) (conflicts.filter fun conflict =>
    conflict.conflictType = directConflictType ∧ isDirectFor conflict.key conflict)

/-- The index of every key with active claims. -/
def buildIndexes (activeClaimsByKey : Dict ClaimKey (List Claim)) (registry : PredicateRegistry)
    (direct : Dict ClaimKey ConflictSet) : Result (Dict ClaimKey DirectConflictIndex) :=
  activeClaimsByKey.toList.foldlM (fun (indexes : Dict ClaimKey DirectConflictIndex) entry => do
    let index ← buildDirectConflictIndex entry.2 registry direct[entry.1]?
    return indexes.insert entry.1 index) ∅

/-- What the detectors see. -/
def detectionContext (registry : PredicateRegistry) (activeClaimsByKey : Dict ClaimKey (List Claim))
    (evidenceById : Dict String Evidence) (sourcesById : Dict String Source)
    (derivationsById : Dict String Derivation) (activeDecisions : List Decision) :
    ConflictDetectionContext where
  activeClaimsByKey := activeClaimsByKey
  claimsById := Dict.ofItems Claim.claimId (Dict.values activeClaimsByKey).flatten
  evidenceById := evidenceById
  sourcesById := sourcesById
  derivationsById := derivationsById
  activeDecisions := activeDecisions
  predicateRegistry := registry

/-- The state of the collected records, once everything that can fail is computed. -/
def Collected.state (collected : Collected) (registry : PredicateRegistry)
    (activeClaimsByKey : Dict ClaimKey (List Claim)) (inapplicable : PySet String)
    (activeDecisions : List Decision) (conflicts : List ConflictSet)
    (indexes : Dict ClaimKey DirectConflictIndex) (lifecycle : LifecycleFold) : MemoryState where
  evidenceById := collected.evidenceById
  activeClaimsByKey := activeClaimsByKey
  activeDecisions := activeDecisions
  conflicts := conflicts
  claimsById := collected.claimsById
  claimRefsById := collected.claimRefsById
  claimIdsByRef := listed collected.claimIdsByRef
  retractionsByTarget := sortGroups ClaimRetracted.order collected.retractionsByTarget
  retractionsByTargetRef := sortGroups ClaimRetracted.order collected.retractionsByTargetRef
  retractionsBySuperseder := sortGroups ClaimRetracted.order collected.retractionsBySuperseder
  retractionsBySupersederRef :=
    sortGroups ClaimRetracted.order collected.retractionsBySupersederRef
  inactiveClaimIds := inactiveIds collected
  sourcesById := collected.sourcesById
  derivationsById := collected.derivationsById
  resolutionsById := collected.resolutionsById
  lifecycleEventsById := collected.lifecycleEventsById
  resolutionsByConflictRef := (groupResolutionHistory collected.resolutionsById).1
  resolutionsByConflictRefAndScope := (groupResolutionHistory collected.resolutionsById).2
  lifecycleHistoryByConflictRef := (groupLifecycleHistory collected.lifecycleEventsById).1
  lifecycleHistoryByConflictRefAndScope := (groupLifecycleHistory collected.lifecycleEventsById).2
  effectiveResolutionsByConflictRefAndScope := lifecycle.effective
  activeResolutionsByConflictRefAndScope := lifecycle.active
  lifecycleStatusByConflictRefAndScope := lifecycle.statuses
  conflictsById := Dict.ofItems (·.conflictId) conflicts
  conflictsByRef := Dict.ofItems (·.conflictRef) conflicts
  conflictsByKey := groupConflictsByKey conflicts
  inapplicableClaimIds := inapplicable
  claimIdsByEvidenceId := claimIdsByEvidenceIdOf (Dict.values collected.claimsById)
  claimIdsByDerivationId := claimIdsByDerivationIdOf (Dict.values collected.claimsById)
  evidenceIdsBySourceId := evidenceIdsBySourceIdOf (Dict.values collected.evidenceById)
  resolutionIdsByClaimId := resolutionIdsByClaimIdOf (Dict.values collected.resolutionsById)
  directConflictIndexes := indexes
  predicateRegistry := registry

/-- A given instant has to be a timestamp, even when no claim is compared with it. -/
def checkInstant (validAt : Option String) : Result Unit :=
  match validAt with
  | none => .ok ()
  | some text => (parseUtcIso text).map fun _ => ()

/-- `materialize`.  An empty context is no context. -/
def materialize (log : OpLog) (registry : PredicateRegistry) (detectors : List ConflictDetector)
    (validAt : Option String) (context : JSONObject) : Result MemoryState := do
  checkInstant validAt
  let collected ← log.iterOps.foldlM (collectStep registry) .empty
  let active ← partitionClaims collected (inactiveIds collected) validAt context
  let activeClaimsByKey := sortGroups Claim.claimId (groupBy Claim.key active.1)
  let activeDecisions ← sortDecisions (Dict.values collected.decisionsById)
  let conflicts ← runConflictDetectors
    (detectionContext registry activeClaimsByKey collected.evidenceById collected.sourcesById
      collected.derivationsById activeDecisions) detectors
  let indexes ← buildIndexes activeClaimsByKey registry (directConflictsByKey conflicts)
  let lifecycle ← foldLifecycle collected.resolutionsById
    (groupResolutionHistory collected.resolutionsById).2
    (groupLifecycleHistory collected.lifecycleEventsById).2
    (Dict.ofItems (·.conflictRef) conflicts) validAt
  return collected.state registry activeClaimsByKey active.2 activeDecisions conflicts indexes
    lifecycle

/-- What a successful materialization has computed. -/
theorem materialize_ok_iff {log : OpLog} {registry : PredicateRegistry}
    {detectors : List ConflictDetector} {validAt : Option String} {context : JSONObject}
    {state : MemoryState} :
    materialize log registry detectors validAt context = .ok state ↔
      checkInstant validAt = .ok () ∧
      ∃ collected, log.iterOps.foldlM (collectStep registry) .empty = .ok collected ∧
      ∃ active, partitionClaims collected (inactiveIds collected) validAt context = .ok active ∧
      ∃ activeDecisions, sortDecisions (Dict.values collected.decisionsById) =
        .ok activeDecisions ∧
      ∃ conflicts, runConflictDetectors (detectionContext registry
          (sortGroups Claim.claimId (groupBy Claim.key active.1)) collected.evidenceById
          collected.sourcesById collected.derivationsById activeDecisions) detectors =
        .ok conflicts ∧
      ∃ indexes, buildIndexes (sortGroups Claim.claimId (groupBy Claim.key active.1)) registry
        (directConflictsByKey conflicts) = .ok indexes ∧
      ∃ lifecycle, foldLifecycle collected.resolutionsById
        (groupResolutionHistory collected.resolutionsById).2
        (groupLifecycleHistory collected.lifecycleEventsById).2
        (Dict.ofItems (·.conflictRef) conflicts) validAt = .ok lifecycle ∧
      collected.state registry (sortGroups Claim.claimId (groupBy Claim.key active.1)) active.2
        activeDecisions conflicts indexes lifecycle = state := by
  rw [materialize, guard_ok_iff]
  simp only [bind_ok_iff, pure_ok_iff]

end Statefuse
