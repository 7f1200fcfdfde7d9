import Statefuse.Materialize.Full

/-!
# Incremental materialization

An incremental step takes a canonical state and unseen operations.  The first loop
enters the operations one by one into working copies of the tables and marks the
claim keys, claims, conflict references and resolutions they may affect.  The
second loop updates the index and the conflict of every affected key; the third
replaces the lifecycle of every affected conflict reference.
-/

namespace Statefuse

open Foundation

variable [Runtime]

/-- The working copies of the first loop, and what has been marked. -/
structure Working extends Records where
  claimRefsById : Dict String String
  claimIdsByRef : Dict String (PySet String)
  retractionsByTarget : Dict String (List ClaimRetracted)
  retractionsByTargetRef : Dict String (List ClaimRetracted)
  retractionsBySuperseder : Dict String (List ClaimRetracted)
  retractionsBySupersederRef : Dict String (List ClaimRetracted)
  inactiveClaimIds : PySet String
  inapplicableClaimIds : PySet String
  activeClaimsByKey : Dict ClaimKey (List Claim)
  resolutionsByRef : Dict String (List ResolutionRecord)
  resolutionsByLane : Dict Lane (List ResolutionRecord)
  lifecycleByRef : Dict String (List ConflictLifecycleEvent)
  lifecycleByLane : Dict Lane (List ConflictLifecycleEvent)
  claimIdsByEvidenceId : Dict String (PySet String)
  claimIdsByDerivationId : Dict String (PySet String)
  evidenceIdsBySourceId : Dict String (PySet String)
  resolutionIdsByClaimId : Dict String (PySet String)
  affectedKeys : PySet ClaimKey
  affectedClaimIds : PySet String
  affectedConflictRefs : PySet String
  affectedResolutionIds : PySet String

namespace Working

/-- The working copies of a state. -/
def ofState (state : MemoryState) : Working where
  sourcesById := state.sourcesById
  evidenceById := state.evidenceById
  claimsById := state.claimsById
  claimRefsById := state.claimRefsById
  claimIdsByRef := unlisted state.claimIdsByRef
  decisionsById := Dict.ofItems (·.decisionId) state.activeDecisions
  derivationsById := state.derivationsById
  resolutionsById := state.resolutionsById
  lifecycleEventsById := state.lifecycleEventsById
  retractionsByTarget := state.retractionsByTarget
  retractionsByTargetRef := state.retractionsByTargetRef
  retractionsBySuperseder := state.retractionsBySuperseder
  retractionsBySupersederRef := state.retractionsBySupersederRef
  inactiveClaimIds := state.inactiveClaimIds
  inapplicableClaimIds := state.inapplicableClaimIds
  activeClaimsByKey := state.activeClaimsByKey
  resolutionsByRef := state.resolutionsByConflictRef
  resolutionsByLane := state.resolutionsByConflictRefAndScope
  lifecycleByRef := state.lifecycleHistoryByConflictRef
  lifecycleByLane := state.lifecycleHistoryByConflictRefAndScope
  claimIdsByEvidenceId := unlisted state.claimIdsByEvidenceId
  claimIdsByDerivationId := unlisted state.claimIdsByDerivationId
  evidenceIdsBySourceId := unlisted state.evidenceIdsBySourceId
  resolutionIdsByClaimId := unlisted state.resolutionIdsByClaimId
  affectedKeys := ∅
  affectedClaimIds := ∅
  affectedConflictRefs := ∅
  affectedResolutionIds := ∅

/-- Mark the keys of known claims. -/
def markClaimKeys (working : Working) (claimIds : List String) : Working :=
  { working with
    affectedKeys := claimIds.foldl (fun keys claimId =>
      match working.claimsById[claimId]? with
      | none => keys
      | some claim => keys.insert claim.key) working.affectedKeys }

end Working

/-- Bind a record to its identifier once; the flag says whether it is new. -/
def insertImmutable {α : Type} [PyEq α] (mapping : Dict String α) (key : String) (value : α)
    (identifierName : String) : Result (Dict String α × Bool) :=
  match mapping[key]? with
  | none => .ok (mapping.insert key value, true)
  | some existing =>
      if pyEq existing value then .ok (mapping, false)
      else valueError (identifierName ++ " collision with different payload: " ++ key)

/-- Add a retraction to a list of retractions of a target, unless its operation is
already in it. -/
def appendSortedRetraction (retractions : Dict String (List ClaimRetracted))
    (target : Option String) (op : ClaimRetracted) : Dict String (List ClaimRetracted) :=
  match truthy target with
  | none => retractions
  | some key =>
      let items := retractions[key]?.getD []
      if items.any (fun item => item.opId == op.opId) then retractions.insert key items
      else insertSorted ClaimRetracted.order retractions key op

/-- Add several elements to a set. -/
def addAll {α : Type} [LinearOrder α] (set : PySet α) (items : List α) : PySet α :=
  items.foldl (fun set item => set.insert item) set

namespace Working

def applySource (working : Working) (source : Source) : Result Working := do
  let (sourcesById, inserted) ←
    insertImmutable working.sourcesById source.sourceId source "source_id"
  let working := { working with sourcesById := sourcesById }
  if inserted then
    return (working.evidenceIdsBySourceId[source.sourceId]?.getD ∅).toList.foldl
      (fun working evidenceId =>
        working.markClaimKeys (working.claimIdsByEvidenceId[evidenceId]?.getD ∅).toList) working
  else return working

def applyEvidence (working : Working) (evidence : Evidence) : Result Working := do
  let (evidenceById, inserted) ←
    insertImmutable working.evidenceById evidence.evidenceId evidence "evidence_id"
  let working := { working with evidenceById := evidenceById }
  if inserted then
    let working := { working with
      evidenceIdsBySourceId :=
        addUnder working.evidenceIdsBySourceId evidence.sourceId.toList evidence.evidenceId }
    return working.markClaimKeys
      (working.claimIdsByEvidenceId[evidence.evidenceId]?.getD ∅).toList
  else return working

def applyClaim (registry : PredicateRegistry) (working : Working) (claim : Claim) :
    Result Working := do
  let (claimsById, inserted) ← insertImmutable working.claimsById claim.claimId claim "claim_id"
  if inserted then
    let claimRef := registry.claimRefForClaim claim
    let retracted := working.retractionsByTarget.contains claim.claimId ||
      working.retractionsByTargetRef.contains claimRef
    return { working with
      claimsById := claimsById
      claimRefsById := working.claimRefsById.insert claim.claimId claimRef
      claimIdsByRef := addTo working.claimIdsByRef claimRef claim.claimId
      claimIdsByEvidenceId :=
        addUnder working.claimIdsByEvidenceId claim.evidenceIds claim.claimId
      claimIdsByDerivationId :=
        addUnder working.claimIdsByDerivationId claim.derivationId.toList claim.claimId
      affectedKeys := working.affectedKeys.insert claim.key
      affectedClaimIds := working.affectedClaimIds.insert claim.claimId
      affectedResolutionIds := addAll working.affectedResolutionIds
        (working.resolutionIdsByClaimId[claim.claimId]?.getD ∅).toList
      inactiveClaimIds :=
        if retracted then working.inactiveClaimIds.insert claim.claimId
        else working.inactiveClaimIds
      activeClaimsByKey :=
        if retracted then working.activeClaimsByKey
        else working.activeClaimsByKey.insert claim.key
          (working.activeClaimsByKey[claim.key]?.getD [] ++ [claim]) }
  else return { working with claimsById := claimsById }

/-- Deactivate a claim that is known. -/
def deactivate (working : Working) (claimId : String) : Working :=
  match working.claimsById[claimId]? with
  | none => working
  | some claim =>
      { working with
        inactiveClaimIds := working.inactiveClaimIds.insert claimId
        inapplicableClaimIds := working.inapplicableClaimIds.erase claimId
        affectedKeys := working.affectedKeys.insert claim.key
        affectedClaimIds := working.affectedClaimIds.insert claimId
        activeClaimsByKey := working.activeClaimsByKey.insert claim.key
          ((working.activeClaimsByKey[claim.key]?.getD []).filter
            (fun item => item.claimId ≠ claimId)) }

/-- The claims a retraction is about, known or not. -/
def retractionTargets (working : Working) (op : ClaimRetracted) : PySet String :=
  let byRef :=
    match truthy op.targetClaimRef with
    | none => ∅
    | some claimRef => working.claimIdsByRef[claimRef]?.getD ∅
  match truthy op.targetClaimId with
  | none => byRef
  | some claimId => byRef.insert claimId

/-- The tables with a retraction, before anything is deactivated. -/
def recordRetraction (working : Working) (op : ClaimRetracted) : Working :=
  { working with
    retractionsByTarget := appendSortedRetraction working.retractionsByTarget op.targetClaimId op
    retractionsByTargetRef :=
      appendSortedRetraction working.retractionsByTargetRef op.targetClaimRef op
    retractionsBySuperseder :=
      appendSortedRetraction working.retractionsBySuperseder op.supersedesClaimId op
    retractionsBySupersederRef :=
      appendSortedRetraction working.retractionsBySupersederRef op.supersedesClaimRef op
    inactiveClaimIds :=
      match truthy op.targetClaimId with
      | none => working.inactiveClaimIds
      | some claimId => working.inactiveClaimIds.insert claimId
    affectedClaimIds :=
      match truthy op.targetClaimId with
      | none => working.affectedClaimIds
      | some claimId => working.affectedClaimIds.insert claimId }

def applyRetraction (working : Working) (op : ClaimRetracted) : Working :=
  let working := working.recordRetraction op
  (working.retractionTargets op).toList.foldl deactivate working

def applyDecision (working : Working) (decision : Decision) : Result Working := do
  let (decisionsById, _) ←
    insertImmutable working.decisionsById decision.decisionId decision "decision_id"
  return { working with decisionsById := decisionsById }

def applyDerivation (working : Working) (derivation : Derivation) : Result Working := do
  let (derivationsById, inserted) ← insertImmutable working.derivationsById
    derivation.derivationId derivation "derivation_id"
  let working := { working with derivationsById := derivationsById }
  if inserted then
    return working.markClaimKeys
      (working.claimIdsByDerivationId[derivation.derivationId]?.getD ∅).toList
  else return working

def applyResolution (working : Working) (resolution : ResolutionRecord) : Result Working := do
  let (resolutionsById, inserted) ← insertImmutable working.resolutionsById
    resolution.resolutionId resolution "resolution_id"
  if inserted then
    return { working with
      resolutionsById := resolutionsById
      affectedConflictRefs := working.affectedConflictRefs.insert resolution.conflictRef
      affectedResolutionIds := working.affectedResolutionIds.insert resolution.resolutionId
      resolutionIdsByClaimId :=
        addUnder working.resolutionIdsByClaimId resolution.claimIds resolution.resolutionId
      resolutionsByRef := insertSorted ResolutionRecord.order working.resolutionsByRef
        resolution.conflictRef resolution
      resolutionsByLane := insertSorted ResolutionRecord.order working.resolutionsByLane
        resolution.lane resolution }
  else return { working with resolutionsById := resolutionsById }

def applyEvent (working : Working) (event : ConflictLifecycleEvent) : Result Working := do
  let (lifecycleEventsById, inserted) ← insertImmutable working.lifecycleEventsById
    event.eventId event "event_id"
  if inserted then
    return { working with
      lifecycleEventsById := lifecycleEventsById
      affectedConflictRefs := working.affectedConflictRefs.insert event.conflictRef
      lifecycleByRef := insertSorted ConflictLifecycleEvent.order working.lifecycleByRef
        event.conflictRef event
      lifecycleByLane := insertSorted ConflictLifecycleEvent.order working.lifecycleByLane
        event.lane event }
  else return { working with lifecycleEventsById := lifecycleEventsById }

/-- One operation of the first loop. -/
def applyOp (registry : PredicateRegistry) (working : Working) (op : Op) : Result Working :=
  match op with
  | .sourceAdded _ source => working.applySource source
  | .evidenceAdded _ evidence => working.applyEvidence evidence
  | .claimAdded _ claim => applyClaim registry working claim
  | .claimRetracted retraction => .ok (working.applyRetraction retraction)
  | .decisionAdded _ decision => working.applyDecision decision
  | .derivationAdded _ derivation => working.applyDerivation derivation
  | .resolutionAdded _ resolution => working.applyResolution resolution
  | .conflictLifecycleEventAdded _ event => working.applyEvent event

/-- Sort the active claims of every key and drop the keys without any. -/
def tidyActive (working : Working) : Working :=
  { working with
    activeClaimsByKey :=
      (sortGroups Claim.claimId working.activeClaimsByKey).filter fun _ claims => !claims.isEmpty }

end Working

/-- What the second loop maintains. -/
structure KeyUpdate where
  conflictsById : Dict String ConflictSet
  conflictsByRef : Dict String ConflictSet
  conflictsByKey : Dict ClaimKey (List ConflictSet)
  indexes : Dict ClaimKey DirectConflictIndex
  previousConflictIds : PySet String
  currentConflictIds : PySet String
  affectedClaimIds : PySet String
  affectedConflictRefs : PySet String
  comparisons : Nat

def candidateIds (conflicts : List ConflictSet) : List String :=
  conflicts.flatMap fun conflict => conflict.candidates.map Claim.claimId

/-- The index of a key before the step; a key without one has the index that its claims
and its conflict amount to.  `before` holds the active claims of the state that the step
started from. -/
def previousIndex (before : Dict ClaimKey (List Claim)) (registry : PredicateRegistry)
    (indexes : Dict ClaimKey DirectConflictIndex) (key : ClaimKey) (previous : List ConflictSet) :
    Result DirectConflictIndex :=
  match indexes[key]? with
  | some index => .ok index
  | none => buildDirectConflictIndex (before[key]?.getD []) registry previous.head?

/-- Replace the conflicts and the index of one key. -/
def KeyUpdate.replace (update : KeyUpdate) (key : ClaimKey) (previous current : List ConflictSet)
    (index : DirectConflictIndex) (comparisons : Nat) : KeyUpdate where
  conflictsById := current.foldl
    (fun conflicts conflict => conflicts.insert conflict.conflictId conflict)
    (previous.foldl (fun conflicts conflict => conflicts.erase conflict.conflictId)
      update.conflictsById)
  conflictsByRef := current.foldl
    (fun conflicts conflict => conflicts.insert conflict.conflictRef conflict)
    (previous.foldl (fun conflicts conflict => conflicts.erase conflict.conflictRef)
      update.conflictsByRef)
  conflictsByKey :=
    if current = [] then update.conflictsByKey.erase key
    else update.conflictsByKey.insert key current
  indexes :=
    if index.claimsById.isEmpty then update.indexes.erase key
    else update.indexes.insert key index
  previousConflictIds := addAll update.previousConflictIds (previous.map (·.conflictId))
  currentConflictIds := addAll update.currentConflictIds (current.map (·.conflictId))
  affectedClaimIds :=
    addAll (addAll update.affectedClaimIds (candidateIds previous)) (candidateIds current)
  affectedConflictRefs := addAll update.affectedConflictRefs
    (previous.map (·.conflictRef) ++ current.map (·.conflictRef))
  comparisons := update.comparisons + comparisons

/-- The second loop's round for one affected key. -/
def updateKey (context : ConflictDetectionContext) (before : Dict ClaimKey (List Claim))
    (update : KeyUpdate) (key : ClaimKey) : Result KeyUpdate := do
  let previous := (update.conflictsByKey[key]?.getD []).filter (isDirectFor key)
  let index ← previousIndex before context.predicateRegistry update.indexes key previous
  let updated ← updateDirectConflictIndex index (context.activeClaimsByKey[key]?.getD [])
    context.predicateRegistry
  let current ← conflictFromDirectIndex updated.1 context key
  return update.replace key previous current.toList updated.1 updated.2

/-- `mapping.update(other)`. -/
def updateWith {K V : Type} [LinearOrder K] (mapping other : Dict K V) : Dict K V :=
  other.toList.foldl (fun mapping entry => mapping.insert entry.1 entry.2) mapping

/-- The lanes of other conflict references. -/
def keepOtherRefs {V : Type} (conflictRef : String) (mapping : Dict Lane V) : Dict Lane V :=
  mapping.filter fun lane _ => lane.conflictRef ≠ conflictRef

/-- The conflict of a reference, as the only one. -/
def conflictsOfRef (conflictsByRef : Dict String ConflictSet) (conflictRef : String) :
    Dict String ConflictSet :=
  match conflictsByRef[conflictRef]? with
  | none => ∅
  | some conflict => (∅ : Dict String ConflictSet).insert conflictRef conflict

/-- Replace the lifecycle of the lanes of one conflict reference. -/
def replaceLifecycleFoldForRef (resolutionsById : Dict String ResolutionRecord)
    (resolutionsByRef : Dict String (List ResolutionRecord))
    (lifecycleByRef : Dict String (List ConflictLifecycleEvent))
    (conflictsByRef : Dict String ConflictSet) (fold : LifecycleFold) (conflictRef : String) :
    Result LifecycleFold := do
  let folded ← foldLifecycle resolutionsById
    (groupBy ResolutionRecord.lane (resolutionsByRef[conflictRef]?.getD []))
    (groupBy ConflictLifecycleEvent.lane (lifecycleByRef[conflictRef]?.getD []))
    (conflictsOfRef conflictsByRef conflictRef) none
  return {
    active := updateWith (keepOtherRefs conflictRef fold.active) folded.active
    effective := updateWith (keepOtherRefs conflictRef fold.effective) folded.effective
    statuses := updateWith (keepOtherRefs conflictRef fold.statuses) folded.statuses }

/-- What the second loop starts from. -/
def KeyUpdate.ofState (state : MemoryState) (working : Working) : KeyUpdate where
  conflictsById := state.conflictsById
  conflictsByRef := state.conflictsByRef
  conflictsByKey := state.conflictsByKey
  indexes := state.directConflictIndexes
  previousConflictIds := ∅
  currentConflictIds := ∅
  affectedClaimIds := working.affectedClaimIds
  affectedConflictRefs := working.affectedConflictRefs
  comparisons := 0

namespace Working

/-- What the detectors see after the first loop. -/
def context (working : Working) (registry : PredicateRegistry) (activeDecisions : List Decision) :
    ConflictDetectionContext :=
  detectionContext registry working.activeClaimsByKey working.evidenceById working.sourcesById
    working.derivationsById activeDecisions

/-- The state after all three loops. -/
def state (working : Working) (registry : PredicateRegistry) (activeDecisions : List Decision)
    (update : KeyUpdate) (lifecycle : LifecycleFold) : MemoryState where
  evidenceById := working.evidenceById
  activeClaimsByKey := working.activeClaimsByKey
  activeDecisions := activeDecisions
  conflicts := sortBy (·.conflictId) (Dict.values update.conflictsById)
  claimsById := working.claimsById
  claimRefsById := working.claimRefsById
  claimIdsByRef := listed working.claimIdsByRef
  retractionsByTarget := working.retractionsByTarget
  retractionsByTargetRef := working.retractionsByTargetRef
  retractionsBySuperseder := working.retractionsBySuperseder
  retractionsBySupersederRef := working.retractionsBySupersederRef
  inactiveClaimIds := working.inactiveClaimIds
  sourcesById := working.sourcesById
  derivationsById := working.derivationsById
  resolutionsById := working.resolutionsById
  lifecycleEventsById := working.lifecycleEventsById
  resolutionsByConflictRef := working.resolutionsByRef
  resolutionsByConflictRefAndScope := working.resolutionsByLane
  lifecycleHistoryByConflictRef := working.lifecycleByRef
  lifecycleHistoryByConflictRefAndScope := working.lifecycleByLane
  effectiveResolutionsByConflictRefAndScope := lifecycle.effective
  activeResolutionsByConflictRefAndScope := lifecycle.active
  lifecycleStatusByConflictRefAndScope := lifecycle.statuses
  conflictsById := update.conflictsById
  conflictsByRef := update.conflictsByRef
  conflictsByKey := update.conflictsByKey
  inapplicableClaimIds := working.inapplicableClaimIds
  claimIdsByEvidenceId := listed working.claimIdsByEvidenceId
  claimIdsByDerivationId := listed working.claimIdsByDerivationId
  evidenceIdsBySourceId := listed working.evidenceIdsBySourceId
  resolutionIdsByClaimId := listed working.resolutionIdsByClaimId
  directConflictIndexes := update.indexes
  predicateRegistry := registry

/-- The resolutions that the step may affect. -/
def resolutionIds (working : Working) (affectedRefs : List String) : PySet String :=
  addAll working.affectedResolutionIds (affectedRefs.flatMap fun conflictRef =>
    (working.resolutionsByRef[conflictRef]?.getD []).map (·.resolutionId))

/-- What the step reports. -/
def delta (working : Working) (ops : List Op) (update : KeyUpdate) : MaterializationDelta where
  processedOpIds := ops.map Op.opId
  affectedKeys := working.affectedKeys.toList
  affectedNamespaces := sortedSet (working.affectedKeys.toList.map (·.nameSpace))
  affectedClaimIds := update.affectedClaimIds.toList
  previousConflictIds := update.previousConflictIds.toList
  currentConflictIds := update.currentConflictIds.toList
  affectedConflictRefs := update.affectedConflictRefs.toList
  affectedResolutionIds := (working.resolutionIds update.affectedConflictRefs.toList).toList
  cursorBefore := 0
  cursorAfter := 0
  fullRebuild := false
  conflictComparisons := update.comparisons

end Working

/-- `apply_operations_incrementally`.  The operations are not in the state yet, or
are in it as they are here. -/
def applyOperationsIncrementally (state : MemoryState) (ops : List Op)
    (detectors : List ConflictDetector) : Result (MemoryState × MaterializationDelta) := do
  if detectors ≠ [] then
    valueError "Incremental materialization does not support custom detectors."
  else if ops = [] then return (state, .empty)
  else
    let registry := state.predicateRegistry
    let entered ← ops.foldlM (Working.applyOp registry) (.ofState state)
    let working := entered.tidyActive
    let activeDecisions ← sortDecisions (Dict.values working.decisionsById)
    let update ← working.affectedKeys.toList.foldlM
      (updateKey (working.context registry activeDecisions) state.activeClaimsByKey)
      (.ofState state working)
    let lifecycle ← update.affectedConflictRefs.toList.foldlM
      (replaceLifecycleFoldForRef working.resolutionsById working.resolutionsByRef
        working.lifecycleByRef update.conflictsByRef)
      ⟨state.activeResolutionsByConflictRefAndScope,
        state.effectiveResolutionsByConflictRefAndScope,
        state.lifecycleStatusByConflictRefAndScope⟩
    return (working.state registry activeDecisions update lifecycle, working.delta ops update)

/-- What a successful step over some operations has computed. -/
theorem applyOperationsIncrementally_ok_iff {state : MemoryState} {ops : List Op} (some : ops ≠ [])
    {result : MemoryState × MaterializationDelta} :
    applyOperationsIncrementally state ops [] = .ok result ↔
      ∃ entered, ops.foldlM (Working.applyOp state.predicateRegistry) (.ofState state) =
        .ok entered ∧
      ∃ activeDecisions, sortDecisions (Dict.values entered.tidyActive.decisionsById) =
        .ok activeDecisions ∧
      ∃ update, entered.tidyActive.affectedKeys.toList.foldlM
        (updateKey (entered.tidyActive.context state.predicateRegistry activeDecisions)
          state.activeClaimsByKey) (.ofState state entered.tidyActive) = .ok update ∧
      ∃ lifecycle, update.affectedConflictRefs.toList.foldlM
        (replaceLifecycleFoldForRef entered.tidyActive.resolutionsById
          entered.tidyActive.resolutionsByRef entered.tidyActive.lifecycleByRef
          update.conflictsByRef)
        ⟨state.activeResolutionsByConflictRefAndScope,
          state.effectiveResolutionsByConflictRefAndScope,
          state.lifecycleStatusByConflictRefAndScope⟩ = .ok lifecycle ∧
      (entered.tidyActive.state state.predicateRegistry activeDecisions update lifecycle,
        entered.tidyActive.delta ops update) = result := by
  rw [applyOperationsIncrementally, if_neg (by simp), if_neg some]
  simp only [bind_ok_iff, pure_ok_iff]

end Statefuse
