import Statefuse.Materialize.Full

/-!
# Checkpoints of a state

A checkpoint is the JSON text of the records of a state, of its conflicts and of the ids
of the claims that are not active.  The tables of a state that follow from these are not
written; the reader computes them again.
-/

namespace Statefuse

open Foundation

variable [Runtime]

/-- What a checkpoint says.  The sources, the claims and so on stand in the order in which
the tables of the state list them. -/
structure CheckpointRecords where
  sources : List Source
  evidence : List Evidence
  claims : List Claim
  retractions : List ClaimRetracted
  decisions : List Decision
  derivations : List Derivation
  resolutions : List ResolutionRecord
  lifecycleEvents : List ConflictLifecycleEvent
  conflicts : List ConflictSet
  inactiveClaimIds : PySet String
  inapplicableClaimIds : PySet String

def ConflictSet.toDict (conflict : ConflictSet) : JSONObject :=
  objectOf [("conflict_id", .str conflict.conflictId),
    ("conflict_ref", .str conflict.conflictRef),
    ("conflict_type", .str conflict.conflictType),
    ("conflict_class", .str conflict.conflictClass),
    ("conflict_subclass", .str conflict.conflictSubclass),
    ("detector_id", .str conflict.detectorId),
    ("key", .obj conflict.key.toDict),
    ("keys", .arr (conflict.keys.map fun key => .obj key.toDict)),
    ("reason", .str conflict.reason),
    ("candidate_claim_ids", strList (conflict.candidates.map Claim.claimId)),
    ("distinct_values", .arr conflict.distinctValues),
    ("annotations", .obj conflict.annotations),
    ("witness", .obj conflict.witness)]

/-- The dictionaries of some records. -/
def dictList {α : Type} (toDict : α → JSONObject) (items : List α) : JSONValue :=
  .arr (items.map fun item => .obj (toDict item))

def CheckpointRecords.toDict (records : CheckpointRecords) : JSONObject :=
  objectOf [("sources", dictList Source.toDict records.sources),
    ("evidence", dictList Evidence.toDict records.evidence),
    ("claims", dictList Claim.toDict records.claims),
    ("retractions", dictList (fun item => (Op.claimRetracted item).toDict) records.retractions),
    ("decisions", dictList Decision.toDict records.decisions),
    ("derivations", dictList Derivation.toDict records.derivations),
    ("resolutions", dictList ResolutionRecord.toDict records.resolutions),
    ("lifecycle_events", dictList ConflictLifecycleEvent.toDict records.lifecycleEvents),
    ("conflicts", dictList ConflictSet.toDict records.conflicts),
    ("inactive_claim_ids", strList records.inactiveClaimIds.toList),
    ("inapplicable_claim_ids", strList records.inapplicableClaimIds.toList)]

/-- The text of a checkpoint. -/
def CheckpointRecords.text (records : CheckpointRecords) : String :=
  canonicalJsonDumps (.obj records.toDict)

/-- The retractions of a state by their operation, whatever they name. -/
def MemoryState.retractions (state : MemoryState) : Dict String ClaimRetracted :=
  Dict.ofItems (fun retraction : ClaimRetracted => retraction.opId)
    ((Dict.values state.retractionsByTarget).flatten ++
      (Dict.values state.retractionsByTargetRef).flatten ++
      (Dict.values state.retractionsBySuperseder).flatten ++
      (Dict.values state.retractionsBySupersederRef).flatten)

def MemoryState.checkpointRecords (state : MemoryState) : CheckpointRecords where
  sources := Dict.values state.sourcesById
  evidence := Dict.values state.evidenceById
  claims := Dict.values state.claimsById
  retractions := Dict.values state.retractions
  decisions := state.activeDecisions
  derivations := Dict.values state.derivationsById
  resolutions := Dict.values state.resolutionsById
  lifecycleEvents := Dict.values state.lifecycleEventsById
  conflicts := state.conflicts
  inactiveClaimIds := state.inactiveClaimIds
  inapplicableClaimIds := state.inapplicableClaimIds

def memoryStateToCheckpoint (state : MemoryState) : String := state.checkpointRecords.text

/-! ## Reading -/

def checkpointList (value : JSONObject) (key : String) : Result (List JSONObject) :=
  match (value[key]?.bind JsonValue.asArr?).bind fun items => items.mapM JsonValue.asObj? with
  | some items => .ok items
  | none => valueError ("Checkpoint field '" ++ key ++ "' must be a list of objects.")

def checkpointStringSet (value : JSONObject) (key : String) : Result (PySet String) :=
  match (value[key]?.bind JsonValue.asArr?).bind fun items => items.mapM JsonValue.asStr? with
  | some items => .ok (Std.ExtTreeSet.ofList items compare)
  | none => valueError ("Checkpoint field '" ++ key ++ "' must be a list of strings.")

/-- The records of one field. -/
def readRecords {α : Type} (fromDict : JSONObject → Result α) (value : JSONObject)
    (key : String) : Result (List α) := do
  let items ← checkpointList value key
  items.mapM fromDict

/-- `ClaimKey.from_dict` of a value that need not be a dictionary. -/
def readKey (value : JSONValue) : Result ClaimKey :=
  match value.asObj? with
  | some members => ClaimKey.fromDict members
  | none => .error (.typeError "the key must be an object")

omit [Runtime] in
/-- What iterating over a value yields: the items of a list, the characters of a string,
the keys of a dictionary. -/
def iterate (value : JSONValue) : Result (List JSONValue) :=
  match value.asArr?, value.asStr?, value.asObj? with
  | some items, _, _ => .ok items
  | none, some text, _ => .ok (text.toList.map fun character => .str (String.singleton character))
  | none, none, some members => .ok (members.keys.map .str)
  | none, none, none => .error (.typeError "the value is not iterable")

omit [Runtime] in
/-- `dict(value)`. -/
def dictOf (value : JSONValue) : Result JSONObject :=
  match value.asObj? with
  | some members => .ok members
  | none => do
      let items ← iterate value
      if items.isEmpty then return ∅
      else .error (.typeError "the value is not a dictionary")

/-- The claim a conflict names, among the claims of the checkpoint. -/
def readCandidate (claimsById : Dict String Claim) (claimId : JSONValue) : Result Claim :=
  match claimsById[pyStr claimId]? with
  | some claim => .ok claim
  | none => .error (.keyError (pyStr claimId))

def readConflict (claimsById : Dict String Claim) (item : JSONObject) : Result ConflictSet :=
  match item["candidate_claim_ids"]?.bind JsonValue.asArr? with
  | none => valueError "Checkpoint conflict candidates must be a list."
  | some candidateIds => do
      let conflictId ← getItem item "conflict_id"
      let conflictRef ← getItem item "conflict_ref"
      let conflictType ← getItem item "conflict_type"
      let conflictClass ← getItem item "conflict_class"
      let conflictSubclass ← getItem item "conflict_subclass"
      let detectorId ← getItem item "detector_id"
      let keyItem ← getItem item "key"
      let key ← readKey keyItem
      let keyItems ← iterate (item["keys"]?.getD (.arr []))
      let keys ← keyItems.mapM readKey
      let candidates ← candidateIds.mapM (readCandidate claimsById)
      let distinctValues ← iterate (item["distinct_values"]?.getD (.arr []))
      let reason ← getItem item "reason"
      let annotations ← dictOf (item["annotations"]?.getD (.obj ∅))
      let witness ← dictOf (item["witness"]?.getD (.obj ∅))
      ConflictSet.create {
        conflictId := pyStr conflictId
        key := key
        candidates := candidates
        distinctValues := distinctValues
        reason := pyStr reason
        conflictRef := pyStr conflictRef
        conflictType := pyStr conflictType
        keys := keys
        conflictClass := pyStr conflictClass
        conflictSubclass := pyStr conflictSubclass
        detectorId := pyStr detectorId
        annotations := annotations
        witness := witness }

def CheckpointRecords.fromDict (value : JSONObject) : Result CheckpointRecords := do
  let sources ← readRecords Source.fromDict value "sources"
  let evidence ← readRecords Evidence.fromDict value "evidence"
  let claims ← readRecords Claim.fromDict value "claims"
  let decisions ← readRecords Decision.fromDict value "decisions"
  let derivations ← readRecords Derivation.fromDict value "derivations"
  let resolutions ← readRecords ResolutionRecord.fromDict value "resolutions"
  let lifecycleEvents ← readRecords ConflictLifecycleEvent.fromDict value "lifecycle_events"
  let retractions ← readRecords ClaimRetracted.fromDict value "retractions"
  let inactiveClaimIds ← checkpointStringSet value "inactive_claim_ids"
  let inapplicableClaimIds ← checkpointStringSet value "inapplicable_claim_ids"
  let conflicts ← readRecords (readConflict (Dict.ofItems Claim.claimId claims)) value "conflicts"
  return ⟨sources, evidence, claims, retractions, decisions, derivations, resolutions,
    lifecycleEvents, conflicts, inactiveClaimIds, inapplicableClaimIds⟩

namespace CheckpointRecords

/-- The retractions under one of their targets. -/
def retractionsUnder (records : CheckpointRecords) (field : ClaimRetracted → Option String) :
    Dict String (List ClaimRetracted) :=
  sortGroups ClaimRetracted.order (records.retractions.foldl (fun groups retraction =>
    appendRetraction groups (field retraction) retraction) ∅)

/-- The claims that are neither retracted nor inapplicable, under their keys. -/
def activeClaimsByKey (records : CheckpointRecords) : Dict ClaimKey (List Claim) :=
  sortGroups Claim.claimId (groupBy Claim.key (records.claims.filter fun claim =>
    claim.claimId ∉ records.inactiveClaimIds ∧ claim.claimId ∉ records.inapplicableClaimIds))

/-- The state of the records, once everything that can fail is computed. -/
def state (records : CheckpointRecords) (registry : PredicateRegistry)
    (conflicts : List ConflictSet) (indexes : Dict ClaimKey DirectConflictIndex)
    (lifecycle : LifecycleFold) (activeDecisions : List Decision) : MemoryState :=
  let claimsById := Dict.ofItems Claim.claimId records.claims
  let claimRefsById := claimsById.map fun _ claim => registry.claimRefForClaim claim
  let resolutionsById := Dict.ofItems (fun item : ResolutionRecord => item.resolutionId)
    records.resolutions
  let lifecycleEventsById := Dict.ofItems (fun item : ConflictLifecycleEvent => item.eventId)
    records.lifecycleEvents
  { evidenceById := Dict.ofItems Evidence.evidenceId records.evidence
    activeClaimsByKey := records.activeClaimsByKey
    activeDecisions := activeDecisions
    conflicts := conflicts
    claimsById := claimsById
    claimRefsById := claimRefsById
    claimIdsByRef := listed (reverseIndex (fun entry : String × String => [entry.2]) Prod.fst
      claimRefsById.toList)
    retractionsByTarget := records.retractionsUnder (·.targetClaimId)
    retractionsByTargetRef := records.retractionsUnder (·.targetClaimRef)
    retractionsBySuperseder := records.retractionsUnder (·.supersedesClaimId)
    retractionsBySupersederRef := records.retractionsUnder (·.supersedesClaimRef)
    inactiveClaimIds := records.inactiveClaimIds
    sourcesById := Dict.ofItems Source.sourceId records.sources
    derivationsById := Dict.ofItems (fun item : Derivation => item.derivationId)
      records.derivations
    resolutionsById := resolutionsById
    lifecycleEventsById := lifecycleEventsById
    resolutionsByConflictRef := (groupResolutionHistory resolutionsById).1
    resolutionsByConflictRefAndScope := (groupResolutionHistory resolutionsById).2
    lifecycleHistoryByConflictRef := (groupLifecycleHistory lifecycleEventsById).1
    lifecycleHistoryByConflictRefAndScope := (groupLifecycleHistory lifecycleEventsById).2
    effectiveResolutionsByConflictRefAndScope := lifecycle.effective
    activeResolutionsByConflictRefAndScope := lifecycle.active
    lifecycleStatusByConflictRefAndScope := lifecycle.statuses
    conflictsById := Dict.ofItems (·.conflictId) conflicts
    conflictsByRef := Dict.ofItems (·.conflictRef) conflicts
    conflictsByKey := groupConflictsByKey conflicts
    inapplicableClaimIds := records.inapplicableClaimIds
    claimIdsByEvidenceId := claimIdsByEvidenceIdOf records.claims
    claimIdsByDerivationId := claimIdsByDerivationIdOf records.claims
    evidenceIdsBySourceId := evidenceIdsBySourceIdOf records.evidence
    resolutionIdsByClaimId := resolutionIdsByClaimIdOf records.resolutions
    directConflictIndexes := indexes
    predicateRegistry := registry }

/-- The state is computed again, without an instant. -/
def restored (records : CheckpointRecords) (registry : PredicateRegistry) : Result MemoryState := do
  let conflicts := sortBy (fun conflict : ConflictSet => conflict.conflictId) records.conflicts
  let resolutionsById := Dict.ofItems (fun item : ResolutionRecord => item.resolutionId)
    records.resolutions
  let lifecycleEventsById := Dict.ofItems (fun item : ConflictLifecycleEvent => item.eventId)
    records.lifecycleEvents
  let indexes ← buildIndexes records.activeClaimsByKey registry (directConflictsByKey conflicts)
  let lifecycle ← foldLifecycle resolutionsById (groupResolutionHistory resolutionsById).2
    (groupLifecycleHistory lifecycleEventsById).2 (Dict.ofItems (·.conflictRef) conflicts) none
  let activeDecisions ← sortDecisions records.decisions
  return records.state registry conflicts indexes lifecycle activeDecisions

end CheckpointRecords

def memoryStateFromCheckpoint (payload : String) (registry : PredicateRegistry) :
    Result MemoryState := do
  let value ← canonicalJsonLoads payload
  match value.asObj? with
  | none => valueError "Materialization checkpoint must contain an object."
  | some value => do
      let records ← CheckpointRecords.fromDict value
      records.restored registry

end Statefuse
