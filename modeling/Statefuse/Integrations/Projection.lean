import Statefuse.Integrations.SearchMerge
import Statefuse.Materialize.Accounting

/-!
# Projections of a state

What a repository is told about a materialized state: one record for each active claim of
the namespace, one for each conflict that touches it, and one for each resolution about
one of its claims.  A step of the state is projected either again as a whole or through
the ids that its delta names.
-/

namespace Statefuse

open Foundation

variable [Runtime]

/-- `_display` -/
def display (value : JSONValue) : String := value.asStr?.getD (canonicalJsonDumps value)

/-- `", ".join(items) or default` -/
def joinOr (items : List String) (default : String) : String :=
  let joined := ", ".intercalate items
  if joined = "" then default else joined

def claimProjectionId (claimId : String) : String := "statefuse:claim:" ++ claimId

def conflictProjectionId (conflictId : String) : String := "statefuse:conflict:" ++ conflictId

def resolutionProjectionId (resolutionId : String) : String :=
  "statefuse:resolution:" ++ resolutionId

/-- `_claim_record` -/
def claimRecord (claim : Claim) (conflictIds : List String) : RetrievalRecord where
  projectionId := claimProjectionId claim.claimId
  text := claim.key.subject ++ " " ++ claim.key.predicate ++ " is " ++ display claim.value ++
    ".\nStateFuse claim ID: " ++ claim.claimId ++ ".\nSource evidence: " ++
    joinOr claim.evidenceIds "none" ++ "."
  nameSpace := claim.key.nameSpace
  claimIds := [claim.claimId]
  conflictIds := conflictIds
  metadata := objectOf [
    ("kind", .str "claim"), ("claim_kind", .str claim.kind),
    ("subject", .str claim.key.subject), ("predicate", .str claim.key.predicate),
    ("confidence", .number claim.confidence), ("timestamp", .str claim.timestamp),
    ("context", .obj claim.context),
    ("validity", (claim.validity.map fun interval => .obj interval.toDict).getD .null)]

/-- The status of a conflict for everybody. -/
def MemoryState.globalStatus (state : MemoryState) (conflict : ConflictSet) : LifecycleStatus :=
  state.lifecycleStatusByConflictRefAndScope[Lane.global conflict.conflictRef]?.getD .opened

def candidateLine (claim : Claim) : String :=
  "- " ++ claim.key.subject ++ "." ++ claim.key.predicate ++ "=" ++ display claim.value ++
    " (claim " ++ claim.claimId ++ ")"

/-- `_conflict_record` -/
def conflictRecord (state : MemoryState) (conflict : ConflictSet) (nameSpace : String) :
    RetrievalRecord where
  projectionId := conflictProjectionId conflict.conflictId
  text := conflict.conflictClass ++ "/" ++ conflict.conflictSubclass ++ " conflict:\n" ++
    "\n".intercalate (conflict.candidates.map candidateLine) ++ "\nReason: " ++ conflict.reason ++
    "\nConflict ID: " ++ conflict.conflictId ++ "\nStatus: " ++
    (if state.globalStatus conflict = .resolved then "resolved" else "unresolved")
  nameSpace := nameSpace
  claimIds := conflict.candidates.map Claim.claimId
  conflictIds := [conflict.conflictId]
  metadata := objectOf [
    ("kind", .str "conflict"), ("conflict_ref", .str conflict.conflictRef),
    ("conflict_type", .str conflict.conflictType),
    ("conflict_class", .str conflict.conflictClass),
    ("conflict_subclass", .str conflict.conflictSubclass),
    ("detector_id", .str conflict.detectorId),
    ("keys", .arr (conflict.keys.map fun key => .obj key.toDict)),
    ("annotations", .obj conflict.annotations), ("witness", .obj conflict.witness),
    ("status", .str (state.globalStatus conflict).text)]

/-- `_resolution_record`: none where no claim of the resolution is in the namespace. -/
def resolutionRecord (state : MemoryState) (resolution : ResolutionRecord) (nameSpace : String) :
    Option RetrievalRecord :=
  let claimIds := sortedSet resolution.claimIds
  if claimIds.any fun claimId =>
      state.claimsById[claimId]?.any fun claim => claim.key.nameSpace = nameSpace then
    let status := state.lifecycleStatusByConflictRefAndScope[resolution.lane]?.getD .resolved
    some {
      projectionId := resolutionProjectionId resolution.resolutionId
      text := "Conflict " ++ resolution.observedConflictId ++ " resolution outcome: " ++
        resolution.outcome.text ++ "; selected: " ++
        joinOr resolution.selectedClaimIds "no claim" ++ ".\nReason: " ++ resolution.reason ++
        "\nThe rejected claim remains available in StateFuse history."
      nameSpace := nameSpace
      claimIds := claimIds
      conflictIds := [resolution.observedConflictId]
      metadata := objectOf [
        ("kind", .str "resolution"), ("conflict_ref", .str resolution.conflictRef),
        ("status", .str status.text), ("outcome", .str resolution.outcome.text),
        ("timestamp", .str resolution.timestamp)] }
  else none

/-- `_fingerprint`; every record has the first version. -/
def fingerprint (record : RetrievalRecord) : String :=
  digestJsonValue (.obj (objectOf [
    ("text", .str record.text), ("namespace", .str record.nameSpace),
    ("claim_ids", strList record.claimIds), ("conflict_ids", strList record.conflictIds),
    ("metadata", .obj record.metadata), ("projection_version", .number (.int 1))]))

/-- The ids of the conflicts of every claim, in order. -/
def conflictsByClaim (conflicts : List ConflictSet) : Dict String (List String) :=
  conflicts.foldl (fun byClaim conflict => conflict.candidates.foldl (fun byClaim claim =>
    byClaim.insert claim.claimId
      (sortBy id (byClaim[claim.claimId]?.getD [] ++ [conflict.conflictId]))) byClaim) ∅

def touches (conflict : ConflictSet) (nameSpace : String) : Bool :=
  conflict.keys.any fun key => key.nameSpace = nameSpace

/-- `project_state` -/
def projectState (state : MemoryState) (nameSpace : String) : List RetrievalRecord :=
  let byClaim := conflictsByClaim state.conflicts
  let activeClaims := sortBy Claim.claimId
    ((Dict.values state.activeClaimsByKey).flatten.filter fun claim =>
      claim.key.nameSpace = nameSpace)
  sortBy RetrievalRecord.projectionId
    (activeClaims.map (fun claim => claimRecord claim (byClaim[claim.claimId]?.getD [])) ++
      (state.conflicts.filter fun conflict => touches conflict nameSpace).map
        (fun conflict => conflictRecord state conflict nameSpace) ++
      (Dict.values state.resolutionsById).filterMap
        fun resolution => resolutionRecord state resolution nameSpace)

/-- The projected records by id. -/
def projected (state : MemoryState) (nameSpace : String) : Dict String RetrievalRecord :=
  Dict.ofItems RetrievalRecord.projectionId (projectState state nameSpace)

/-- The upserts and the deletions of a step, before the former prevail. -/
structure Projecting where
  upserts : Dict String RetrievalRecord
  deletes : PySet String

namespace Projecting

def upsert (projecting : Projecting) (record : RetrievalRecord) : Projecting :=
  { projecting with upserts := projecting.upserts.insert record.projectionId record }

def delete (projecting : Projecting) (projectionId : String) : Projecting :=
  { projecting with deletes := projecting.deletes.insert projectionId }

def projectClaim (state : MemoryState) (nameSpace : String) (projecting : Projecting)
    (claimId : String) : Projecting :=
  match state.claimsById[claimId]? with
  | none => projecting
  | some claim =>
      if claim.key.nameSpace ≠ nameSpace then projecting
      else if claimId ∈ state.inactiveClaimIds ∨ claimId ∈ state.inapplicableClaimIds then
        projecting.delete (claimProjectionId claimId)
      else
        let conflicts := (state.conflictsByKey[claim.key]?.getD []).filter fun conflict =>
          conflict.candidates.any fun candidate => candidate.claimId = claimId
        projecting.upsert (claimRecord claim (sortBy id (conflicts.map (·.conflictId))))

def projectConflict (state : MemoryState) (nameSpace : String) (projecting : Projecting)
    (conflictId : String) : Projecting :=
  match state.conflictsById[conflictId]? with
  | none => projecting.delete (conflictProjectionId conflictId)
  | some conflict =>
      if touches conflict nameSpace then projecting.upsert (conflictRecord state conflict nameSpace)
      else projecting

def projectConflictRef (state : MemoryState) (nameSpace : String) (projecting : Projecting)
    (conflictRef : String) : Projecting :=
  match state.conflictsByRef[conflictRef]? with
  | none => projecting
  | some conflict =>
      if touches conflict nameSpace then projecting.upsert (conflictRecord state conflict nameSpace)
      else projecting

def projectResolution (state : MemoryState) (nameSpace : String) (projecting : Projecting)
    (resolutionId : String) : Projecting :=
  match state.resolutionsById[resolutionId]? with
  | none => projecting
  | some resolution => match resolutionRecord state resolution nameSpace with
    | none => projecting
    | some record => projecting.upsert record

end Projecting

structure ProjectionDelta where
  upserts : List RetrievalRecord
  deletes : List String

open Projecting in
/-- `project_state_delta` -/
def projectStateDelta (state : MemoryState) (nameSpace : String) (delta : MaterializationDelta) :
    ProjectionDelta :=
  if delta.fullRebuild then ⟨projectState state nameSpace, []⟩
  else
    let claims := delta.affectedClaimIds.foldl (projectClaim state nameSpace) ⟨∅, ∅⟩
    let conflicts := (sortedSet (delta.previousConflictIds ++ delta.currentConflictIds)).foldl
      (projectConflict state nameSpace) claims
    let refs := delta.affectedConflictRefs.foldl (projectConflictRef state nameSpace) conflicts
    let resolutions :=
      delta.affectedResolutionIds.foldl (projectResolution state nameSpace) refs
    ⟨Dict.values resolutions.upserts,
      resolutions.deletes.toList.filter fun projectionId =>
        !resolutions.upserts.contains projectionId⟩

end Statefuse
