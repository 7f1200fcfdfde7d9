import Statefuse.Materialize.State

/-!
# Views

A view of a state selects at most one claim for each key.  A first pass goes over the
keys with active claims: a key without a conflict of its own has a deterministic
choice, a conflicted key follows the committed resolution of its conflict or asks a
resolver for a suggestion.  A second pass goes over the conflicts that the first one
has not handled and withdraws the claims that their committed resolutions reject.
-/

namespace Statefuse

open Foundation

variable [Runtime]

structure ViewConstraints where
  scope : Option String
  preferredReplicaIds : List String
  preferredBranchIds : List String
  metadata : JSONObject
  validAt : Option String
  context : JSONObject

/-- The constraints of a scope alone. -/
def ViewConstraints.ofScope (scope : Option String) : ViewConstraints :=
  ⟨scope, [], [], ∅, none, ∅⟩

/-- What a resolver answers about a conflict. -/
structure Resolution where
  chosenClaimId : Option String
  reason : String
  confidence : Option PyNumber
  metadata : JSONObject

/-- A resolver is asked about each conflict at most once in a view, so its answers are a
function of the conflict even when it keeps a state of its own. -/
abbrev Resolver : Type := ConflictSet → ViewConstraints → MemoryState → Result Resolution

inductive SelectionBasis where
  | deterministic | committed | provisional | abstained
  deriving DecidableEq

structure Projection where
  selectedClaims : Dict ClaimKey Claim
  unresolvedConflicts : List ConflictSet
  surfacedConflicts : Dict ClaimKey ConflictSet
  explanations : Dict String String
  surfacedFindings : Dict String ConflictSet
  compatibleClaims : Dict ClaimKey (List Claim)
  provisionalClaims : Dict ClaimKey Claim
  selectionBasis : Dict ClaimKey SelectionBasis

def keyLabel (key : ClaimKey) : String :=
  key.nameSpace ++ ":" ++ key.subject ++ ":" ++ key.predicate

/-- By confidence, time and number of evidence, then by id. -/
def claimStrength (claim : Claim) : Result (ℚ ×ₗ ℚ ×ₗ Nat ×ₗ String) := do
  let instant ← parseUtcIso claim.timestamp
  return toLex (claim.confidence.value,
    toLex (timestampOf instant, toLex (claim.evidenceIds.length, claim.claimId)))

/-- The strongest of the candidates. -/
def deterministicClaimChoice (candidates : List Claim) : Result Claim := do
  let keyed ← candidates.mapM fun claim => do
    let strength ← claimStrength claim
    return (strength, claim)
  match sortBy (fun entry => OrderDual.toDual entry.1) keyed with
  | [] => .error (.indexError "list index out of range")
  | best :: _ => return best.2

/-- The lane of the scope when it has any history, or else the global lane. -/
def resolutionLane (state : MemoryState) (conflict : ConflictSet) (scope : Option String) : Lane :=
  match scope with
  | none => Lane.global conflict.conflictRef
  | some scope =>
      let exactLane : Lane := ⟨conflict.conflictRef, some scope⟩
      if exactLane ∈ state.resolutionsByConflictRefAndScope ∨
          exactLane ∈ state.lifecycleHistoryByConflictRefAndScope then exactLane
      else Lane.global conflict.conflictRef

/-- The committed claim, what there is to say about it, and whether the choice applies. -/
structure CommittedChoice where
  claim : Option Claim
  detail : Option String
  applied : Bool

def appliedDetail (resolution : ResolutionRecord) : String :=
  "Applied committed " ++ resolution.outcome.text ++ " resolution " ++ resolution.resolutionId

def deferredDetail (resolution : Option ResolutionRecord) : String :=
  match resolution with
  | some resolution =>
      if resolution.outcome = .abstain then "Committed abstention " ++ resolution.resolutionId
      else "Conflict resolution is deferred"
  | none => "Conflict resolution is deferred"

def staleDetail (resolution : ResolutionRecord) (effective : Bool) (uncovered : List String)
    (selectedCount : Nat) : String :=
  "Committed resolution " ++ resolution.resolutionId ++ " is stale/reopened" ++
  (if uncovered ≠ [] then "; uncovered candidates: " ++ String.intercalate ", " uncovered
    else "") ++
  (if selectedCount ≠ 1 then "; current selected candidate count: " ++ toString selectedCount
    else "") ++
  (if !effective ∧ uncovered = [] ∧ selectedCount = 1 then
    "; observed snapshot does not match classified claims" else "")

/-- The candidates that the resolution selects, in the order of their ids. -/
def selectedCandidates (conflict : ConflictSet) (resolution : ResolutionRecord) : List Claim :=
  conflict.candidates.filter fun claim => claim.claimId ∈ resolution.selectedClaimIds

/-- The candidates that the resolution takes no stand on. -/
def uncoveredIds (conflict : ConflictSet) (resolution : ResolutionRecord) : List String :=
  (conflict.candidates.filter fun claim => claim.claimId ∉ classifiedIds resolution).map
    Claim.claimId

/-- The choice that a resolution of the lane makes, effective or not. -/
def choiceOf (conflict : ConflictSet) (resolution : ResolutionRecord) (effective : Bool) :
    CommittedChoice :=
  let uncovered := uncoveredIds conflict resolution
  let stale : CommittedChoice :=
    if !effective ∨ uncovered ≠ [] ∨ (selectedCandidates conflict resolution).length ≠ 1 then
      ⟨none, some (staleDetail resolution effective uncovered
        (selectedCandidates conflict resolution).length), false⟩
    else ⟨none, none, false⟩
  if effective ∧ resolution.outcome = .preserve then
    ⟨none, some (appliedDetail resolution), true⟩
  else
    match effective, selectedCandidates conflict resolution with
    | true, [claim] => ⟨some claim, some (appliedDetail resolution), true⟩
    | _, _ => stale

def committedChoice (state : MemoryState) (conflict : ConflictSet) (scope : Option String) :
    CommittedChoice :=
  let lane := resolutionLane state conflict scope
  match state.effectiveResolutionsByConflictRefAndScope[lane]? with
  | some resolution => choiceOf conflict resolution true
  | none =>
      let resolution := state.activeResolutionsByConflictRefAndScope[lane]?
      let laneStatus := state.lifecycleStatusByConflictRefAndScope[lane]?
      if laneStatus = some .deferred then ⟨none, some (deferredDetail resolution), false⟩
      else
        match resolution with
        | none => ⟨none, none, false⟩
        | some resolution =>
            if laneStatus ≠ some .reopened then ⟨none, none, false⟩
            else choiceOf conflict resolution false

/-- A direct conflict about its own key alone. -/
def isSelectableConflict (conflict : ConflictSet) : Bool :=
  conflict.conflictType = directConflictType ∧ conflict.keys = [conflict.key] ∧
    conflict.candidates.all fun claim => claim.key = conflict.key

/-- The selectable conflicts of a key. -/
def selectableConflicts (state : MemoryState) (key : ClaimKey) : List ConflictSet :=
  (state.conflictsByKey[key]?.getD []).filter isSelectableConflict

/-! ## The first pass -/

/-- A projection under construction. -/
structure Draft extends Projection where
  handledConflictIds : PySet String

namespace Draft

def start (state : MemoryState) : Draft where
  selectedClaims := ∅
  unresolvedConflicts := []
  surfacedConflicts := ∅
  explanations := ∅
  surfacedFindings := Dict.ofItems (·.conflictId) state.conflicts
  compatibleClaims := ∅
  provisionalClaims := ∅
  selectionBasis := ∅
  handledConflictIds := ∅

def select (draft : Draft) (key : ClaimKey) (claim : Claim) : Draft :=
  { draft with selectedClaims := draft.selectedClaims.insert key claim }

/-- State the basis of a key and the reason for it. -/
def explain (draft : Draft) (key : ClaimKey) (basis : SelectionBasis) (text : String) : Draft :=
  { draft with
    selectionBasis := draft.selectionBasis.insert key basis
    explanations := draft.explanations.insert (keyLabel key) text }

def leaveUnresolved (draft : Draft) (conflict : ConflictSet) : Draft :=
  { draft with unresolvedConflicts := draft.unresolvedConflicts ++ [conflict] }

def suggest (draft : Draft) (key : ClaimKey) (claim : Claim) : Draft :=
  { draft with provisionalClaims := draft.provisionalClaims.insert key claim }

/-- The conflict is handled at its key; the claims that are no candidates stay available. -/
def surface (draft : Draft) (key : ClaimKey) (conflict : ConflictSet) (claims : List Claim) :
    Draft :=
  let compatible := claims.filter fun claim =>
    claim.claimId ∉ conflict.candidates.map Claim.claimId
  { draft with
    handledConflictIds := draft.handledConflictIds.insert conflict.conflictId
    surfacedConflicts := draft.surfacedConflicts.insert key conflict
    compatibleClaims :=
      if compatible = [] then draft.compatibleClaims
      else draft.compatibleClaims.insert key compatible }

end Draft

/-- Some claim has another value than the first one. -/
def alternativesDiffer (registry : PredicateRegistry) (key : ClaimKey) (claims : List Claim) :
    Bool :=
  match claims with
  | [] => false
  | first :: rest => rest.any fun claim =>
      !registry.valuesEqual key.predicate claim.value first.value

/-- A key without a conflict of its own. -/
def viewUndisputed (state : MemoryState) (draft : Draft) (key : ClaimKey) (claims : List Claim) :
    Result Draft :=
  if alternativesDiffer state.predicateRegistry key claims then
    .ok (Draft.explain { draft with compatibleClaims := draft.compatibleClaims.insert key claims }
      key .abstained
      "Compatible context, time, or multi-valued alternatives; no single claim selected.")
  else do
    let chosen ← deterministicClaimChoice claims
    return (draft.select key chosen).explain key .deterministic
      ("No conflict. Selected " ++ chosen.claimId ++ " deterministically.")

/-- The text that a resolver adds about its raw response. -/
def rawResponseText (metadata : JSONObject) : String :=
  let rawResponse := getOrNull metadata "raw_response"
  if rawResponse.isNull then "" else " | raw_response=" ++ pyStr rawResponse

/-- A conflicted key without a committed choice. -/
def viewSuggested (state : MemoryState) (constraints : ViewConstraints)
    (resolver : Option Resolver) (draft : Draft) (key : ClaimKey) (conflict : ConflictSet) :
    Result Draft :=
  match resolver with
  | none =>
      .ok ((draft.leaveUnresolved conflict).explain key .abstained
        ("Unresolved " ++ conflict.conflictId ++ ": no committed resolution."))
  | some resolver => do
      let resolution ← resolver conflict constraints state
      let chosen := (truthy resolution.chosenClaimId).bind fun claimId =>
        conflict.candidates.find? fun candidate => candidate.claimId = claimId
      match chosen with
      | none =>
          return (draft.leaveUnresolved conflict).explain key .abstained
            ("Unresolved " ++ conflict.conflictId ++ ": " ++ resolution.reason ++
              rawResponseText resolution.metadata)
      | some chosen =>
          return ((draft.suggest key chosen).leaveUnresolved conflict).explain key .provisional
            ("Suggested " ++ conflict.conflictId ++ " -> " ++ chosen.claimId ++ ": " ++
              resolution.reason ++ rawResponseText resolution.metadata)

/-- A conflicted key. -/
def viewConflicted (state : MemoryState) (constraints : ViewConstraints)
    (resolver : Option Resolver) (draft : Draft) (key : ClaimKey) (conflict : ConflictSet)
    (claims : List Claim) : Result Draft :=
  let draft := draft.surface key conflict claims
  let choice := committedChoice state conflict constraints.scope
  if choice.applied then
    match choice.claim with
    | some claim =>
        .ok ((draft.select key claim).explain key .committed
          ("Resolved " ++ conflict.conflictId ++ " -> " ++ claim.claimId ++ ": " ++
            choice.detail.getD "None" ++ "."))
    | none =>
        .ok (draft.explain key .committed
          ("Resolved " ++ conflict.conflictId ++ ": " ++ choice.detail.getD "None" ++ "."))
  else
    match choice.detail with
    | some detail =>
        .ok ((draft.leaveUnresolved conflict).explain key .abstained
          ("Unresolved " ++ conflict.conflictId ++ ": " ++ detail ++ "."))
    | none => viewSuggested state constraints resolver draft key conflict

/-- One key of the first pass. -/
def viewKey (state : MemoryState) (constraints : ViewConstraints) (resolver : Option Resolver)
    (draft : Draft) (entry : ClaimKey × List Claim) : Result Draft :=
  match selectableConflicts state entry.1 with
  | [] => viewUndisputed state draft entry.1 entry.2
  | conflict :: _ => viewConflicted state constraints resolver draft entry.1 conflict entry.2

/-! ## The second pass -/

namespace Draft

/-- Withdraw a rejected claim from the selected ones. -/
def excludeSelected (draft : Draft) (resolution : ResolutionRecord) (claim : Claim) : Draft :=
  match draft.selectedClaims[claim.key]? with
  | none => draft
  | some selected =>
      if pyEq selected claim then
        Draft.explain { draft with selectedClaims := draft.selectedClaims.erase claim.key }
          claim.key .committed
          ("Excluded " ++ claim.claimId ++ " by committed " ++ resolution.outcome.text ++
            " resolution " ++ resolution.resolutionId ++ ".")
      else draft

/-- Withdraw a rejected claim from the suggested ones. -/
def excludeProvisional (draft : Draft) (resolution : ResolutionRecord) (claim : Claim) : Draft :=
  match draft.provisionalClaims[claim.key]? with
  | none => draft
  | some provisional =>
      if pyEq provisional claim then
        Draft.explain { draft with provisionalClaims := draft.provisionalClaims.erase claim.key }
          claim.key .committed
          ("Excluded provisional " ++ claim.claimId ++ " by committed " ++
            resolution.outcome.text ++ " resolution " ++ resolution.resolutionId ++ ".")
      else draft

/-- Put the alternatives that remain at a key; a single one becomes the selected claim. -/
def keepAlternatives (draft : Draft) (key : ClaimKey) (remaining : List Claim) : Draft :=
  match remaining with
  | [] => { draft with compatibleClaims := draft.compatibleClaims.erase key }
  | [only] =>
      { draft with
        compatibleClaims := draft.compatibleClaims.erase key
        selectedClaims := draft.selectedClaims.insert key only
        selectionBasis := draft.selectionBasis.insert key .committed }
  | remaining => { draft with compatibleClaims := draft.compatibleClaims.insert key remaining }

/-- Withdraw a rejected claim from the compatible alternatives of its key. -/
def excludeAlternative (draft : Draft) (claim : Claim) : Draft :=
  let alternatives := draft.compatibleClaims[claim.key]?.getD []
  if alternatives.any fun item => pyEq item claim then
    draft.keepAlternatives claim.key (alternatives.filter fun item => !pyEq item claim)
  else draft

def exclude (resolution : ResolutionRecord) (draft : Draft) (claim : Claim) : Draft :=
  ((draft.excludeSelected resolution claim).excludeProvisional resolution claim).excludeAlternative
    claim

/-- Withdraw every candidate that the effective resolution of the lane rejects. -/
def excludeRejected (draft : Draft) (state : MemoryState) (conflict : ConflictSet)
    (scope : Option String) : Draft :=
  match state.effectiveResolutionsByConflictRefAndScope[resolutionLane state conflict scope]? with
  | none => draft
  | some resolution =>
      (conflict.candidates.filter fun claim => claim.claimId ∈ resolution.rejectedClaimIds).foldl
        (exclude resolution) draft

def explainFinding (draft : Draft) (conflict : ConflictSet) (text : String) : Draft :=
  { draft with explanations := draft.explanations.insert ("conflict:" ++ conflict.conflictId) text }

end Draft

/-- One conflict of the second pass. -/
def viewFinding (state : MemoryState) (scope : Option String) (draft : Draft)
    (conflict : ConflictSet) : Draft :=
  if conflict.conflictId ∈ draft.handledConflictIds then draft
  else
    let choice := committedChoice state conflict scope
    if choice.applied then
      let excluded :=
        match choice.claim with
        | none => draft
        | some _ => draft.excludeRejected state conflict scope
      excluded.explainFinding conflict
        ("Resolved " ++ conflict.conflictId ++ ": " ++ choice.detail.getD "None" ++ ".")
    else
      (draft.leaveUnresolved conflict).explainFinding conflict
        ("Unresolved " ++ conflict.conflictId ++ ": " ++
          choice.detail.getD "no committed resolution for this conflict type" ++ ".")

/-- Each unresolved conflict once, ordered by key and id. -/
def orderUnresolved (conflicts : List ConflictSet) : List ConflictSet :=
  sortBy (fun conflict : ConflictSet => toLex (conflict.key, conflict.conflictId))
    (Dict.values (Dict.ofItems (·.conflictId) conflicts))

def buildView (state : MemoryState) (constraints : ViewConstraints) (resolver : Option Resolver) :
    Result Projection := do
  let draft ← state.activeClaimsByKey.toList.foldlM (viewKey state constraints resolver)
    (Draft.start state)
  let draft := state.conflicts.foldl (viewFinding state constraints.scope) draft
  return { draft.toProjection with
    unresolvedConflicts := orderUnresolved draft.unresolvedConflicts }

end Statefuse
