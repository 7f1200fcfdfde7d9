import Statefuse.Conflict.Detection
import Statefuse.Foundation.Tables

/-!
# The direct conflict index

For one claim key the index keeps the active claims, what is needed to compare
them, and the incompatible pairs.  Full materialization builds it from the
conflict it has just detected; incremental materialization updates it, comparing
only the new claims with the others.
-/

namespace Statefuse

open Foundation

variable [Runtime]

/-- An unordered pair of claim ids, the lesser one first. -/
abbrev ClaimPair : Type := String ×ₗ String

structure DirectConflictIndex where
  claimsById : Dict String Claim
  normalizedValuesByClaimId : Dict String JSONValue
  contextsByClaimId : Dict String JSONObject
  validityByClaimId : Dict String ValidityBounds
  incompatiblePairs : Dict ClaimPair JSONObject
  adjacentClaimIds : Dict String (PySet String)

namespace DirectConflictIndex

def empty : DirectConflictIndex := ⟨∅, ∅, ∅, ∅, ∅, ∅⟩

end DirectConflictIndex

/-- The value under which a claim is compared by default. -/
def indexedValue (registry : PredicateRegistry) (claim : Claim) : JSONValue :=
  if (registry.ruleFor claim.key.predicate).equal.isNone then
    registry.normalizeValue claim.key.predicate claim.value
  else claim.value

/-- The values of a dictionary through a computation that may fail. -/
def mapValuesM {α β : Type} (f : α → Result β) (dict : Dict String α) : Result (Dict String β) :=
  dict.toList.foldlM (fun result entry => do
    let value ← f entry.2
    return result.insert entry.1 value) ∅

/-- Two claim ids that are named by an entry of a witness. -/
def rawPair (entry : JSONValue) : Option (String × String) :=
  match entry.asObj? with
  | none => none
  | some members =>
      match (members["claim_ids"]?.bind JsonValue.asArr?) with
      | some [first, second] =>
          match first.asStr?, second.asStr? with
          | some firstId, some secondId =>
              if firstId ≤ secondId then some (firstId, secondId) else some (secondId, firstId)
          | _, _ => none
      | _ => none

/-- The pairs that the witness of a conflict names. -/
def witnessPairs (conflict : Option ConflictSet) : List (String × String) :=
  match conflict with
  | none => []
  | some conflict =>
      match (conflict.witness["incompatible_pairs"]?.bind JsonValue.asArr?) with
      | none => []
      | some entries => entries.filterMap rawPair

/-- Connect two claims in both directions. -/
def connect (adjacent : Dict String (PySet String)) (pair : ClaimPair) :
    Dict String (PySet String) :=
  addTo (addTo adjacent pair.1 pair.2) pair.2 pair.1

/-- Every claim has an entry, if only an empty one. -/
def adjacencyOf {α : Type} (claimsById : Dict String α) (pairs : Dict ClaimPair JSONObject) :
    Dict String (PySet String) :=
  pairs.keys.foldl connect (claimsById.map fun _ _ => ∅)

/-- Enter a named pair, if both claims are there. -/
def enterPair (claimsById : Dict String Claim) (pairs : Dict ClaimPair JSONObject)
    (pair : String × String) : Result (Dict ClaimPair JSONObject) :=
  match claimsById[pair.1]?, claimsById[pair.2]? with
  | some left, some right => do
      let witness ← overlapWitness left right
      return pairs.insert (toLex pair) witness
  | _, _ => .ok pairs

/-- The index of the claims of a key, with the pairs of the given conflict. -/
def buildDirectConflictIndex (claims : List Claim) (registry : PredicateRegistry)
    (conflict : Option ConflictSet) : Result DirectConflictIndex := do
  let claimsById := Dict.ofItems Claim.claimId claims
  let validity ← mapValuesM (fun claim : Claim => validityBounds claim.validity) claimsById
  let pairs ← (witnessPairs conflict).foldlM (enterPair claimsById) ∅
  return {
    claimsById := claimsById
    normalizedValuesByClaimId := claimsById.map fun _ claim => indexedValue registry claim
    contextsByClaimId := claimsById.map fun _ claim => claim.context
    validityByClaimId := validity
    incompatiblePairs := pairs
    adjacentClaimIds := adjacencyOf claimsById pairs }

def pairKey (leftId rightId : String) : ClaimPair :=
  if leftId ≤ rightId then toLex (leftId, rightId) else toLex (rightId, leftId)

/-- Drop one claim and its pairs. -/
def removeClaim (index : DirectConflictIndex) (claimId : String) : DirectConflictIndex :=
  let neighbours := (index.adjacentClaimIds[claimId]?.getD ∅).toList
  { claimsById := index.claimsById.erase claimId
    normalizedValuesByClaimId := index.normalizedValuesByClaimId.erase claimId
    contextsByClaimId := index.contextsByClaimId.erase claimId
    validityByClaimId := index.validityByClaimId.erase claimId
    incompatiblePairs := neighbours.foldl
      (fun pairs otherId => pairs.erase (pairKey claimId otherId)) index.incompatiblePairs
    adjacentClaimIds := (neighbours.foldl
      (fun adjacent otherId => discardFrom adjacent otherId claimId)
      index.adjacentClaimIds).erase claimId }

/-- What adding one claim has compared so far. -/
structure Comparison where
  pairs : Dict ClaimPair JSONObject
  adjacent : Dict String (PySet String)
  comparisons : Nat

/-- Compare a new claim with one that is already indexed. -/
def compareWith (registry : PredicateRegistry) (index : DirectConflictIndex) (claim : Claim)
    (bounds : ValidityBounds) (state : Comparison) (otherId : String) (other : Claim) :
    Result Comparison := do
  let otherContext := index.contextsByClaimId[otherId]?.getD ∅
  let otherBounds := index.validityByClaimId[otherId]?.getD (none, none)
  let otherValue := index.normalizedValuesByClaimId[otherId]?.getD .null
  if !contextsOverlap claim.context otherContext then return state
  if !validityBoundsOverlap bounds otherBounds then return state
  let (left, right) := if claim.claimId < other.claimId then (claim, other) else (other, claim)
  let value := indexedValue registry claim
  let (leftValue, rightValue) :=
    if claim.claimId < other.claimId then (value, otherValue) else (otherValue, value)
  if (registry.ruleFor claim.key.predicate).equal.isNone ∧ pyEq leftValue rightValue then
    return state
  if registry.valuesEqual claim.key.predicate left.value right.value then
    return { state with comparisons := state.comparisons + 1 }
  let witness ← overlapWitness left right
  return {
    pairs := state.pairs.insert (pairKey claim.claimId otherId) witness
    adjacent := connect state.adjacent (pairKey claim.claimId otherId)
    comparisons := state.comparisons + 1 }

/-- Compare a new claim with all the others, unless its predicate is multi-valued. -/
def compareAll (registry : PredicateRegistry) (index : DirectConflictIndex) (claim : Claim)
    (bounds : ValidityBounds) (start : Comparison) : Result Comparison :=
  if registry.isMultiValued claim.key.predicate then .ok start
  else index.claimsById.toList.foldlM (fun state entry =>
    compareWith registry index claim bounds state entry.1 entry.2) start

/-- Add one claim. -/
def addClaim (registry : PredicateRegistry) (state : DirectConflictIndex × Nat) (claim : Claim) :
    Result (DirectConflictIndex × Nat) := do
  let index := state.1
  let bounds ← validityBounds claim.validity
  let compared ← compareAll registry index claim bounds
    ⟨index.incompatiblePairs, index.adjacentClaimIds, state.2⟩
  return (
    { claimsById := index.claimsById.insert claim.claimId claim
      normalizedValuesByClaimId :=
        index.normalizedValuesByClaimId.insert claim.claimId (indexedValue registry claim)
      contextsByClaimId := index.contextsByClaimId.insert claim.claimId claim.context
      validityByClaimId := index.validityByClaimId.insert claim.claimId bounds
      incompatiblePairs := compared.pairs
      adjacentClaimIds :=
        compared.adjacent.insert claim.claimId (compared.adjacent[claim.claimId]?.getD ∅) },
    compared.comparisons)

/-- Bring the index of a key to the given claims; also the number of semantic
comparisons. -/
def updateDirectConflictIndex (index : DirectConflictIndex) (claims : List Claim)
    (registry : PredicateRegistry) : Result (DirectConflictIndex × Nat) := do
  let desired := Dict.ofItems Claim.claimId claims
  let removed := index.claimsById.keys.filter fun claimId => !desired.contains claimId
  let kept := removed.foldl removeClaim index
  let added := desired.toList.filter fun entry => !kept.claimsById.contains entry.1
  (added.map Prod.snd).foldlM (addClaim registry) (kept, 0)

/-- The conflict that the index of a key amounts to. -/
def conflictFromDirectIndex (index : DirectConflictIndex) (context : ConflictDetectionContext)
    (key : ClaimKey) : Result (Option ConflictSet) := do
  if index.incompatiblePairs.isEmpty then return none
  let participantIds := index.incompatiblePairs.keys.flatMap fun pair => [pair.1, pair.2]
  let candidates := (sortedSet participantIds).filterMap fun claimId => index.claimsById[claimId]?
  let conflict ← directFinding context key candidates (Dict.values index.incompatiblePairs)
  return some conflict

end Statefuse
