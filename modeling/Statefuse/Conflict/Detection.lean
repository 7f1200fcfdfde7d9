import Statefuse.Conflict.Record

/-!
# Direct conflicts

The direct detector reports at most one conflict for each claim key: the active
claims of the key that are incompatible with another one in an overlapping context
and an overlapping validity.

Validity bounds are read when they are compared, so detection can raise on a claim
with a single bound that is no timestamp.
-/

namespace Statefuse

open Foundation

variable [Runtime]

/-- The names that both contexts bind are bound to equal values. -/
def contextsOverlap (left right : JSONObject) : Bool :=
  left.toList.all fun entry =>
    match right[entry.1]? with
    | none => true
    | some value => pyEq entry.2 value

abbrev ValidityBounds : Type := Option Instant × Option Instant

def readBound (bound : Option String) : Result (Option Instant) :=
  match bound with
  | none => .ok none
  | some text => (parseUtcIso text).map some

def validityBounds (interval : Option ValidityInterval) : Result ValidityBounds :=
  match interval with
  | none => .ok (none, none)
  | some interval => do
      let validFrom ← readBound interval.validFrom
      let validUntil ← readBound interval.validUntil
      return (validFrom, validUntil)

/-- An interval whose two bounds are equal is empty. -/
def emptyBounds (bounds : ValidityBounds) : Bool :=
  match bounds with
  | (some start, some stop) => start == stop
  | _ => false

/-- The first interval ends before the second one starts. -/
def endsBefore (first second : ValidityBounds) : Bool :=
  match first.2, second.1 with
  | some stop, some start => decide (stop ≤ start)
  | _, _ => false

def validityBoundsOverlap (left right : ValidityBounds) : Bool :=
  !emptyBounds left && !emptyBounds right && !endsBefore left right && !endsBefore right left

def validityOverlaps (left right : Option ValidityInterval) : Result Bool := do
  let leftBounds ← validityBounds left
  let rightBounds ← validityBounds right
  return validityBoundsOverlap leftBounds rightBounds

/-- The bounds contain an instant. -/
def boundsContain (bounds : ValidityBounds) (instant : Instant) : Bool :=
  (match bounds.1 with
    | none => true
    | some start => decide (start ≤ instant)) &&
  (match bounds.2 with
    | none => true
    | some stop => decide (instant < stop))

/-- Some name of the query is bound to another value by the claim. -/
def contextExcludes (claim : Claim) (context : JSONObject) : Bool :=
  context.toList.any fun entry => !pyEq (claim.context[entry.1]?.getD entry.2) entry.2

/-- A claim applies in a context and at an instant; a missing context or instant
is no restriction. -/
def claimApplies (claim : Claim) (validAt : Option String) (context : JSONObject) : Result Bool :=
  if contextExcludes claim context then .ok false
  else
    match validAt with
    | none => .ok true
    | some validAt => do
        let instant ← parseUtcIso validAt
        let bounds ← validityBounds claim.validity
        return boundsContain bounds instant

/-- The first of the texts whose instant no other one comes before. -/
def extremum (before : Instant → Instant → Bool) (texts : List String) :
    Result (Option String) :=
  match texts with
  | [] => .ok none
  | first :: rest => do
      let instant ← parseUtcIso first
      let best ← rest.foldlM (fun (best : String × Instant) text => do
        let instant ← parseUtcIso text
        return if before instant best.2 then (text, instant) else best) (first, instant)
      return some best.1

/-- `max(texts, key=parse_utc_iso)`. -/
def latest (texts : List String) : Result (Option String) :=
  extremum (fun instant best => decide (best < instant)) texts

/-- `min(texts, key=parse_utc_iso)`. -/
def earliest (texts : List String) : Result (Option String) :=
  extremum (fun instant best => decide (instant < best)) texts

/-- `{**left, **right}`. -/
def mergeContexts (left right : JSONObject) : JSONObject :=
  right.toList.foldl (fun members entry => members.insert entry.1 entry.2) left

def overlapWitness (left right : Claim) : Result JSONObject := do
  let starts := [left.validity.bind (·.validFrom), right.validity.bind (·.validFrom)].reduceOption
  let ends := [left.validity.bind (·.validUntil), right.validity.bind (·.validUntil)].reduceOption
  let validFrom ← latest starts
  let validUntil ← earliest ends
  return objectOf [("claim_ids", strList [left.claimId, right.claimId]),
    ("valid_from", optionalStr validFrom), ("valid_until", optionalStr validUntil),
    ("context", .obj (mergeContexts left.context right.context))]

/-! ## Classification -/

/-- The class and subclass of the claims of one kind. -/
def kindTaxonomy : String → Option (String × String)
  | "belief" => some ("epistemic", "source.belief")
  | "instruction" => some ("normative", "instruction")
  | "preference" => some ("normative", "preference")
  | "policy" => some ("normative", "policy.rule")
  | "goal" => some ("normative", "goal")
  | _ => none

def taxonomyFor (claims : List Claim) : String × String :=
  let classified := (claims.filterMap fun claim => kindTaxonomy claim.kind).dedup
  match classified, (classified.map Prod.fst).dedup with
  | [only], _ => only
  | _, [onlyClass] => (onlyClass, "mixed")
  | _, _ => ("epistemic", "factual.value")

def isNumeric (value : JSONValue) : Bool :=
  match value.asNumber? with
  | some (.int _) => true
  | some (.float _) => true
  | _ => false

def isCategorical (value : JSONValue) : Bool :=
  match value.asStr?, value.asNumber? with
  | some _, _ => true
  | none, some (.bool _) => true
  | _, _ => false

/-- The types of the sources behind the evidence of the claims. -/
def sourceTypesOf (claims : List Claim) (context : ConflictDetectionContext) : List String :=
  sortedSet <| claims.flatMap fun claim =>
    claim.evidenceIds.filterMap fun evidenceId => do
      let evidence ← context.evidenceById[evidenceId]?
      let sourceId ← evidence.sourceId
      let source ← context.sourcesById[sourceId]?
      return source.sourceType

/-- Some claim was derived from more than one input. -/
def isMultiHop (claims : List Claim) (context : ConflictDetectionContext) : Bool :=
  claims.any fun claim =>
    match claim.derivationId.bind (fun derivationId => context.derivationsById[derivationId]?) with
    | none => false
    | some derivation => 1 < derivation.inputClaimIds.length

def representationOf (values : List JSONValue) : String :=
  if values ≠ [] ∧ values.all isNumeric then "numeric"
  else if values ≠ [] ∧ values.all isCategorical then "categorical"
  else "structured"

def annotationsFor (claims : List Claim) (context : ConflictDetectionContext) : JSONObject :=
  let sourceTypes := sourceTypesOf claims context
  withField (objectOf [("representation", .str (representationOf (claims.map Claim.value))),
    ("dependency_depth", .str (if isMultiHop claims context then "multi_hop" else "direct"))])
    "provenance" (if sourceTypes = [] then none else some (strList sourceTypes))

mutual

/-- The key of a JSON tree.  The first entry of the source's tuples is the constructor; a
number enters with its value, since the host hashes and compares `True`, `1` and `1.0` as
one. -/
def treeEqualityKey : Json PyNumber → Json ℚ
  | .null => .null
  | .number value => .number value.value
  | .str value => .str value
  | .arr items => .arr (itemEqualityKeys items)
  | .obj members => .obj (sortBy Prod.fst (memberEqualityKeys members))

def itemEqualityKeys : List (Json PyNumber) → List (Json ℚ)
  | [] => []
  | head :: tail => treeEqualityKey head :: itemEqualityKeys tail

def memberEqualityKeys : List (String × Json PyNumber) → List (String × Json ℚ)
  | [] => []
  | (name, head) :: tail => (name, treeEqualityKey head) :: memberEqualityKeys tail

end

/-- `_context_equality_key`: the key under which a context value is collected. -/
def contextEqualityKey (value : JSONValue) : Json ℚ := treeEqualityKey value.1

/-- One context entry is added to the keys seen for its name; nothing remains once a name
has two keys. -/
def addContextValue (seen : Option (Dict String (List (Json ℚ)))) (entry : String × JSONValue) :
    Option (Dict String (List (Json ℚ))) :=
  seen.bind fun contextValues =>
    let values := contextValues[entry.1]?.getD []
    let key := contextEqualityKey entry.2
    let values := if key ∈ values then values else values ++ [key]
    if 1 < values.length then none else some (contextValues.insert entry.1 values)

/-- Some name is bound to two values by the contexts of the claims. -/
def contextsDiffer (claims : List Claim) : Bool :=
  ((claims.flatMap fun claim => claim.context.toList).foldl addContextValue (some ∅)).isNone

/-- The bounds that are there, read one after the other. -/
def readBounds (bound : ValidityInterval → Option String) (claims : List Claim) :
    Result (List Instant) :=
  (claims.filterMap fun claim => claim.validity.bind bound).mapM parseUtcIso

/-- No single context and instant covers all of the claims. -/
def hasAggregateApplicability (claims : List Claim) : Result Bool :=
  if contextsDiffer claims then .ok true
  else do
    let starts ← readBounds (·.validFrom) claims
    let ends ← readBounds (·.validUntil) claims
    match starts.max?, ends.min? with
    | some start, some stop => return decide (stop ≤ start)
    | _, _ => return false

def distinctValuesForClaims (predicate : String) (claims : List Claim)
    (registry : PredicateRegistry) : List JSONValue :=
  claims.foldl (fun distinct claim =>
    if distinct.any (fun value => registry.valuesEqual predicate claim.value value) then distinct
    else distinct ++ [claim.value]) []

/-- `itertools.combinations(items, 2)`. -/
def combinations {α : Type} : List α → List (α × α)
  | [] => []
  | first :: rest => rest.map (fun second => (first, second)) ++ combinations rest

/-- The values differ while contexts and validities overlap. -/
def incompatible (registry : PredicateRegistry) (key : ClaimKey) (left right : Claim) :
    Result Bool :=
  if registry.valuesEqual key.predicate left.value right.value then .ok false
  else if contextsOverlap left.context right.context then
    validityOverlaps left.validity right.validity
  else .ok false

/-- The finding about a key: its candidates and the witnesses of the pairs among
them.  The full and the incremental detector both end in it. -/
def directFinding (context : ConflictDetectionContext) (key : ClaimKey) (candidates : List Claim)
    (witnesses : List JSONObject) : Result ConflictSet := do
  let taxonomy := taxonomyFor candidates
  let annotations := annotationsFor candidates context
  let aggregate ← hasAggregateApplicability candidates
  let annotations :=
    if aggregate then annotations.insert "applicability" (.str "aggregate") else annotations
  makeConflict candidates directConflictType
    "functional predicate has incompatible active values in overlapping context and validity"
    "direct" taxonomy.1 taxonomy.2 (some key) [key]
    (some (distinctValuesForClaims key.predicate candidates context.predicateRegistry))
    annotations (objectOf [("incompatible_pairs", .arr (witnesses.map .obj))])

/-- The direct conflict of one key. -/
def directConflictFor (context : ConflictDetectionContext) (key : ClaimKey)
    (claimsForKey : List Claim) : Result (Option ConflictSet) := do
  let registry := context.predicateRegistry
  let claims := sortBy Claim.claimId claimsForKey
  if claims.length ≤ 1 ∨ registry.isMultiValued key.predicate then return none
  let incompatiblePairs ← (combinations claims).filterM fun pair =>
    incompatible registry key pair.1 pair.2
  if incompatiblePairs = [] then return none
  let participantIds := incompatiblePairs.flatMap fun pair => [pair.1.claimId, pair.2.claimId]
  let candidates := claims.filter fun claim => claim.claimId ∈ participantIds
  let witnesses ← incompatiblePairs.mapM fun pair => overlapWitness pair.1 pair.2
  let conflict ← directFinding context key candidates witnesses
  return some conflict

def directConflicts (context : ConflictDetectionContext) : Result (List ConflictSet) := do
  let found ← context.activeClaimsByKey.toList.mapM fun entry =>
    directConflictFor context entry.1 entry.2
  return found.reduceOption

/-- The conflicts accepted so far, by identifier, and the identifier of each
reference. -/
structure AcceptedConflicts where
  byId : Dict String ConflictSet
  refs : Dict String String

/-- The candidates that are not active claims of the context. -/
def missingCandidates (context : ConflictDetectionContext) (conflict : ConflictSet) :
    List String :=
  sortBy id <| (conflict.candidates.filter fun claim =>
    match context.claimsById[claim.claimId]? with
    | none => true
    | some active => !pyEq active claim).map Claim.claimId

/-- One round of the loop over all findings. -/
def acceptConflict (context : ConflictDetectionContext) (accepted : AcceptedConflicts)
    (conflict : ConflictSet) : Result AcceptedConflicts :=
  let missing := missingCandidates context conflict
  if missing ≠ [] then
    valueError ("Conflict detector referenced inactive, unknown, or modified claims: " ++
      String.intercalate ", " missing)
  else if conflict.conflictRef ≠ deriveConflictRef conflict.key conflict.conflictType
        conflict.keys conflict.detectorId ∨
      conflict.conflictId ≠ deriveConflictId conflict.key
        (conflict.candidates.map Claim.claimId) conflict.conflictType conflict.keys
        conflict.detectorId then
    valueError "Conflict detectors must use canonical identities; call make_conflict()."
  else
    match accepted.byId[conflict.conflictId]? with
    | some existing =>
        if pyEq existing conflict then .ok accepted
        else valueError ("conflict_id collision: " ++ conflict.conflictId)
    | none =>
        match accepted.refs[conflict.conflictRef]? with
        | some priorId =>
            if priorId ≠ conflict.conflictId then
              valueError ("conflict_ref collision: " ++ conflict.conflictRef)
            else
              .ok ⟨accepted.byId.insert conflict.conflictId conflict,
                accepted.refs.insert conflict.conflictRef conflict.conflictId⟩
        | none =>
            .ok ⟨accepted.byId.insert conflict.conflictId conflict,
              accepted.refs.insert conflict.conflictRef conflict.conflictId⟩

/-- Direct conflicts first, then those of the custom detectors; the result is
ordered by identifier. -/
def runConflictDetectors (context : ConflictDetectionContext)
    (detectors : List ConflictDetector) : Result (List ConflictSet) := do
  let direct ← directConflicts context
  let custom ← detectors.mapM fun detector => detector context
  let accepted ← (direct ++ custom.flatten).foldlM (acceptConflict context) ⟨∅, ∅⟩
  return Dict.values accepted.byId

end Statefuse
