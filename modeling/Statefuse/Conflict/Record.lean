import Statefuse.OpLog

/-!
# Predicate rules and conflict records

A conflict names the claims that disagree, under an identifier derived from them
and under a reference derived from the place of the disagreement alone.  The
constructor sorts the candidates and the keys; a conflict that exists is in that
form (`ConflictFields.Valid`).
-/

namespace Statefuse

open Foundation

set_option synthInstance.maxSize 1024

/-- How the values of one predicate are compared.  The functions are total and
deterministic. -/
structure PredicateRule where
  multiValued : Bool
  normalize : Option (JSONValue → JSONValue)
  equal : Option (JSONValue → JSONValue → Bool)
  normalizeForClaimRef : Bool

structure PredicateRegistry where
  rules : Dict String PredicateRule

namespace PredicateRegistry

def empty : PredicateRegistry := ⟨∅⟩

def register (registry : PredicateRegistry) (predicate : String) (rule : PredicateRule) :
    PredicateRegistry :=
  ⟨registry.rules.insert predicate rule⟩

def ruleFor (registry : PredicateRegistry) (predicate : String) : PredicateRule :=
  registry.rules[predicate]?.getD ⟨false, none, none, false⟩

def isMultiValued (registry : PredicateRegistry) (predicate : String) : Bool :=
  (registry.ruleFor predicate).multiValued

def normalizeValue (registry : PredicateRegistry) (predicate : String) (value : JSONValue) :
    JSONValue :=
  match (registry.ruleFor predicate).normalize with
  | none => value
  | some normalize => normalize value

def valuesEqual (registry : PredicateRegistry) (predicate : String) (left right : JSONValue) :
    Bool :=
  match (registry.ruleFor predicate).equal with
  | some equal => equal left right
  | none => pyEq (registry.normalizeValue predicate left) (registry.normalizeValue predicate right)

def claimRefValue (registry : PredicateRegistry) (predicate : String) (value : JSONValue) :
    JSONValue :=
  match (registry.ruleFor predicate).normalize with
  | none => value
  | some normalize =>
      if (registry.ruleFor predicate).normalizeForClaimRef then normalize value else value

/-- The claim reference under which retractions by content find a claim. -/
def claimRefForClaim [Runtime] (registry : PredicateRegistry) (claim : Claim) : String :=
  claimRefFromPayload (claimRefPayload claim.key
    (registry.claimRefValue claim.key.predicate claim.value) claim.kind claim.context)

end PredicateRegistry

variable [Runtime]

/-! ## Conflicts -/

def directConflictType : String := "same_key_distinct_value"

/-- The identity of conflicts that were there before detectors could be added. -/
def isLegacy (key : ClaimKey) (conflictType : String) (keys : List ClaimKey)
    (detectorId : String) : Bool :=
  conflictType = directConflictType ∧ detectorId = "direct" ∧ ∀ other ∈ keys, other = key

def deriveConflictRef (key : ClaimKey) (conflictType : String) (keys : List ClaimKey)
    (detectorId : String) : String :=
  let payload := objectOf [("conflict_type", .str conflictType), ("key", .obj key.toDict)]
  "conflict-ref:" ++ digestJsonValue (.obj
    (if isLegacy key conflictType keys detectorId then payload
      else payload.insert "detector_id" (.str detectorId)))

def deriveConflictId (key : ClaimKey) (claimIds : List String) (conflictType : String)
    (keys : List ClaimKey) (detectorId : String) : String :=
  "conflict:" ++ digestJsonValue (.obj
    (if isLegacy key conflictType keys detectorId then
      objectOf [("key", .obj key.toDict), ("claim_ids", strList (sortBy id claimIds))]
    else
      objectOf [("conflict_ref", .str (deriveConflictRef key conflictType keys detectorId)),
        ("claim_ids", strList (sortBy id claimIds))]))

theorem deriveConflictRef_ne_empty (key : ClaimKey) (conflictType : String)
    (keys : List ClaimKey) (detectorId : String) :
    deriveConflictRef key conflictType keys detectorId ≠ "" := by
  intro empty
  have lengths := congrArg String.length empty
  simp [deriveConflictRef, String.length_append] at lengths

theorem deriveConflictId_ne_empty (key : ClaimKey) (claimIds : List String) (conflictType : String)
    (keys : List ClaimKey) (detectorId : String) :
    deriveConflictId key claimIds conflictType keys detectorId ≠ "" := by
  intro empty
  have lengths := congrArg String.length empty
  simp [deriveConflictId, String.length_append] at lengths

structure ConflictFields where
  conflictId : String
  key : ClaimKey
  candidates : List Claim
  distinctValues : List JSONValue
  reason : String
  conflictRef : String
  conflictType : String
  keys : List ClaimKey
  conflictClass : String
  conflictSubclass : String
  detectorId : String
  annotations : JSONObject
  witness : JSONObject
  deriving DecidableEq

namespace ConflictFields

/-- The constructor sorts candidates and keys, adds the keys of the candidates and
derives a missing reference. -/
def normalized (fields : ConflictFields) : ConflictFields :=
  let keys := sortedSet (fields.key :: fields.keys ++ fields.candidates.map Claim.key)
  { fields with
    candidates := sortBy Claim.claimId fields.candidates
    keys := keys
    conflictRef :=
      if fields.conflictRef = "" then
        deriveConflictRef fields.key fields.conflictType keys fields.detectorId
      else fields.conflictRef }

/-- What the constructor establishes. -/
structure Valid (fields : ConflictFields) : Prop where
  candidatesSorted : fields.candidates.Pairwise (fun first second => first.claimId < second.claimId)
  keysSorted : fields.keys.Pairwise (· < ·)
  keyListed : fields.key ∈ fields.keys
  candidateKeysListed : ∀ claim ∈ fields.candidates, claim.key ∈ fields.keys
  identifiersPresent : fields.conflictId ≠ "" ∧ fields.conflictType ≠ "" ∧
    fields.conflictClass ≠ "" ∧ fields.conflictSubclass ≠ "" ∧ fields.detectorId ≠ ""
  conflictRefPresent : fields.conflictRef ≠ ""

theorem Valid.normalized_eq {fields : ConflictFields} (valid : fields.Valid) :
    fields.normalized = fields := by
  have candidates : sortBy Claim.claimId fields.candidates = fields.candidates :=
    sortBy_of_pairwise (valid.candidatesSorted.imp (fun below => le_of_lt below))
  have keys : sortedSet (fields.key :: fields.keys ++ fields.candidates.map Claim.key) =
      fields.keys := by
    apply sortedSet_eq valid.keysSorted
    intro key
    constructor
    · intro member
      simp [member]
    · intro member
      rcases List.mem_append.mp member with listed | candidate
      · rcases List.mem_cons.mp listed with same | listed
        · rw [same]
          exact valid.keyListed
        · exact listed
      · obtain ⟨claim, among, same⟩ := List.mem_map.mp candidate
        rw [← same]
        exact valid.candidateKeysListed claim among
  simp only [normalized, candidates, keys, if_neg valid.conflictRefPresent]

theorem valid_normalized {fields : ConflictFields}
    (distinct : (fields.candidates.map Claim.claimId).Nodup)
    (present : fields.conflictId ≠ "" ∧ fields.conflictType ≠ "" ∧ fields.conflictClass ≠ "" ∧
      fields.conflictSubclass ≠ "" ∧ fields.detectorId ≠ "") : fields.normalized.Valid where
  candidatesSorted := by
    have below := sortBy_pairwise Claim.claimId fields.candidates
    have nodup : ((sortBy Claim.claimId fields.candidates).map Claim.claimId).Nodup :=
      ((sortBy_perm Claim.claimId fields.candidates).map Claim.claimId).nodup_iff.mpr distinct
    exact (below.and (List.pairwise_map.mp nodup)).imp
      (fun both => lt_of_le_of_ne both.1 both.2)
  keysSorted := sortedSet_sorted _
  keyListed := by
    simp [normalized]
  candidateKeysListed := by
    intro claim member
    have original : claim ∈ fields.candidates := mem_sortBy.mp member
    simp only [normalized, mem_sortedSet, List.cons_append, List.mem_cons, List.mem_append,
      List.mem_map]
    exact Or.inr (Or.inr ⟨claim, original, rfl⟩)
  identifiersPresent := present
  conflictRefPresent := by
    simp only [normalized]
    split
    · exact deriveConflictRef_ne_empty _ _ _ _
    · assumption

end ConflictFields

structure ConflictSet extends ConflictFields where
  valid : toConflictFields.Valid
  deriving DecidableEq

namespace ConflictSet

theorem candidates_nodup (conflict : ConflictSet) : conflict.candidates.Nodup := by
  refine conflict.valid.candidatesSorted.imp ?_
  intro first second below same
  rw [same] at below
  exact lt_irrefl _ below

instance : PyEq ConflictSet where
  Key := (String × ClaimKey × List (PyEq.Key Claim) × List (Json ℚ)) ×
    (String × String × String × List ClaimKey) × (String × String × String) × (Json ℚ × Json ℚ)
  decidableKey := inferInstance
  key conflict :=
    ((conflict.conflictId, conflict.key, conflict.candidates.map PyEq.key,
        conflict.distinctValues.map PyEq.key),
      (conflict.reason, conflict.conflictRef, conflict.conflictType, conflict.keys),
      (conflict.conflictClass, conflict.conflictSubclass, conflict.detectorId),
      (PyEq.key conflict.annotations, PyEq.key conflict.witness))

def create (fields : ConflictFields) : Result ConflictSet :=
  if distinct : (fields.candidates.map Claim.claimId).Nodup then
    if present : fields.conflictId ≠ "" ∧ fields.conflictType ≠ "" ∧ fields.conflictClass ≠ "" ∧
        fields.conflictSubclass ≠ "" ∧ fields.detectorId ≠ "" then
      .ok ⟨fields.normalized, ConflictFields.valid_normalized distinct present⟩
    else valueError "Conflict identifiers, type, class, and detector_id are required."
  else valueError "Conflict candidates must have unique claim IDs."

end ConflictSet

structure ConflictDetectionContext where
  activeClaimsByKey : Dict ClaimKey (List Claim)
  claimsById : Dict String Claim
  evidenceById : Dict String Evidence
  sourcesById : Dict String Source
  derivationsById : Dict String Derivation
  activeDecisions : List Decision
  predicateRegistry : PredicateRegistry

/-- A detector reports conflicts of a detection context, or raises. -/
abbrev ConflictDetector : Type := ConflictDetectionContext → Result (List ConflictSet)

/-- The values among which no two are equal, in the order of first appearance. -/
def distinctValuesFirst (values : List JSONValue) : List JSONValue :=
  values.foldl (fun distinct value =>
    if distinct.any (fun other => pyEq other value) then distinct else distinct ++ [value]) []

/-- `make_conflict`; `none` stands for an argument that is not given. -/
def makeConflict (candidates : List Claim) (conflictType reason detectorId conflictClass
    conflictSubclass : String) (key : Option ClaimKey) (keys : List ClaimKey)
    (distinctValues : Option (List JSONValue)) (annotations witness : JSONObject) :
    Result ConflictSet :=
  let ordered := sortBy Claim.claimId candidates
  match ordered with
  | [] => valueError "A conflict requires at least one candidate claim."
  | first :: _ =>
      let relatedKeys := sortedSet (keys ++ ordered.map Claim.key)
      if key = none ∧ 1 < relatedKeys.length then
        valueError "Multi-key conflicts require an explicit stable key anchor."
      else
        let anchor := key.getD (relatedKeys.headD first.key)
        ConflictSet.create {
          conflictId := deriveConflictId anchor (ordered.map Claim.claimId) conflictType
            relatedKeys detectorId
          key := anchor
          candidates := ordered
          distinctValues :=
            distinctValues.getD (distinctValuesFirst (ordered.map Claim.value))
          reason := reason
          conflictRef := deriveConflictRef anchor conflictType relatedKeys detectorId
          conflictType := conflictType
          keys := relatedKeys
          conflictClass := conflictClass
          conflictSubclass := conflictSubclass
          detectorId := detectorId
          annotations := annotations
          witness := witness }

end Statefuse
