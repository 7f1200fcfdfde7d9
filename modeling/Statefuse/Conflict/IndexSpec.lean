import Statefuse.Conflict.DetectionSpec

/-!
# What the direct conflict index holds

`IndexFor` says what the index of a key holds for given claims.  It determines the
index, and it is what building, removing a claim and adding a claim establish or
preserve, so the index of a key is the same however it came about.  The conflict read
off an index is the one the direct detector reports for its claims
(`conflictFromDirectIndex_eq`).
-/

namespace Statefuse

open Foundation

theorem contextsOverlap_iff (left right : JSONObject) : contextsOverlap left right = true ↔
    ∀ (name : String) (first second : JSONValue), left[name]? = some first →
      right[name]? = some second → pyEq first second = true := by
  rw [contextsOverlap, List.all_eq_true]
  constructor
  · intro all name first second bound other
    have agrees := all (name, first) ((Dict.mem_toList left name first).mpr bound)
    simp only [other] at agrees
    exact agrees
  · rintro agree ⟨name, first⟩ member
    have bound := (Dict.mem_toList left name first).mp member
    cases other : right[name]? with
    | none => simp only
    | some second => exact agree name first second bound other

theorem contextsOverlap_comm (left right : JSONObject) :
    contextsOverlap left right = contextsOverlap right left := by
  rw [Bool.eq_iff_iff, contextsOverlap_iff, contextsOverlap_iff]
  constructor
  · intro agree name first second bound other
    rw [pyEq_comm]
    exact agree name second first other bound
  · intro agree name first second bound other
    rw [pyEq_comm]
    exact agree name second first other bound

theorem validityBoundsOverlap_comm (left right : ValidityBounds) :
    validityBoundsOverlap left right = validityBoundsOverlap right left := by
  unfold validityBoundsOverlap
  cases emptyBounds left <;> cases emptyBounds right <;> cases endsBefore left right <;>
    cases endsBefore right left <;> rfl

variable [Runtime]

theorem incompatible_iff (registry : PredicateRegistry) (key : ClaimKey) {left right : Claim}
    {leftBounds rightBounds : ValidityBounds}
    (leftRead : validityBounds left.validity = .ok leftBounds)
    (rightRead : validityBounds right.validity = .ok rightBounds) :
    incompatible registry key left right = .ok true ↔
      registry.valuesEqual key.predicate left.value right.value = false ∧
        contextsOverlap left.context right.context = true ∧
        validityBoundsOverlap leftBounds rightBounds = true := by
  unfold incompatible
  rw [validityOverlaps, bind_of_ok leftRead, bind_of_ok rightRead]
  cases registry.valuesEqual key.predicate left.value right.value with
  | true => simp
  | false =>
      cases contextsOverlap left.context right.context with
      | true => simp [pure_ok_iff]
      | false => simp

/-- Two claims of a key that are incompatible, the one with the lesser id first. -/
def Clash (registry : PredicateRegistry) (key : ClaimKey) (first second : Claim) : Prop :=
  first.claimId < second.claimId ∧ registry.isMultiValued key.predicate = false ∧
    incompatible registry key first second = .ok true

/-- Both claims are members. -/
def Both (member : Claim → Prop) (first second : Claim) : Prop := member first ∧ member second

/-- The ids of two known claims that clash, in either order. -/
def Adjacent (registry : PredicateRegistry) (key : ClaimKey) (known : Claim → Claim → Prop)
    (claimId otherId : String) : Prop :=
  ∃ first second, known first second ∧ Clash registry key first second ∧
    ((first.claimId = claimId ∧ second.claimId = otherId) ∨
      (second.claimId = claimId ∧ first.claimId = otherId))

theorem Adjacent.symm {registry : PredicateRegistry} {key : ClaimKey}
    {known : Claim → Claim → Prop} {claimId otherId : String}
    (adjacent : Adjacent registry key known claimId otherId) :
    Adjacent registry key known otherId claimId := by
  obtain ⟨first, second, listed, clash, ids⟩ := adjacent
  refine ⟨first, second, listed, clash, ?_⟩
  rcases ids with ⟨left, right⟩ | ⟨left, right⟩
  · exact Or.inr ⟨right, left⟩
  · exact Or.inl ⟨right, left⟩

/-- A pair of known claims that clash, and its witness. -/
def ClashWitness (registry : PredicateRegistry) (key : ClaimKey) (known : Claim → Claim → Prop)
    (pair : ClaimPair) (witness : JSONObject) : Prop :=
  ∃ first second, known first second ∧ Clash registry key first second ∧
    toLex (first.claimId, second.claimId) = pair ∧ overlapWitness first second = .ok witness

/-- The index of a key with these claims. -/
structure IndexFor (registry : PredicateRegistry) (key : ClaimKey) (member : Claim → Prop)
    (index : DirectConflictIndex) : Prop where
  claims : Lists index.claimsById Claim.claimId member
  keyed : ∀ claim, member claim → claim.key = key
  readable : ∀ claim, member claim → Readable claim
  values : Projects index.normalizedValuesByClaimId Claim.claimId member
    (fun claim value => indexedValue registry claim = value)
  contexts : Projects index.contextsByClaimId Claim.claimId member
    (fun claim context => claim.context = context)
  validity : Projects index.validityByClaimId Claim.claimId member
    (fun claim bounds => validityBounds claim.validity = .ok bounds)
  pairs : Maps index.incompatiblePairs (ClashWitness registry key (Both member))
  adjacent : SetTable index.adjacentClaimIds
    (fun claimId => ∃ claim, member claim ∧ claim.claimId = claimId)
    (Adjacent registry key (Both member))

namespace IndexFor

variable {registry : PredicateRegistry} {key : ClaimKey} {member fresh : Claim → Prop}
variable {index other : DirectConflictIndex}

/-- The claims of a key determine its index. -/
theorem unique (first : IndexFor registry key member index)
    (second : IndexFor registry key member other) : index = other := by
  have claims := first.claims.unique second.claims
  have values := Maps.unique first.values second.values
  have contexts := Maps.unique first.contexts second.contexts
  have validity := Maps.unique first.validity second.validity
  have pairs := first.pairs.unique second.pairs
  have adjacent := first.adjacent.unique second.adjacent
  cases index
  cases other
  simp only at claims values contexts validity pairs adjacent
  rw [claims, values, contexts, validity, pairs, adjacent]

theorem congr (indexed : IndexFor registry key member index)
    (same : ∀ claim, member claim ↔ fresh claim) : IndexFor registry key fresh index := by
  have equal : member = fresh := funext fun claim => propext (same claim)
  rw [← equal]
  exact indexed

theorem empty (registry : PredicateRegistry) (key : ClaimKey) :
    IndexFor registry key (fun _ => False) .empty where
  claims := Lists.empty
  keyed := fun _ => False.elim
  readable := fun _ => False.elim
  values := Projects.empty
  contexts := Projects.empty
  validity := Projects.empty
  pairs := Maps.empty.congr (by simp [ClashWitness, Both])
  adjacent := ⟨by simp [DirectConflictIndex.empty],
    by simp [DirectConflictIndex.empty, Adjacent, Both]⟩

/-- A claim id names at most one claim of the index. -/
theorem eq_of_id (indexed : IndexFor registry key member index) {first second : Claim}
    (firstMember : member first) (secondMember : member second)
    (same : first.claimId = second.claimId) : first = second :=
  indexed.claims.eq_of_key firstMember secondMember same

end IndexFor

/-! ## Removing a claim -/

private theorem pairKey_eq_iff {claimId otherId : String} {first second : Claim}
    (below : first.claimId < second.claimId) :
    toLex (first.claimId, second.claimId) = pairKey claimId otherId ↔
      (first.claimId = claimId ∧ second.claimId = otherId) ∨
        (second.claimId = claimId ∧ first.claimId = otherId) := by
  unfold pairKey
  constructor
  · intro same
    split at same
    · have parts : (first.claimId, second.claimId) = (claimId, otherId) := same
      injection parts with left right
      exact Or.inl ⟨left, right⟩
    · have parts : (first.claimId, second.claimId) = (otherId, claimId) := same
      injection parts with left right
      exact Or.inr ⟨right, left⟩
  · rintro (⟨left, right⟩ | ⟨left, right⟩)
    · rw [← left, ← right, if_pos (le_of_lt below)]
    · rw [← left, ← right, if_neg (not_le_of_gt below)]

theorem removeClaim_spec {registry : PredicateRegistry} {key : ClaimKey} {member : Claim → Prop}
    {index : DirectConflictIndex} (indexed : IndexFor registry key member index)
    (claimId : String) :
    IndexFor registry key (fun claim => member claim ∧ claim.claimId ≠ claimId)
      (removeClaim index claimId) := by
  have neighbours : ∀ otherId,
      otherId ∈ (index.adjacentClaimIds[claimId]?.getD ∅).toList ↔
        Adjacent registry key (Both member) claimId otherId := by
    intro otherId
    rw [PySet.mem_toList, indexed.adjacent.exact]
  refine ⟨indexed.claims.erase claimId, fun claim kept => indexed.keyed claim kept.1,
    fun claim kept => indexed.readable claim kept.1, indexed.values.erase claimId,
    indexed.contexts.erase claimId, indexed.validity.erase claimId, ?_, ?_⟩
  · refine (indexed.pairs.eraseAll (pairKey claimId) _).congr ?_
    intro pair witness
    constructor
    · rintro ⟨⟨first, second, ⟨firstMember, secondMember⟩, clash, same, computed⟩, untouched⟩
      refine ⟨first, second, ⟨⟨firstMember, ?_⟩, ⟨secondMember, ?_⟩⟩, clash, same, computed⟩
      · intro equal
        apply untouched second.claimId
          ((neighbours _).mpr
            ⟨first, second, ⟨firstMember, secondMember⟩, clash, Or.inl ⟨equal, rfl⟩⟩)
        rw [← same, pairKey_eq_iff clash.1]
        exact Or.inl ⟨equal, rfl⟩
      · intro equal
        apply untouched first.claimId
          ((neighbours _).mpr
            ⟨first, second, ⟨firstMember, secondMember⟩, clash, Or.inr ⟨equal, rfl⟩⟩)
        rw [← same, pairKey_eq_iff clash.1]
        exact Or.inr ⟨equal, rfl⟩
    · rintro ⟨first, second, ⟨⟨firstMember, firstKept⟩, ⟨secondMember, secondKept⟩⟩, clash, same,
        computed⟩
      refine ⟨⟨first, second, ⟨firstMember, secondMember⟩, clash, same, computed⟩, ?_⟩
      intro otherId _ equal
      rw [← same, pairKey_eq_iff clash.1] at equal
      rcases equal with ⟨removed, _⟩ | ⟨removed, _⟩
      · exact firstKept removed
      · exact secondKept removed
  · refine ((indexed.adjacent.discardAll claimId _).erase claimId).congr ?_ ?_
    · intro wanted
      constructor
      · rintro ⟨⟨claim, listed, same⟩, different⟩
        exact ⟨claim, ⟨listed, fun equal => different (same.symm.trans equal)⟩, same⟩
      · rintro ⟨claim, ⟨listed, different⟩, same⟩
        exact ⟨⟨claim, listed, same⟩, fun equal => different (same.trans equal)⟩
    · intro wanted otherId
      constructor
      · rintro ⟨⟨adjacent, kept⟩, different⟩
        have otherKept : otherId ≠ claimId := by
          intro equal
          rw [equal] at adjacent
          exact kept ⟨(neighbours wanted).mpr adjacent.symm, equal⟩
        obtain ⟨first, second, ⟨firstMember, secondMember⟩, clash, ids⟩ := adjacent
        refine ⟨first, second, ⟨⟨firstMember, ?_⟩, ⟨secondMember, ?_⟩⟩, clash, ids⟩
        · rcases ids with ⟨left, right⟩ | ⟨left, right⟩
          · rw [left]
            exact different
          · rw [right]
            exact otherKept
        · rcases ids with ⟨left, right⟩ | ⟨left, right⟩
          · rw [right]
            exact otherKept
          · rw [left]
            exact different
      · rintro ⟨first, second, ⟨⟨firstMember, firstKept⟩, ⟨secondMember, secondKept⟩⟩, clash, ids⟩
        refine ⟨⟨⟨first, second, ⟨firstMember, secondMember⟩, clash, ids⟩, ?_⟩, ?_⟩
        · rintro ⟨_, equal⟩
          rcases ids with ⟨_, right⟩ | ⟨_, right⟩
          · exact secondKept (right.trans equal)
          · exact firstKept (right.trans equal)
        · intro equal
          rcases ids with ⟨left, _⟩ | ⟨left, _⟩
          · exact firstKept (left.trans equal)
          · exact secondKept (left.trans equal)

/-! ## Adding a claim -/

/-- Equal normalized values are equal values. -/
private theorem valuesEqual_of_indexed {registry : PredicateRegistry} {left right : Claim}
    (sameKey : left.key = right.key) (standard : (registry.ruleFor left.key.predicate).equal = none)
    (same : pyEq (indexedValue registry left) (indexedValue registry right) = true) :
    registry.valuesEqual left.key.predicate left.value right.value = true := by
  rw [indexedValue, indexedValue, ← sameKey, standard] at same
  rw [PredicateRegistry.valuesEqual, standard]
  exact same

/-- What one comparison of a new claim with an indexed one does. -/
private inductive Compared (registry : PredicateRegistry) (key : ClaimKey) (claim other : Claim)
    (state : Comparison) : Comparison → Prop
  | apart (next : Comparison) (noClash : ¬Clash registry key claim other)
      (noReverse : ¬Clash registry key other claim) (pairs : next.pairs = state.pairs)
      (adjacent : next.adjacent = state.adjacent) : Compared registry key claim other state next
  | clash (first second : Claim)
      (ordered : (first = claim ∧ second = other) ∨ (first = other ∧ second = claim))
      (clashes : Clash registry key first second) (witness : JSONObject)
      (computed : overlapWitness first second = .ok witness) (comparisons : Nat) :
      Compared registry key claim other state
        ⟨state.pairs.insert (toLex (first.claimId, second.claimId)) witness,
          connect state.adjacent (toLex (first.claimId, second.claimId)), comparisons⟩

/-- The values of two claims with overlapping contexts and validities, in the order of
their ids. -/
private theorem compareValues_ok {registry : PredicateRegistry} {key : ClaimKey}
    {claim other first second : Claim} {firstBounds secondBounds : ValidityBounds}
    (ordered : (first = claim ∧ second = other) ∨ (first = other ∧ second = claim))
    (below : first.claimId < second.claimId) (ownKey : claim.key = key)
    (otherKey : other.key = key) (single : registry.isMultiValued key.predicate = false)
    (firstRead : validityBounds first.validity = .ok firstBounds)
    (secondRead : validityBounds second.validity = .ok secondBounds)
    (contexts : contextsOverlap first.context second.context = true)
    (overlap : validityBoundsOverlap firstBounds secondBounds = true) (state : Comparison) :
    ∃ next, (if (registry.ruleFor claim.key.predicate).equal.isNone = true ∧
          pyEq (indexedValue registry first) (indexedValue registry second) = true then pure state
        else if registry.valuesEqual claim.key.predicate first.value second.value = true then
          pure { state with comparisons := state.comparisons + 1 }
        else do
          let witness ← overlapWitness first second
          pure {
            pairs := state.pairs.insert (pairKey claim.claimId other.claimId) witness
            adjacent := connect state.adjacent (pairKey claim.claimId other.claimId)
            comparisons := state.comparisons + 1 } : Result Comparison) = .ok next ∧
      Compared registry key claim other state next := by
  have firstKey : first.key = key := by
    rcases ordered with ⟨same, _⟩ | ⟨same, _⟩ <;> rw [same] <;> assumption
  have secondKey : second.key = key := by
    rcases ordered with ⟨_, same⟩ | ⟨_, same⟩ <;> rw [same] <;> assumption
  have verdict := incompatible_iff registry key firstRead secondRead
  have apart : registry.valuesEqual key.predicate first.value second.value = true →
      ¬Clash registry key claim other ∧ ¬Clash registry key other claim := by
    intro equal
    have noClash : ¬Clash registry key first second := by
      rintro ⟨_, _, incompatible⟩
      have unequal := (verdict.mp incompatible).1
      rw [equal] at unequal
      cases unequal
    have noReverse : ¬Clash registry key second first := fun clash => lt_asymm below clash.1
    rcases ordered with ⟨left, right⟩ | ⟨left, right⟩
    · rw [← left, ← right]
      exact ⟨noClash, noReverse⟩
    · rw [← left, ← right]
      exact ⟨noReverse, noClash⟩
  rw [ownKey]
  by_cases same : (registry.ruleFor key.predicate).equal.isNone = true ∧
      pyEq (indexedValue registry first) (indexedValue registry second) = true
  · rw [if_pos same]
    have equal := valuesEqual_of_indexed (firstKey.trans secondKey.symm)
      (by rw [firstKey]; exact Option.isNone_iff_eq_none.mp same.1) same.2
    rw [firstKey] at equal
    exact ⟨state, rfl, .apart state (apart equal).1 (apart equal).2 rfl rfl⟩
  · rw [if_neg same]
    by_cases equal : registry.valuesEqual key.predicate first.value second.value = true
    · rw [if_pos equal]
      exact ⟨_, rfl, .apart _ (apart equal).1 (apart equal).2 rfl rfl⟩
    · rw [if_neg equal]
      obtain ⟨witness, computed⟩ := overlapWitness_ok ⟨_, firstRead⟩ ⟨_, secondRead⟩
      have clashes : Clash registry key first second :=
        ⟨below, single, verdict.mpr ⟨Bool.eq_false_iff.mpr equal, contexts, overlap⟩⟩
      have pair : pairKey claim.claimId other.claimId =
          toLex (first.claimId, second.claimId) := by
        rw [eq_comm, pairKey_eq_iff below]
        rcases ordered with ⟨left, right⟩ | ⟨left, right⟩
        · exact Or.inl ⟨by rw [left], by rw [right]⟩
        · exact Or.inr ⟨by rw [right], by rw [left]⟩
      rw [bind_of_ok computed, pair]
      exact ⟨_, rfl, .clash first second ordered clashes witness computed _⟩

private theorem compareWith_ok {registry : PredicateRegistry} {key : ClaimKey}
    {member : Claim → Prop} {index : DirectConflictIndex}
    (indexed : IndexFor registry key member index) {claim other : Claim} {bounds : ValidityBounds}
    (listed : member other) (ownKey : claim.key = key)
    (single : registry.isMultiValued key.predicate = false)
    (read : validityBounds claim.validity = .ok bounds)
    (different : claim.claimId ≠ other.claimId) (state : Comparison) :
    ∃ next, compareWith registry index claim bounds state other.claimId other = .ok next ∧
      Compared registry key claim other state next := by
  have otherKey := indexed.keyed other listed
  obtain ⟨otherBounds, otherRead⟩ := indexed.readable other listed
  have context : index.contextsByClaimId[other.claimId]? = some other.context :=
    (indexed.contexts _ _).mpr ⟨other, listed, rfl, rfl⟩
  have validity : index.validityByClaimId[other.claimId]? = some otherBounds :=
    (indexed.validity _ _).mpr ⟨other, listed, rfl, otherRead⟩
  have value : index.normalizedValuesByClaimId[other.claimId]? =
      some (indexedValue registry other) :=
    (indexed.values _ _).mpr ⟨other, listed, rfl, rfl⟩
  have forward := incompatible_iff registry key read otherRead
  have backward := incompatible_iff registry key otherRead read
  rw [contextsOverlap_comm other.context, validityBoundsOverlap_comm otherBounds] at backward
  unfold compareWith
  simp only [context, validity, value, Option.getD_some]
  by_cases contexts : contextsOverlap claim.context other.context = true
  · by_cases overlap : validityBoundsOverlap bounds otherBounds = true
    · rcases lt_or_gt_of_ne different with below | above
      · simp only [contexts, overlap, if_pos below, Bool.not_true, Bool.false_eq_true, if_false]
        exact compareValues_ok (Or.inl ⟨rfl, rfl⟩) below ownKey otherKey single read otherRead
          contexts overlap state
      · simp only [contexts, overlap, if_neg (not_lt_of_gt above), Bool.not_true,
          Bool.false_eq_true, if_false]
        rw [contextsOverlap_comm] at contexts
        rw [validityBoundsOverlap_comm] at overlap
        exact compareValues_ok (Or.inr ⟨rfl, rfl⟩) above ownKey otherKey single otherRead read
          contexts overlap state
    · simp only [contexts, overlap, Bool.not_true, Bool.not_false, Bool.false_eq_true, if_false,
        if_true]
      exact ⟨state, rfl, .apart state (fun clash => overlap (forward.mp clash.2.2).2.2)
        (fun clash => overlap (backward.mp clash.2.2).2.2) rfl rfl⟩
  · simp only [contexts, Bool.not_false, if_true]
    exact ⟨state, rfl, .apart state (fun clash => contexts (forward.mp clash.2.2).2.1)
      (fun clash => contexts (backward.mp clash.2.2).2.1) rfl rfl⟩

/-- The pairs that are known once a new claim is compared with some of the members. -/
private def Known (member : Claim → Prop) (claim : Claim) (done : List (String × Claim))
    (first second : Claim) : Prop :=
  Both member first second ∨ (first = claim ∧ ∃ entry ∈ done, entry.2 = second) ∨
    (second = claim ∧ ∃ entry ∈ done, entry.2 = first)

private theorem known_append (member : Claim → Prop) (claim : Claim) (done : List (String × Claim))
    (entry : String × Claim) (first second : Claim) :
    Known member claim (done ++ [entry]) first second ↔ Known member claim done first second ∨
      (first = claim ∧ second = entry.2) ∨ (second = claim ∧ first = entry.2) := by
  simp only [Known, List.mem_append, List.mem_singleton, or_and_right, exists_or, exists_eq_left]
  constructor
  · rintro (both | ⟨same, done | last⟩ | ⟨same, done | last⟩)
    · exact Or.inl (Or.inl both)
    · exact Or.inl (Or.inr (Or.inl ⟨same, done⟩))
    · exact Or.inr (Or.inl ⟨same, last.symm⟩)
    · exact Or.inl (Or.inr (Or.inr ⟨same, done⟩))
    · exact Or.inr (Or.inr ⟨same, last.symm⟩)
  · rintro ((both | ⟨same, done⟩ | ⟨same, done⟩) | ⟨same, last⟩ | ⟨same, last⟩)
    · exact Or.inl both
    · exact Or.inr (Or.inl ⟨same, Or.inl done⟩)
    · exact Or.inr (Or.inr ⟨same, Or.inl done⟩)
    · exact Or.inr (Or.inl ⟨same, Or.inr last.symm⟩)
    · exact Or.inr (Or.inr ⟨same, Or.inr last.symm⟩)

/-- What the comparisons of a new claim have established so far. -/
private structure Compares (registry : PredicateRegistry) (key : ClaimKey) (member : Claim → Prop)
    (claim : Claim) (done : List (String × Claim)) (state : Comparison) : Prop where
  pairs : Maps state.pairs (ClashWitness registry key (Known member claim done))
  adjacent : ∃ present, SetTable state.adjacent present
      (Adjacent registry key (Known member claim done)) ∧
    (∀ claimId, (∃ other, member other ∧ other.claimId = claimId) → present claimId) ∧
    ∀ claimId, present claimId →
      (∃ other, member other ∧ other.claimId = claimId) ∨ claimId = claim.claimId

section Step

variable {registry : PredicateRegistry} {key : ClaimKey} {member : Claim → Prop} {claim : Claim}
  {done : List (String × Claim)} {entry : String × Claim} {state next : Comparison}

/-- Comparing claims that do not clash establishes no new pair. -/
private theorem compares_apart (compares : Compares registry key member claim done state)
    (noClash : ¬Clash registry key claim entry.2) (noReverse : ¬Clash registry key entry.2 claim)
    (samePairs : next.pairs = state.pairs) (sameAdjacent : next.adjacent = state.adjacent) :
    Compares registry key member claim (done ++ [entry]) next := by
  obtain ⟨pairs, present, adjacent, contained, bounded⟩ := compares
  have noNew : ∀ first second, Clash registry key first second →
      (Known member claim (done ++ [entry]) first second ↔
        Known member claim done first second) := by
    intro first second clash
    rw [known_append]
    constructor
    · rintro (known | ⟨left, right⟩ | ⟨right, left⟩)
      · exact known
      · rw [left, right] at clash
        exact absurd clash noClash
      · rw [left, right] at clash
        exact absurd clash noReverse
    · exact Or.inl
  refine ⟨?_, present, ?_, contained, bounded⟩
  · rw [samePairs]
    refine pairs.congr ?_
    intro pair witness
    constructor
    · rintro ⟨first, second, known, clash, rest⟩
      exact ⟨first, second, (noNew first second clash).mpr known, clash, rest⟩
    · rintro ⟨first, second, known, clash, rest⟩
      exact ⟨first, second, (noNew first second clash).mp known, clash, rest⟩
  · rw [sameAdjacent]
    refine adjacent.congr (fun _ => Iff.rfl) ?_
    intro claimId otherId
    constructor
    · rintro ⟨first, second, known, clash, rest⟩
      exact ⟨first, second, (noNew first second clash).mpr known, clash, rest⟩
    · rintro ⟨first, second, known, clash, rest⟩
      exact ⟨first, second, (noNew first second clash).mp known, clash, rest⟩

/-- Among the pairs of a new comparison only one is in the order of the ids. -/
private theorem known_of_clash {first second : Claim}
    (ordered : (first = claim ∧ second = entry.2) ∨ (first = entry.2 ∧ second = claim))
    (clashes : Clash registry key first second) {left right : Claim}
    (clash : Clash registry key left right) :
    Known member claim (done ++ [entry]) left right ↔
      Known member claim done left right ∨ (left = first ∧ right = second) := by
  rw [known_append]
  rcases ordered with ⟨isFirst, isSecond⟩ | ⟨isFirst, isSecond⟩
  · rw [isFirst, isSecond]
    constructor
    · rintro (known | new | ⟨isRight, isLeft⟩)
      · exact Or.inl known
      · exact Or.inr new
      · rw [isFirst, isSecond] at clashes
        rw [isLeft, isRight] at clash
        exact absurd clash.1 (lt_asymm clashes.1)
    · rintro (known | new)
      · exact Or.inl known
      · exact Or.inr (Or.inl new)
  · rw [isFirst, isSecond]
    constructor
    · rintro (known | ⟨isLeft, isRight⟩ | ⟨isRight, isLeft⟩)
      · exact Or.inl known
      · rw [isFirst, isSecond] at clashes
        rw [isLeft, isRight] at clash
        exact absurd clash.1 (lt_asymm clashes.1)
      · exact Or.inr ⟨isLeft, isRight⟩
    · rintro (known | ⟨isLeft, isRight⟩)
      · exact Or.inl known
      · exact Or.inr (Or.inr ⟨isRight, isLeft⟩)

/-- A pair that clashes is entered with its witness. -/
private theorem pairs_clash
    (unique : ∀ first second, (member first ∨ first = claim) → (member second ∨ second = claim) →
      first.claimId = second.claimId → first = second)
    (among : ∀ entry ∈ done, member entry.2) {first second : Claim}
    (firstPool : member first ∨ first = claim) (secondPool : member second ∨ second = claim)
    (ordered : (first = claim ∧ second = entry.2) ∨ (first = entry.2 ∧ second = claim))
    (clashes : Clash registry key first second) {witness : JSONObject}
    (computed : overlapWitness first second = .ok witness)
    {pairs : Dict (String ×ₗ String) JSONObject}
    (known : Maps pairs (ClashWitness registry key (Known member claim done))) :
    Maps (pairs.insert (toLex (first.claimId, second.claimId)) witness)
      (ClashWitness registry key (Known member claim (done ++ [entry]))) := by
  have pool : ∀ left right, Known member claim done left right →
      (member left ∨ left = claim) ∧ (member right ∨ right = claim) := by
    rintro left right
      (⟨isLeft, isRight⟩ | ⟨isLeft, other, before, isRight⟩ | ⟨isRight, other, before, isLeft⟩)
    · exact ⟨Or.inl isLeft, Or.inl isRight⟩
    · exact ⟨Or.inr isLeft, Or.inl (isRight ▸ among other before)⟩
    · exact ⟨Or.inl (isLeft ▸ among other before), Or.inr isRight⟩
  have extended := known.insert (toLex (first.claimId, second.claimId)) witness (by
    rintro other ⟨left, right, both, clash, same, found⟩
    have ids : (left.claimId, right.claimId) = (first.claimId, second.claimId) := same
    injection ids with leftId rightId
    obtain ⟨leftPool, rightPool⟩ := pool left right both
    rw [unique left first leftPool firstPool leftId,
      unique right second rightPool secondPool rightId, computed] at found
    injection found with found
    exact found.symm)
  refine extended.congr ?_
  intro pair other
  constructor
  · rintro (⟨left, right, both, clash, rest⟩ | ⟨samePair, sameWitness⟩)
    · exact ⟨left, right, (known_of_clash ordered clashes clash).mpr (Or.inl both), clash, rest⟩
    · exact ⟨first, second, (known_of_clash ordered clashes clashes).mpr (Or.inr ⟨rfl, rfl⟩),
        clashes, samePair.symm, sameWitness ▸ computed⟩
  · rintro ⟨left, right, both, clash, samePair, found⟩
    rcases (known_of_clash ordered clashes clash).mp both with both | ⟨isFirst, isSecond⟩
    · exact Or.inl ⟨left, right, both, clash, samePair, found⟩
    · rw [isFirst, isSecond] at samePair found
      rw [computed] at found
      injection found with found
      exact Or.inr ⟨samePair.symm, found.symm⟩

/-- The claims of a pair that clashes become neighbours. -/
private theorem adjacent_clash {first second : Claim}
    (ordered : (first = claim ∧ second = entry.2) ∨ (first = entry.2 ∧ second = claim))
    (clashes : Clash registry key first second) {table : Dict String (PySet String)}
    {present : String → Prop}
    (adjacent : SetTable table present (Adjacent registry key (Known member claim done))) :
    SetTable (addTo (addTo table first.claimId second.claimId) second.claimId first.claimId)
      (fun claimId => (present claimId ∨ claimId = first.claimId) ∨ claimId = second.claimId)
      (Adjacent registry key (Known member claim (done ++ [entry]))) := by
  refine ((adjacent.addTo first.claimId second.claimId).addTo second.claimId
    first.claimId).congr (fun _ => Iff.rfl) ?_
  intro claimId otherId
  constructor
  · rintro ((⟨left, right, both, clash, ids⟩ | ⟨left, right⟩) | ⟨left, right⟩)
    · exact ⟨left, right, (known_of_clash ordered clashes clash).mpr (Or.inl both), clash, ids⟩
    · exact ⟨first, second, (known_of_clash ordered clashes clashes).mpr (Or.inr ⟨rfl, rfl⟩),
        clashes, Or.inl ⟨left.symm, right.symm⟩⟩
    · exact ⟨first, second, (known_of_clash ordered clashes clashes).mpr (Or.inr ⟨rfl, rfl⟩),
        clashes, Or.inr ⟨left.symm, right.symm⟩⟩
  · rintro ⟨left, right, both, clash, ids⟩
    rcases (known_of_clash ordered clashes clash).mp both with both | ⟨isFirst, isSecond⟩
    · exact Or.inl (Or.inl ⟨left, right, both, clash, ids⟩)
    · rw [isFirst, isSecond] at ids
      rcases ids with ⟨left, right⟩ | ⟨left, right⟩
      · exact Or.inl (Or.inr ⟨left.symm, right.symm⟩)
      · exact Or.inr ⟨left.symm, right.symm⟩

private theorem compares_step
    (unique : ∀ first second, (member first ∨ first = claim) → (member second ∨ second = claim) →
      first.claimId = second.claimId → first = second)
    (among : ∀ entry ∈ done, member entry.2) (listed : member entry.2)
    (compares : Compares registry key member claim done state)
    (compared : Compared registry key claim entry.2 state next) :
    Compares registry key member claim (done ++ [entry]) next := by
  cases compared with
  | apart _ noClash noReverse samePairs sameAdjacent =>
      exact compares_apart compares noClash noReverse samePairs sameAdjacent
  | clash first second ordered clashes witness computed comparisons =>
      obtain ⟨pairs, present, adjacent, contained, bounded⟩ := compares
      have firstPool : member first ∨ first = claim := by
        rcases ordered with ⟨same, _⟩ | ⟨same, _⟩
        · exact Or.inr same
        · exact Or.inl (same ▸ listed)
      have secondPool : member second ∨ second = claim := by
        rcases ordered with ⟨_, same⟩ | ⟨_, same⟩
        · exact Or.inl (same ▸ listed)
        · exact Or.inr same
      refine ⟨pairs_clash unique among firstPool secondPool ordered clashes computed pairs, _,
        adjacent_clash ordered clashes adjacent, fun claimId owned =>
          Or.inl (Or.inl (contained claimId owned)), ?_⟩
      have known : ∀ owner, (member owner ∨ owner = claim) →
          (∃ other, member other ∧ other.claimId = owner.claimId) ∨
            owner.claimId = claim.claimId := by
        rintro owner (listed | same)
        · exact Or.inl ⟨owner, listed, rfl⟩
        · exact Or.inr (congrArg Claim.claimId same)
      rintro claimId ((before | same) | same)
      · exact bounded claimId before
      · rw [same]
        exact known first firstPool
      · rw [same]
        exact known second secondPool

end Step

private theorem compareLoop_ok {registry : PredicateRegistry} {key : ClaimKey}
    {member : Claim → Prop} {index : DirectConflictIndex}
    (indexed : IndexFor registry key member index) {claim : Claim} {bounds : ValidityBounds}
    (fresh : ∀ other, member other → other.claimId ≠ claim.claimId) (ownKey : claim.key = key)
    (single : registry.isMultiValued key.predicate = false)
    (read : validityBounds claim.validity = .ok bounds) (comparisons : Nat) :
    ∃ compared, index.claimsById.toList.foldlM (fun state entry =>
        compareWith registry index claim bounds state entry.1 entry.2)
        ⟨index.incompatiblePairs, index.adjacentClaimIds, comparisons⟩ = .ok compared ∧
      Compares registry key member claim index.claimsById.toList compared := by
  have listed : ∀ entry ∈ index.claimsById.toList, member entry.2 ∧ entry.2.claimId = entry.1 :=
    fun entry among => (indexed.claims entry.1 entry.2).mp
      ((Dict.mem_toList index.claimsById entry.1 entry.2).mp among)
  have unique : ∀ first second, (member first ∨ first = claim) →
      (member second ∨ second = claim) → first.claimId = second.claimId → first = second := by
    rintro first second (left | left) (right | right) same
    · exact indexed.eq_of_id left right same
    · exact absurd (same.trans (congrArg Claim.claimId right)) (fresh first left)
    · exact absurd (same.symm.trans (congrArg Claim.claimId left)) (fresh second right)
    · rw [left, right]
  have step : ∀ (state : Comparison), ∀ entry ∈ index.claimsById.toList, ∃ next,
      compareWith registry index claim bounds state entry.1 entry.2 = .ok next := by
    intro state entry among
    obtain ⟨entryMember, same⟩ := listed entry among
    obtain ⟨next, stepped, _⟩ := compareWith_ok indexed entryMember ownKey single read
      (fresh entry.2 entryMember).symm state
    rw [same] at stepped
    exact ⟨next, stepped⟩
  obtain ⟨compared, looped⟩ := exists_foldlM_ok step
    ⟨index.incompatiblePairs, index.adjacentClaimIds, comparisons⟩
  refine ⟨compared, looped, ?_⟩
  -- the entries that are done are members, beside what their comparisons have established
  have invariant := foldlM_invariant (fun done state => (∀ entry ∈ done, member entry.2) ∧
    Compares registry key member claim done state) _ _ _ looped ?_ ?_
  · exact invariant.2
  · refine ⟨by simp, ?_, (fun claimId => ∃ other, member other ∧ other.claimId = claimId), ?_,
      fun _ owned => owned, fun _ owned => Or.inl owned⟩
    · exact indexed.pairs.congr (by simp [ClashWitness, Known])
    · exact indexed.adjacent.congr (fun _ => Iff.rfl) (by simp [Adjacent, Known])
  · rintro done entry state next ⟨among, compares⟩ now stepped
    obtain ⟨entryMember, same⟩ := listed entry now
    obtain ⟨result, computed, compared⟩ := compareWith_ok indexed entryMember ownKey single read
      (fresh entry.2 entryMember).symm state
    rw [same, stepped] at computed
    injection computed with computed
    subst computed
    refine ⟨?_, compares_step unique among entryMember compares compared⟩
    intro other found
    rcases List.mem_append.mp found with before | last
    · exact among other before
    · rw [List.mem_singleton.mp last]
      exact entryMember

/-- After all comparisons the known pairs are the pairs of the claims with the new one. -/
private theorem known_all {registry : PredicateRegistry} {key : ClaimKey} {member : Claim → Prop}
    {claim : Claim} {claimsById : Dict String Claim}
    (claims : Lists claimsById Claim.claimId member) {first second : Claim}
    (clash : Clash registry key first second) :
    Known member claim claimsById.toList first second ↔
      Both (fun other => member other ∨ other = claim) first second := by
  have listed : ∀ other, (∃ entry ∈ claimsById.toList, entry.2 = other) ↔ member other := by
    intro other
    rw [← claims.mem_values other, Dict.values, List.mem_map]
  simp only [Known, listed, Both]
  constructor
  · rintro (⟨left, right⟩ | ⟨left, right⟩ | ⟨right, left⟩)
    · exact ⟨Or.inl left, Or.inl right⟩
    · exact ⟨Or.inr left, Or.inl right⟩
    · exact ⟨Or.inl left, Or.inr right⟩
  · rintro ⟨left | left, right | right⟩
    · exact Or.inl ⟨left, right⟩
    · exact Or.inr (Or.inr ⟨right, left⟩)
    · exact Or.inr (Or.inl ⟨left, right⟩)
    · rw [left, right] at clash
      exact absurd clash.1 (lt_irrefl _)

/-- Adding a new readable claim of the key. -/
theorem addClaim_ok {registry : PredicateRegistry} {key : ClaimKey} {member : Claim → Prop}
    {index : DirectConflictIndex} (indexed : IndexFor registry key member index) {claim : Claim}
    (fresh : ∀ other, member other → other.claimId ≠ claim.claimId) (ownKey : claim.key = key)
    (readable : Readable claim) (comparisons : Nat) :
    ∃ next, addClaim registry (index, comparisons) claim = .ok next ∧
      IndexFor registry key (fun other => member other ∨ other = claim) next.1 := by
  obtain ⟨bounds, read⟩ := readable
  have compared : ∃ compared, compareAll registry index claim bounds
        ⟨index.incompatiblePairs, index.adjacentClaimIds, comparisons⟩ = .ok compared ∧
      Compares registry key member claim index.claimsById.toList compared := by
    rw [compareAll, ownKey]
    by_cases single : registry.isMultiValued key.predicate = true
    · have none : ∀ first second, ¬Clash registry key first second := by
        intro first second clash
        rw [clash.2.1] at single
        cases single
      rw [if_pos single]
      refine ⟨_, rfl, ?_, (fun claimId => ∃ other, member other ∧ other.claimId = claimId), ?_,
        fun _ owned => owned, fun _ owned => Or.inl owned⟩
      · exact indexed.pairs.congr (by simp [ClashWitness, none])
      · exact indexed.adjacent.congr (fun _ => Iff.rfl) (by simp [Adjacent, none])
    · rw [if_neg single]
      exact compareLoop_ok indexed fresh ownKey (Bool.eq_false_iff.mpr single) read comparisons
  obtain ⟨result, computed, pairs, present, adjacent, contained, bounded⟩ := compared
  unfold addClaim
  simp only
  rw [bind_of_ok read, bind_of_ok computed]
  have distinct : ∀ other, member other → other.claimId = claim.claimId → other = claim :=
    fun other listed same => absurd same (fresh other listed)
  refine ⟨_, rfl, indexed.claims.insert claim distinct, ?_, ?_, ?_, ?_, ?_, ?_, ?_⟩
  · rintro other (listed | same)
    · exact indexed.keyed other listed
    · rw [same]
      exact ownKey
  · rintro other (listed | same)
    · exact indexed.readable other listed
    · rw [same]
      exact ⟨bounds, read⟩
  · exact indexed.values.insert claim _ rfl (fun _ same => same.symm) distinct
  · exact indexed.contexts.insert claim _ rfl (fun _ same => same.symm) distinct
  · refine indexed.validity.insert claim bounds read ?_ distinct
    intro other found
    rw [read] at found
    injection found with found
    exact found.symm
  · refine pairs.congr ?_
    intro pair witness
    constructor
    · rintro ⟨first, second, known, clash, rest⟩
      exact ⟨first, second, (known_all indexed.claims clash).mp known, clash, rest⟩
    · rintro ⟨first, second, known, clash, rest⟩
      exact ⟨first, second, (known_all indexed.claims clash).mpr known, clash, rest⟩
  · refine (adjacent.touch claim.claimId).congr ?_ ?_
    · intro claimId
      constructor
      · rintro (before | same)
        · rcases bounded claimId before with ⟨other, listed, same⟩ | same
          · exact ⟨other, Or.inl listed, same⟩
          · exact ⟨claim, Or.inr rfl, same.symm⟩
        · exact ⟨claim, Or.inr rfl, same.symm⟩
      · rintro ⟨other, listed | equal, same⟩
        · exact Or.inl (contained claimId ⟨other, listed, same⟩)
        · rw [equal] at same
          exact Or.inr same.symm
    · intro claimId otherId
      constructor
      · rintro ⟨first, second, known, clash, rest⟩
        exact ⟨first, second, (known_all indexed.claims clash).mp known, clash, rest⟩
      · rintro ⟨first, second, known, clash, rest⟩
        exact ⟨first, second, (known_all indexed.claims clash).mpr known, clash, rest⟩

/-- A claim that is added is readable. -/
theorem readable_of_addClaim {registry : PredicateRegistry} {claim : Claim}
    {state next : DirectConflictIndex × Nat} (run : addClaim registry state claim = .ok next) :
    Readable claim := by
  unfold addClaim at run
  rw [bind_ok_iff] at run
  obtain ⟨bounds, read, _⟩ := run
  exact ⟨bounds, read⟩

/-! ## Bringing an index to given claims -/

private theorem removeAll_spec {registry : PredicateRegistry} {key : ClaimKey}
    {member : Claim → Prop} {index : DirectConflictIndex}
    (indexed : IndexFor registry key member index) (claimIds : List String) :
    IndexFor registry key (fun claim => member claim ∧ claim.claimId ∉ claimIds)
      (claimIds.foldl removeClaim index) := by
  induction claimIds generalizing member index with
  | nil => exact indexed.congr (by simp)
  | cons head tail inductionHypothesis =>
      refine (inductionHypothesis (removeClaim_spec indexed head)).congr ?_
      intro claim
      simp only [List.mem_cons, not_or, and_assoc]

private theorem addAllClaims_ok {registry : PredicateRegistry} {key : ClaimKey}
    {member : Claim → Prop} (claims : List Claim) (state : DirectConflictIndex × Nat)
    (indexed : IndexFor registry key member state.1)
    (distinct : claims.Pairwise (fun first second => first.claimId ≠ second.claimId))
    (fresh : ∀ claim ∈ claims, ∀ other, member other → other.claimId ≠ claim.claimId)
    (keyed : ∀ claim ∈ claims, claim.key = key) (readable : ∀ claim ∈ claims, Readable claim) :
    ∃ next, claims.foldlM (addClaim registry) state = .ok next ∧
      IndexFor registry key (fun claim => member claim ∨ claim ∈ claims) next.1 := by
  induction claims generalizing member state with
  | nil => exact ⟨state, rfl, indexed.congr (by simp)⟩
  | cons head tail inductionHypothesis =>
      obtain ⟨headDistinct, tailDistinct⟩ := List.pairwise_cons.mp distinct
      obtain ⟨middle, added, extended⟩ := addClaim_ok indexed (fresh head List.mem_cons_self)
        (keyed head List.mem_cons_self) (readable head List.mem_cons_self) state.2
      obtain ⟨next, looped, complete⟩ := inductionHypothesis _ extended tailDistinct (by
          rintro claim later other (listed | same)
          · exact fresh claim (List.mem_cons_of_mem _ later) other listed
          · rw [same]
            exact headDistinct claim later)
        (fun claim later => keyed claim (List.mem_cons_of_mem _ later))
        (fun claim later => readable claim (List.mem_cons_of_mem _ later))
      refine ⟨next, ?_, complete.congr ?_⟩
      · rw [List.foldlM_cons, bind_of_ok added]
        exact looped
      · intro claim
        simp only [List.mem_cons, or_assoc]

private theorem readable_of_addAll {registry : PredicateRegistry} {claims : List Claim}
    {state next : DirectConflictIndex × Nat}
    (run : claims.foldlM (addClaim registry) state = .ok next) :
    ∀ claim ∈ claims, Readable claim := by
  induction claims generalizing state with
  | nil => simp
  | cons head tail inductionHypothesis =>
      rw [List.foldlM_cons, bind_ok_iff] at run
      obtain ⟨middle, added, run⟩ := run
      intro claim member
      rcases List.mem_cons.mp member with same | later
      · rw [same]
        exact readable_of_addClaim added
      · exact inductionHypothesis run claim later

section Update

variable {registry : PredicateRegistry} {key : ClaimKey} {member : Claim → Prop}
  {index : DirectConflictIndex} {claims : List Claim}

/-- The claims that an update keeps. -/
private theorem kept_spec (indexed : IndexFor registry key member index)
    (distinct : claims.Pairwise (fun first second => first.claimId ≠ second.claimId))
    (immutable : ∀ claim ∈ claims, ∀ other, member other → other.claimId = claim.claimId →
      other = claim) :
    IndexFor registry key (fun claim => member claim ∧ claim ∈ claims)
      ((index.claimsById.keys.filter
        fun claimId => !(Dict.ofItems Claim.claimId claims).contains claimId).foldl removeClaim
          index) := by
  have desired : Lists (Dict.ofItems Claim.claimId claims) Claim.claimId (· ∈ claims) :=
    Lists.ofItems distinct
  refine (removeAll_spec indexed _).congr ?_
  intro claim
  refine and_congr_right ?_
  intro listed
  have known : claim.claimId ∈ index.claimsById.keys :=
    (Dict.mem_keys index.claimsById _).mpr ⟨claim, indexed.claims.get_key listed⟩
  rw [List.mem_filter, not_and, Bool.not_eq_true', Bool.not_eq_false]
  constructor
  · intro notRemoved
    have contained := notRemoved known
    rw [Std.ExtTreeMap.contains_iff_mem, Dict.mem_iff] at contained
    obtain ⟨other, found⟩ := contained
    obtain ⟨wanted, same⟩ := (desired _ _).mp found
    rw [immutable other wanted claim listed same.symm]
    exact wanted
  · intro wanted _
    rw [Std.ExtTreeMap.contains_iff_mem, Dict.mem_iff]
    exact ⟨claim, desired.get_key wanted⟩

/-- The claims that an update adds. -/
private theorem mem_added (indexed : IndexFor registry key member index)
    (distinct : claims.Pairwise (fun first second => first.claimId ≠ second.claimId))
    (immutable : ∀ claim ∈ claims, ∀ other, member other → other.claimId = claim.claimId →
      other = claim) (claim : Claim) :
    claim ∈ (((Dict.ofItems Claim.claimId claims).toList.filter
      fun entry => !index.claimsById.contains entry.1).map Prod.snd) ↔
      claim ∈ claims ∧ ¬member claim := by
  have desired : Lists (Dict.ofItems Claim.claimId claims) Claim.claimId (· ∈ claims) :=
    Lists.ofItems distinct
  simp only [List.mem_map, List.mem_filter, Prod.exists, exists_eq_right, Dict.mem_toList,
    desired _ _, Bool.not_eq_true', ← Bool.not_eq_true, Std.ExtTreeMap.contains_iff_mem]
  constructor
  · rintro ⟨claimId, ⟨wanted, same⟩, absent⟩
    refine ⟨wanted, fun listed => absent ?_⟩
    rw [← same, Dict.mem_iff]
    exact ⟨claim, indexed.claims.get_key listed⟩
  · rintro ⟨wanted, absent⟩
    refine ⟨claim.claimId, ⟨wanted, rfl⟩, ?_⟩
    rw [Dict.mem_iff]
    rintro ⟨other, found⟩
    obtain ⟨listed, same⟩ := (indexed.claims _ _).mp found
    rw [immutable claim wanted other listed same] at listed
    exact absent listed

/-- Updating an index succeeds exactly when the claims are readable, and the result is the
index of the claims. -/
theorem updateDirectConflictIndex_ok (indexed : IndexFor registry key member index)
    (distinct : claims.Pairwise (fun first second => first.claimId ≠ second.claimId))
    (immutable : ∀ claim ∈ claims, ∀ other, member other → other.claimId = claim.claimId →
      other = claim)
    (keyed : ∀ claim ∈ claims, claim.key = key) (readable : ∀ claim ∈ claims, Readable claim) :
    ∃ next, updateDirectConflictIndex index claims registry = .ok next ∧
      IndexFor registry key (· ∈ claims) next.1 := by
  have kept := kept_spec indexed distinct immutable
  have keptImmutable : ∀ claim ∈ claims, ∀ other, (member other ∧ other ∈ claims) →
      other.claimId = claim.claimId → other = claim :=
    fun claim wanted other listed same => immutable claim wanted other listed.1 same
  have added := mem_added kept distinct keptImmutable
  have desired : Lists (Dict.ofItems Claim.claimId claims) Claim.claimId (· ∈ claims) :=
    Lists.ofItems distinct
  obtain ⟨next, looped, complete⟩ := addAllClaims_ok
    (((Dict.ofItems Claim.claimId claims).toList.filter fun entry =>
      !((index.claimsById.keys.filter fun claimId =>
        !(Dict.ofItems Claim.claimId claims).contains claimId).foldl removeClaim
          index).claimsById.contains entry.1).map Prod.snd) (_, 0) kept
    ((desired.values_distinct.imp (fun below => ne_of_lt below)).sublist
      (List.Sublist.map _ List.filter_sublist))
    (by
      intro claim new other listed same
      obtain ⟨wanted, absent⟩ := (added claim).mp new
      rw [immutable claim wanted other listed.1 same] at listed
      exact absent listed)
    (fun claim new => keyed claim ((added claim).mp new).1)
    (fun claim new => readable claim ((added claim).mp new).1)
  refine ⟨next, looped, complete.congr ?_⟩
  intro claim
  rw [added claim]
  constructor
  · rintro (⟨_, wanted⟩ | ⟨wanted, _⟩)
    · exact wanted
    · exact wanted
  · intro wanted
    by_cases listed : member claim
    · exact Or.inl ⟨listed, wanted⟩
    · exact Or.inr ⟨wanted, fun both => listed both.1⟩

theorem readable_of_updateDirectConflictIndex (indexed : IndexFor registry key member index)
    (distinct : claims.Pairwise (fun first second => first.claimId ≠ second.claimId))
    (immutable : ∀ claim ∈ claims, ∀ other, member other → other.claimId = claim.claimId →
      other = claim) {next : DirectConflictIndex × Nat}
    (run : updateDirectConflictIndex index claims registry = .ok next) :
    ∀ claim ∈ claims, Readable claim := by
  have kept := kept_spec indexed distinct immutable
  have added := mem_added kept distinct
    (fun claim wanted other listed same => immutable claim wanted other listed.1 same)
  intro claim wanted
  by_cases listed : member claim
  · exact indexed.readable claim listed
  · exact readable_of_addAll run claim ((added claim).mpr ⟨wanted, fun both => listed both.1⟩)

end Update

/-! ## The finding about given claims -/

private theorem mem_combinations {claims : List Claim}
    (sorted : claims.Pairwise (fun first second => first.claimId < second.claimId))
    (first second : Claim) :
    (first, second) ∈ combinations claims ↔
      first ∈ claims ∧ second ∈ claims ∧ first.claimId < second.claimId := by
  induction claims with
  | nil => simp [combinations]
  | cons head tail inductionHypothesis =>
      obtain ⟨below, tailSorted⟩ := List.pairwise_cons.mp sorted
      rw [combinations, List.mem_append, inductionHypothesis tailSorted]
      constructor
      · rintro (paired | ⟨left, right, less⟩)
        · obtain ⟨other, member, same⟩ := List.mem_map.mp paired
          injection same with isHead isOther
          rw [← isHead, ← isOther]
          exact ⟨List.mem_cons_self, List.mem_cons_of_mem _ member, below other member⟩
        · exact ⟨List.mem_cons_of_mem _ left, List.mem_cons_of_mem _ right, less⟩
      · rintro ⟨left, right, less⟩
        rcases List.mem_cons.mp left with isHead | left
        · rcases List.mem_cons.mp right with same | right
          · rw [isHead, same] at less
            exact absurd less (lt_irrefl _)
          · exact Or.inl (List.mem_map.mpr ⟨second, right, by rw [isHead]⟩)
        · rcases List.mem_cons.mp right with isHead | right
          · rw [isHead] at less
            exact absurd (below first left) (lt_asymm less)
          · exact Or.inr ⟨left, right, less⟩

private theorem combinations_of_short {claims : List Claim} (short : claims.length ≤ 1) :
    combinations claims = [] := by
  cases claims with
  | nil => rfl
  | cons head tail =>
      have none : tail = [] := by
        rw [List.length_cons] at short
        exact List.length_eq_zero_iff.mp (by omega)
      rw [none]
      rfl

/-- The ids of a pair of claims. -/
def pairOf (pair : Claim × Claim) : ClaimPair := toLex (pair.1.claimId, pair.2.claimId)

private theorem combinations_sorted {claims : List Claim}
    (sorted : claims.Pairwise (fun first second => first.claimId < second.claimId)) :
    (combinations claims).Pairwise (fun first second => pairOf first < pairOf second) := by
  induction claims with
  | nil => exact List.Pairwise.nil
  | cons head tail inductionHypothesis =>
      obtain ⟨below, tailSorted⟩ := List.pairwise_cons.mp sorted
      rw [combinations, List.pairwise_append]
      refine ⟨?_, inductionHypothesis tailSorted, ?_⟩
      · rw [List.pairwise_map]
        refine tailSorted.imp ?_
        intro first second less
        exact Prod.Lex.toLex_lt_toLex.mpr (Or.inr ⟨rfl, less⟩)
      · rintro first paired ⟨second, third⟩ later
        obtain ⟨other, member, same⟩ := List.mem_map.mp paired
        rw [← same]
        have among := (mem_combinations tailSorted second third).mp later
        exact Prod.Lex.toLex_lt_toLex.mpr (Or.inl (below second among.1))

/-- The pairs of claims that clash, in the order of their ids. -/
def clashingPairs (registry : PredicateRegistry) (key : ClaimKey) (claims : List Claim) :
    List (Claim × Claim) :=
  if registry.isMultiValued key.predicate then []
  else (combinations claims).filter (passes fun pair => incompatible registry key pair.1 pair.2)

/-- The witness of a pair, as far as it can be computed. -/
def witnessOf (pair : Claim × Claim) : JSONObject :=
  match overlapWitness pair.1 pair.2 with
  | .ok witness => witness
  | .error _ => ∅

/-- The claims that take part in some pair. -/
def participants (pairs : List (Claim × Claim)) (claims : List Claim) : List Claim :=
  claims.filter fun claim =>
    claim.claimId ∈ pairs.flatMap fun pair => [pair.1.claimId, pair.2.claimId]

/-- What the direct detector reports about the claims of a key. -/
def findingOf (context : ConflictDetectionContext) (key : ClaimKey) (claims : List Claim) :
    Result (Option ConflictSet) :=
  let pairs := clashingPairs context.predicateRegistry key claims
  if pairs = [] then .ok none
  else (directFinding context key (participants pairs claims) (pairs.map witnessOf)).map some

theorem mem_clashingPairs {registry : PredicateRegistry} {key : ClaimKey} {claims : List Claim}
    (sorted : claims.Pairwise (fun first second => first.claimId < second.claimId))
    (first second : Claim) :
    (first, second) ∈ clashingPairs registry key claims ↔
      first ∈ claims ∧ second ∈ claims ∧ Clash registry key first second := by
  unfold clashingPairs Clash
  cases registry.isMultiValued key.predicate with
  | true => simp
  | false =>
      rw [if_neg (by simp), List.mem_filter, mem_combinations sorted, passes_iff]
      simp only [true_and, and_assoc]

theorem clashingPairs_sorted {registry : PredicateRegistry} {key : ClaimKey} {claims : List Claim}
    (sorted : claims.Pairwise (fun first second => first.claimId < second.claimId)) :
    (clashingPairs registry key claims).Pairwise
      (fun first second => pairOf first < pairOf second) := by
  unfold clashingPairs
  split
  · exact List.Pairwise.nil
  · exact (combinations_sorted sorted).filter _

theorem overlapWitness_eq_witnessOf {first second : Claim} (firstReadable : Readable first)
    (secondReadable : Readable second) :
    overlapWitness first second = .ok (witnessOf (first, second)) := by
  obtain ⟨witness, computed⟩ := overlapWitness_ok firstReadable secondReadable
  rw [witnessOf, computed]

section Findings

variable {context : ConflictDetectionContext} {key : ClaimKey} {claims : List Claim}

/-- The direct detector on sorted, readable claims. -/
theorem directConflictFor_eq
    (sorted : claims.Pairwise (fun first second => first.claimId < second.claimId))
    (readable : ∀ claim ∈ claims, Readable claim) :
    directConflictFor context key claims = findingOf context key claims := by
  have inOrder : sortBy Claim.claimId claims = claims :=
    sortBy_of_pairwise (sorted.imp (fun below => le_of_lt below))
  unfold directConflictFor findingOf clashingPairs
  simp only [inOrder]
  by_cases multi : context.predicateRegistry.isMultiValued key.predicate = true
  · rw [if_pos (Or.inr multi), if_pos multi, if_pos rfl]
    rfl
  · rw [if_neg multi]
    by_cases short : claims.length ≤ 1
    · rw [if_pos (Or.inl short), combinations_of_short short]
      rfl
    · have filtered : (combinations claims).filterM (fun pair =>
          incompatible context.predicateRegistry key pair.1 pair.2) =
          .ok ((combinations claims).filter
            (passes fun pair => incompatible context.predicateRegistry key pair.1 pair.2)) := by
        apply filterM_of_decided
        rintro ⟨first, second⟩ member
        obtain ⟨left, right, _⟩ := (mem_combinations sorted first second).mp member
        exact incompatible_ok _ key (readable first left) (readable second right)
      rw [if_neg (not_or.mpr ⟨short, multi⟩), bind_of_ok filtered]
      split
      · rfl
      · have witnesses : ((combinations claims).filter (passes fun pair =>
            incompatible context.predicateRegistry key pair.1 pair.2)).mapM
            (fun pair => overlapWitness pair.1 pair.2) = .ok (((combinations claims).filter
              (passes fun pair => incompatible context.predicateRegistry key pair.1 pair.2)).map
                witnessOf) := by
          apply mapM_eq_map
          rintro ⟨first, second⟩ member
          obtain ⟨left, right, _⟩ :=
            (mem_combinations sorted first second).mp (List.mem_filter.mp member).1
          exact overlapWitness_eq_witnessOf (readable first left) (readable second right)
        rw [bind_of_ok witnesses]
        rfl

/-- The pairs of an index, in order. -/
private theorem toList_pairs {registry : PredicateRegistry} {index : DirectConflictIndex}
    (sorted : claims.Pairwise (fun first second => first.claimId < second.claimId))
    (indexed : IndexFor registry key (· ∈ claims) index) :
    index.incompatiblePairs.toList =
      (clashingPairs registry key claims).map fun pair => (pairOf pair, witnessOf pair) := by
  apply Dict.toList_eq_of_sorted
  · rw [List.pairwise_map]
    exact clashingPairs_sorted sorted
  · intro ids witness
    rw [indexed.pairs ids witness]
    constructor
    · intro member
      obtain ⟨⟨first, second⟩, among, same⟩ := List.mem_map.mp member
      injection same with sameIds sameWitness
      obtain ⟨left, right, clash⟩ := (mem_clashingPairs sorted first second).mp among
      refine ⟨first, second, ⟨left, right⟩, clash, sameIds, ?_⟩
      rw [← sameWitness]
      exact overlapWitness_eq_witnessOf (indexed.readable first left)
        (indexed.readable second right)
    · rintro ⟨first, second, ⟨left, right⟩, clash, sameIds, computed⟩
      rw [overlapWitness_eq_witnessOf (indexed.readable first left)
        (indexed.readable second right)] at computed
      injection computed with computed
      exact List.mem_map.mpr ⟨(first, second),
        (mem_clashingPairs sorted first second).mpr ⟨left, right, clash⟩, by
          rw [← sameIds, ← computed]
          rfl⟩

/-- The conflict read off the index of some claims is what the direct detector reports
about them. -/
theorem conflictFromDirectIndex_eq {index : DirectConflictIndex}
    (sorted : claims.Pairwise (fun first second => first.claimId < second.claimId))
    (indexed : IndexFor context.predicateRegistry key (· ∈ claims) index) :
    conflictFromDirectIndex index context key = findingOf context key claims := by
  have pairs := toList_pairs sorted indexed
  have keys : index.incompatiblePairs.keys =
      (clashingPairs context.predicateRegistry key claims).map pairOf := by
    rw [← Std.ExtTreeMap.map_fst_toList_eq_keys, pairs, List.map_map]
    rfl
  have values : Dict.values index.incompatiblePairs =
      (clashingPairs context.predicateRegistry key claims).map witnessOf := by
    rw [Dict.values, pairs, List.map_map]
    rfl
  have empty : index.incompatiblePairs.isEmpty = true ↔
      clashingPairs context.predicateRegistry key claims = [] := by
    rw [← Std.ExtTreeMap.isEmpty_toList, pairs, List.isEmpty_iff, List.map_eq_nil_iff]
  have candidates : (sortedSet (index.incompatiblePairs.keys.flatMap fun pair =>
      [pair.1, pair.2])).filterMap (fun claimId => index.claimsById[claimId]?) =
      participants (clashingPairs context.predicateRegistry key claims) claims := by
    have ids : (index.incompatiblePairs.keys.flatMap fun pair => [pair.1, pair.2]) =
        (clashingPairs context.predicateRegistry key claims).flatMap
          (fun pair => [pair.1.claimId, pair.2.claimId]) := by
      rw [keys, List.flatMap_map]
      rfl
    rw [ids]
    apply @eq_of_strictly_sorted _ _ _ Claim.claimId
    · rw [List.pairwise_filterMap]
      refine (sortedSet_sorted _).imp ?_
      intro firstId secondId below first firstFound second secondFound
      rw [((indexed.claims _ _).mp firstFound).2, ((indexed.claims _ _).mp secondFound).2]
      exact below
    · exact sorted.filter _
    · intro claim
      rw [participants, List.mem_filter, List.mem_filterMap, decide_eq_true_eq]
      constructor
      · rintro ⟨claimId, takesPart, found⟩
        obtain ⟨member, same⟩ := (indexed.claims _ _).mp found
        rw [mem_sortedSet, ← same] at takesPart
        exact ⟨member, takesPart⟩
      · rintro ⟨member, takesPart⟩
        exact ⟨claim.claimId, mem_sortedSet.mpr takesPart, indexed.claims.get_key member⟩
  unfold conflictFromDirectIndex findingOf
  by_cases none : clashingPairs context.predicateRegistry key claims = []
  · rw [if_pos (empty.mpr none), if_pos none]
    rfl
  · rw [if_neg (fun isEmpty => none (empty.mp isEmpty)), if_neg none]
    simp only [candidates, values]
    rfl

end Findings

end Statefuse
