import Statefuse.Conflict.IndexSpec

/-!
# Findings and the index built from them

The finding about the claims of a key names exactly the pairs that clash, so the index
that is built from the claims and the finding is the index of the claims
(`buildDirectConflictIndex_ok`).  Findings about different keys have different
identifiers, provided that digests are collision-free.
-/

namespace Statefuse

open Foundation

theorem ClaimKey.toDict_injective : Function.Injective ClaimKey.toDict := by
  intro first second same
  have field : ∀ name : String, first.toDict[name]? = second.toDict[name]? :=
    fun name => congrArg (fun members : JSONObject => members[name]?) same
  have nameSpace := field "namespace"
  have subject := field "subject"
  have predicate := field "predicate"
  simp only [ClaimKey.toDict, objectOf, List.foldl_cons, List.foldl_nil, Dict.get_insert,
    String.reduceEq, if_false, if_true, Option.some.injEq] at nameSpace subject predicate
  have texts : ∀ {left right : String}, (JsonValue.str left : JSONValue) = .str right →
      left = right := by
    intro left right equal
    have read := congrArg JsonValue.asStr? equal
    rw [JsonValue.asStr_str, JsonValue.asStr_str] at read
    injection read
  cases first
  cases second
  rw [ClaimKey.mk.injEq]
  exact ⟨texts nameSpace, texts subject, texts predicate⟩

variable [Runtime]

omit [Runtime] in
private theorem append_cancel {before first second : String}
    (same : before ++ first = before ++ second) : first = second := by
  have lists := congrArg String.toList same
  rw [String.toList_append, String.toList_append] at lists
  exact String.toList_injective (List.append_cancel_left lists)

omit [Runtime] in
private theorem isLegacy_direct (key : ClaimKey) :
    isLegacy key directConflictType [key] "direct" = true := by
  simp [isLegacy]

/-- The reference of a finding determines its key. -/
theorem directRef_injective (collisionFree : CollisionFree) {first second : ClaimKey}
    (same : deriveConflictRef first directConflictType [first] "direct" =
      deriveConflictRef second directConflictType [second] "direct") : first = second := by
  rw [deriveConflictRef, deriveConflictRef, isLegacy_direct, isLegacy_direct, if_pos rfl,
    if_pos rfl] at same
  have digests := digestJsonValue_injective collisionFree (append_cancel same)
  have keys := congrArg (fun members : JSONObject => members["key"]?)
    (JsonValue.obj_injective digests)
  simp only [objectOf, List.foldl_cons, List.foldl_nil, Dict.get_insert_self,
    Option.some.injEq] at keys
  exact ClaimKey.toDict_injective (JsonValue.obj_injective keys)

/-- The identifier of a finding determines its key. -/
theorem directId_injective (collisionFree : CollisionFree) {first second : ClaimKey}
    {firstIds secondIds : List String}
    (same : deriveConflictId first firstIds directConflictType [first] "direct" =
      deriveConflictId second secondIds directConflictType [second] "direct") :
    first = second := by
  rw [deriveConflictId, deriveConflictId, isLegacy_direct, isLegacy_direct, if_pos rfl,
    if_pos rfl] at same
  have digests := digestJsonValue_injective collisionFree (append_cancel same)
  have keys := congrArg (fun members : JSONObject => members["key"]?)
    (JsonValue.obj_injective digests)
  simp only [objectOf, List.foldl_cons, List.foldl_nil, Dict.get_insert, String.reduceEq,
    if_false, if_true, Option.some.injEq] at keys
  exact ClaimKey.toDict_injective (JsonValue.obj_injective keys)

/-! ## What a finding says -/

section Findings

variable {context : ConflictDetectionContext} {key : ClaimKey} {claims : List Claim}

theorem participants_ne_nil
    (sorted : claims.Pairwise (fun first second => first.claimId < second.claimId))
    (some : clashingPairs context.predicateRegistry key claims ≠ []) :
    participants (clashingPairs context.predicateRegistry key claims) claims ≠ [] := by
  obtain ⟨⟨first, second⟩, member⟩ := List.exists_mem_of_ne_nil _ some
  obtain ⟨left, _, _⟩ := (mem_clashingPairs sorted first second).mp member
  apply List.ne_nil_of_mem (a := first)
  rw [participants, List.mem_filter, decide_eq_true_eq]
  exact ⟨left, List.mem_flatMap.mpr ⟨(first, second), member, List.mem_cons_self⟩⟩

theorem findingOf_spec {conflict : ConflictSet}
    (sorted : claims.Pairwise (fun first second => first.claimId < second.claimId))
    (keyed : ∀ claim ∈ claims, claim.key = key)
    (run : findingOf context key claims = .ok (some conflict)) :
    IsFinding key (participants (clashingPairs context.predicateRegistry key claims) claims)
      ((clashingPairs context.predicateRegistry key claims).map witnessOf) conflict := by
  unfold findingOf at run
  by_cases none : clashingPairs context.predicateRegistry key claims = []
  · rw [if_pos none] at run
    cases run
  · rw [if_neg none, map_ok_iff] at run
    obtain ⟨found, computed, same⟩ := run
    injection same with same
    subst same
    exact directFinding_spec (fun claim member => keyed claim (List.mem_filter.mp member).1)
      (participants_ne_nil sorted none) computed

/-- Readable claims always have a report. -/
theorem findingOf_ok
    (sorted : claims.Pairwise (fun first second => first.claimId < second.claimId))
    (keyed : ∀ claim ∈ claims, claim.key = key) (readable : ∀ claim ∈ claims, Readable claim) :
    ∃ found, findingOf context key claims = .ok found := by
  unfold findingOf
  by_cases none : clashingPairs context.predicateRegistry key claims = []
  · rw [if_pos none]
    exact ⟨_, rfl⟩
  · rw [if_neg none]
    have among : ∀ claim ∈ participants (clashingPairs context.predicateRegistry key claims)
        claims, claim ∈ claims := fun claim member => (List.mem_filter.mp member).1
    have distinct : ((participants (clashingPairs context.predicateRegistry key claims)
        claims).map Claim.claimId).Nodup :=
      List.pairwise_map.mpr ((sorted.filter _).imp (fun below => ne_of_lt below))
    obtain ⟨conflict, computed⟩ := directFinding_ok context
      ((clashingPairs context.predicateRegistry key claims).map witnessOf)
      (fun claim member => keyed claim (among claim member))
      (participants_ne_nil sorted none) distinct
      (fun claim member => readable claim (among claim member))
    rw [computed]
    exact ⟨_, rfl⟩

/-- There is no finding exactly when no two claims clash. -/
theorem findingOf_none (run : findingOf context key claims = .ok none) :
    clashingPairs context.predicateRegistry key claims = [] := by
  unfold findingOf at run
  by_cases none : clashingPairs context.predicateRegistry key claims = []
  · exact none
  · rw [if_neg none, map_ok_iff] at run
    obtain ⟨_, _, impossible⟩ := run
    cases impossible

/-- The witness of a pair names the pair. -/
private theorem rawPair_witness {first second : Claim} {witness : JSONObject}
    (below : first.claimId < second.claimId)
    (computed : overlapWitness first second = .ok witness) :
    rawPair (.obj witness) = some (first.claimId, second.claimId) := by
  simp only [overlapWitness, bind_ok_iff, pure_ok_iff] at computed
  obtain ⟨validFrom, _, validUntil, _, same⟩ := computed
  have named : witness["claim_ids"]? = some (strList [first.claimId, second.claimId]) := by
    rw [← same]
    simp only [objectOf, List.foldl_cons, List.foldl_nil, Dict.get_insert, String.reduceEq,
      if_false, if_true]
  simp only [rawPair, JsonValue.asObj_obj, named, Option.bind_some, strList, JsonValue.asArr_arr,
    List.map_cons, List.map_nil, JsonValue.asStr_str, if_pos (le_of_lt below)]

/-- The pairs that the report about some claims names are the pairs that clash. -/
theorem witnessPairs_finding {found : Option ConflictSet}
    (sorted : claims.Pairwise (fun first second => first.claimId < second.claimId))
    (keyed : ∀ claim ∈ claims, claim.key = key) (readable : ∀ claim ∈ claims, Readable claim)
    (run : findingOf context key claims = .ok found) :
    witnessPairs found = (clashingPairs context.predicateRegistry key claims).map
      fun pair => (pair.1.claimId, pair.2.claimId) := by
  cases found with
  | none =>
      rw [findingOf_none run]
      rfl
  | some conflict =>
      have witness := (findingOf_spec sorted keyed run).witness
      have entries : conflict.witness["incompatible_pairs"]? = some (.arr
          (((clashingPairs context.predicateRegistry key claims).map witnessOf).map .obj)) := by
        rw [witness]
        simp only [objectOf, List.foldl_cons, List.foldl_nil, Dict.get_insert_self]
      have pairwise : ∀ pair ∈ clashingPairs context.predicateRegistry key claims,
          rawPair (.obj (witnessOf pair)) = some (pair.1.claimId, pair.2.claimId) := by
        rintro ⟨first, second⟩ member
        obtain ⟨left, right, clash⟩ := (mem_clashingPairs sorted first second).mp member
        exact rawPair_witness clash.1
          (overlapWitness_eq_witnessOf (readable first left) (readable second right))
      simp only [witnessPairs, entries, Option.bind_some, JsonValue.asArr_arr, List.map_map,
        List.filterMap_map]
      rw [← List.filterMap_eq_map]
      exact List.filterMap_congr pairwise

end Findings

/-! ## Building the index -/

omit [Runtime] in
private theorem mapValuesM_ok {α β : Type} {f : α → Result β} {dict : Dict String α}
    (each : ∀ (key : String) (value : α), dict[key]? = some value →
      ∃ result, f value = .ok result) :
    ∃ results, mapValuesM f dict = .ok results ∧
      Maps results (fun key result => ∃ value, dict[key]? = some value ∧ f value = .ok result) := by
  have step : ∀ (results : Dict String β), ∀ entry ∈ dict.toList, ∃ next, (do
      let value ← f entry.2
      return results.insert entry.1 value : Result (Dict String β)) = .ok next := by
    intro results entry member
    obtain ⟨value, computed⟩ := each entry.1 entry.2 ((Dict.mem_toList dict _ _).mp member)
    rw [bind_of_ok computed]
    exact ⟨_, rfl⟩
  obtain ⟨results, looped⟩ := exists_foldlM_ok step ∅
  refine ⟨results, looped, ?_⟩
  have invariant := foldlM_invariant (fun done (results : Dict String β) =>
    (∀ entry ∈ done, dict[entry.1]? = some entry.2) ∧
    Maps results (fun key result => ∃ value, (key, value) ∈ done ∧ f value = .ok result))
    _ _ _ looped ⟨by simp, Maps.empty.congr (by simp)⟩ ?_
  · refine invariant.2.congr ?_
    intro key result
    simp only [Dict.mem_toList]
  · rintro done ⟨key, value⟩ results next ⟨among, maps⟩ member stepped
    have found := (Dict.mem_toList dict _ _).mp member
    rw [bind_ok_iff] at stepped
    obtain ⟨result, computed, same⟩ := stepped
    rw [pure_ok_iff] at same
    subst same
    refine ⟨?_, ?_⟩
    · intro entry listed
      rcases List.mem_append.mp listed with before | last
      · exact among entry before
      · rw [List.mem_singleton.mp last]
        exact found
    · have extended := maps.insert key result (by
        rintro other ⟨owner, listed, owns⟩
        have bound : dict[key]? = some owner := among (key, owner) listed
        rw [found, Option.some.injEq] at bound
        rw [← bound, computed] at owns
        injection owns with owns
        exact owns.symm)
      refine extended.congr ?_
      intro wanted other
      simp only [List.mem_append, List.mem_singleton, Prod.mk.injEq]
      constructor
      · rintro (⟨owner, listed, owns⟩ | ⟨sameKey, sameResult⟩)
        · exact ⟨owner, Or.inl listed, owns⟩
        · exact ⟨value, Or.inr ⟨sameKey, rfl⟩, sameResult ▸ computed⟩
      · rintro ⟨owner, listed | ⟨sameKey, sameValue⟩, owns⟩
        · exact Or.inl ⟨owner, listed, owns⟩
        · rw [sameValue, computed] at owns
          injection owns with owns
          exact Or.inr ⟨sameKey, owns.symm⟩

omit [Runtime] in
private theorem readable_of_mapValuesM {α β : Type} {f : α → Result β} {dict : Dict String α}
    {results : Dict String β} (run : mapValuesM f dict = .ok results) (key : String) (value : α)
    (found : dict[key]? = some value) : ∃ result, f value = .ok result := by
  have invariant := foldlM_invariant (fun done (_ : Dict String β) =>
    ∀ entry ∈ done, ∃ result, f entry.2 = .ok result) _ _ _ run (by simp) (by
      intro done entry results next holds _ stepped other listed
      rcases List.mem_append.mp listed with before | last
      · exact holds other before
      · rw [bind_ok_iff] at stepped
        obtain ⟨result, computed, _⟩ := stepped
        rw [List.mem_singleton.mp last]
        exact ⟨result, computed⟩)
  exact invariant (key, value) ((Dict.mem_toList dict key value).mpr found)

omit [Runtime] in
private theorem connectAll {dict : Dict String (PySet String)} {present : String → Prop}
    {related : String → String → Prop} (table : SetTable dict present related)
    (pairs : List ClaimPair) :
    SetTable (pairs.foldl connect dict)
      (fun claimId => present claimId ∨ ∃ pair ∈ pairs, claimId = pair.1 ∨ claimId = pair.2)
      (fun claimId otherId => related claimId otherId ∨ ∃ pair ∈ pairs,
        (claimId = pair.1 ∧ otherId = pair.2) ∨ (claimId = pair.2 ∧ otherId = pair.1)) := by
  induction pairs generalizing dict present related with
  | nil => exact table.congr (by simp) (by simp)
  | cons head tail inductionHypothesis =>
      refine (inductionHypothesis ((table.addTo head.1 head.2).addTo head.2 head.1)).congr ?_ ?_
      · intro claimId
        simp only [List.mem_cons, exists_eq_or_imp, or_assoc]
      · intro claimId otherId
        simp only [List.mem_cons, exists_eq_or_imp, or_assoc]

section Build

variable {context : ConflictDetectionContext} {key : ClaimKey} {claims : List Claim}

/-- The pairs that are entered when the index is built. -/
private theorem pairs_ok
    (sorted : claims.Pairwise (fun first second => first.claimId < second.claimId))
    (readable : ∀ claim ∈ claims, Readable claim) (pairs : List (Claim × Claim))
    (among : ∀ pair ∈ pairs, pair.1 ∈ claims ∧ pair.2 ∈ claims) :
    ∃ result, (pairs.map fun pair => (pair.1.claimId, pair.2.claimId)).foldlM
        (enterPair (Dict.ofItems Claim.claimId claims)) ∅ = .ok result ∧
      Maps result (fun ids witness => ∃ pair ∈ pairs, pairOf pair = ids ∧
        overlapWitness pair.1 pair.2 = .ok witness) := by
  have lists : Lists (Dict.ofItems Claim.claimId claims) Claim.claimId (· ∈ claims) :=
    Lists.ofItems (sorted.imp (fun below => ne_of_lt below))
  have general : ∀ (rest : List (Claim × Claim)) (start : Dict ClaimPair JSONObject)
      (known : Claim × Claim → Prop), (∀ pair ∈ rest, pair.1 ∈ claims ∧ pair.2 ∈ claims) →
      (∀ pair, known pair → pair.1 ∈ claims ∧ pair.2 ∈ claims) →
      Maps start (fun ids witness => ∃ pair, known pair ∧ pairOf pair = ids ∧
        overlapWitness pair.1 pair.2 = .ok witness) →
      ∃ result, (rest.map fun pair => (pair.1.claimId, pair.2.claimId)).foldlM
          (enterPair (Dict.ofItems Claim.claimId claims)) start = .ok result ∧
        Maps result (fun ids witness => ∃ pair, (known pair ∨ pair ∈ rest) ∧ pairOf pair = ids ∧
          overlapWitness pair.1 pair.2 = .ok witness) := by
    intro rest
    induction rest with
    | nil =>
        intro start known _ _ maps
        exact ⟨start, rfl, maps.congr (by simp)⟩
    | cons head tail inductionHypothesis =>
        intro start known restAmong knownAmong maps
        obtain ⟨left, right⟩ := restAmong head List.mem_cons_self
        have computed := overlapWitness_eq_witnessOf (readable head.1 left) (readable head.2 right)
        have extended := maps.insert (pairOf head) (witnessOf head) (by
          rintro witness ⟨pair, isKnown, ids, found⟩
          obtain ⟨pairLeft, pairRight⟩ := knownAmong pair isKnown
          have same : (pair.1.claimId, pair.2.claimId) = (head.1.claimId, head.2.claimId) := ids
          injection same with leftId rightId
          rw [lists.eq_of_key pairLeft left leftId, lists.eq_of_key pairRight right rightId,
            computed] at found
          injection found with found
          exact found.symm)
        obtain ⟨result, looped, complete⟩ := inductionHypothesis _
          (fun pair => known pair ∨ pair = head)
          (fun pair later => restAmong pair (List.mem_cons_of_mem _ later))
          (by
            rintro pair (isKnown | same)
            · exact knownAmong pair isKnown
            · rw [same]
              exact ⟨left, right⟩)
          (extended.congr (by
            intro ids witness
            constructor
            · rintro (⟨pair, isKnown, rest⟩ | ⟨same, equal⟩)
              · exact ⟨pair, Or.inl isKnown, rest⟩
              · exact ⟨head, Or.inr rfl, same.symm, equal ▸ computed⟩
            · rintro ⟨pair, isKnown | same, ids, found⟩
              · exact Or.inl ⟨pair, isKnown, ids, found⟩
              · rw [same] at ids found
                rw [computed] at found
                injection found with found
                exact Or.inr ⟨ids.symm, found.symm⟩))
        refine ⟨result, ?_, complete.congr ?_⟩
        · have step : enterPair (Dict.ofItems Claim.claimId claims) start
              (head.1.claimId, head.2.claimId) =
                .ok (start.insert (pairOf head) (witnessOf head)) := by
            simp only [enterPair, lists.get_key left, lists.get_key right]
            rw [bind_of_ok computed]
            rfl
          rw [List.map_cons, List.foldlM_cons, bind_of_ok step]
          exact looped
        · intro ids witness
          simp only [List.mem_cons, or_assoc]
  obtain ⟨result, looped, maps⟩ := general pairs ∅ (fun _ => False) among
    (fun _ => False.elim) (Maps.empty.congr (by simp))
  exact ⟨result, looped, maps.congr (by simp)⟩

/-- Building the index of readable claims from the report about them. -/
theorem buildDirectConflictIndex_ok {found : Option ConflictSet}
    (sorted : claims.Pairwise (fun first second => first.claimId < second.claimId))
    (keyed : ∀ claim ∈ claims, claim.key = key) (readable : ∀ claim ∈ claims, Readable claim)
    (run : findingOf context key claims = .ok found) :
    ∃ index, buildDirectConflictIndex claims context.predicateRegistry found = .ok index ∧
      IndexFor context.predicateRegistry key (· ∈ claims) index := by
  have lists : Lists (Dict.ofItems Claim.claimId claims) Claim.claimId (· ∈ claims) :=
    Lists.ofItems (sorted.imp (fun below => ne_of_lt below))
  have clashes : ∀ first second,
      (first, second) ∈ clashingPairs context.predicateRegistry key claims ↔
        first ∈ claims ∧ second ∈ claims ∧ Clash context.predicateRegistry key first second :=
    mem_clashingPairs sorted
  have boundsRead : ∀ (claimId : String) (claim : Claim),
      (Dict.ofItems Claim.claimId claims)[claimId]? = some claim →
      ∃ bounds, validityBounds claim.validity = .ok bounds :=
    fun claimId claim found => readable claim ((lists claimId claim).mp found).1
  obtain ⟨validity, validityRead, validityMaps⟩ := mapValuesM_ok boundsRead
  obtain ⟨pairs, entered, pairsMaps⟩ := pairs_ok sorted readable
    (clashingPairs context.predicateRegistry key claims) (by
      rintro ⟨first, second⟩ member
      obtain ⟨left, right, _⟩ := (clashes first second).mp member
      exact ⟨left, right⟩)
  have pairsExact :
      Maps pairs (ClashWitness context.predicateRegistry key (Both (· ∈ claims))) := by
    refine pairsMaps.congr ?_
    intro ids witness
    constructor
    · rintro ⟨⟨first, second⟩, member, same, computed⟩
      obtain ⟨left, right, clash⟩ := (clashes first second).mp member
      exact ⟨first, second, ⟨left, right⟩, clash, same, computed⟩
    · rintro ⟨first, second, ⟨left, right⟩, clash, same, computed⟩
      exact ⟨(first, second), (clashes first second).mpr ⟨left, right, clash⟩, same, computed⟩
  unfold buildDirectConflictIndex
  simp only
  rw [bind_of_ok validityRead, witnessPairs_finding sorted keyed readable run, bind_of_ok entered]
  refine ⟨_, rfl, ?_⟩
  constructor
  · exact lists
  · exact keyed
  · exact readable
  · exact Projects.map lists _
  · exact Projects.map lists _
  · refine validityMaps.congr ?_
    intro claimId bounds
    constructor
    · rintro ⟨claim, found, read⟩
      obtain ⟨member, same⟩ := (lists claimId claim).mp found
      exact ⟨claim, member, same, read⟩
    · rintro ⟨claim, member, same, read⟩
      exact ⟨claim, (lists claimId claim).mpr ⟨member, same⟩, read⟩
  · exact pairsExact
  · have start : SetTable ((Dict.ofItems Claim.claimId claims).map fun _ _ => (∅ : PySet String))
        (fun claimId => ∃ claim, claim ∈ claims ∧ claim.claimId = claimId)
        (fun _ _ => False) := by
      constructor
      · intro claimId
        simp only [Dict.get_map, Option.map_eq_some_iff, lists claimId]
        constructor
        · rintro ⟨_, claim, found, _⟩
          exact ⟨claim, found⟩
        · rintro ⟨claim, found⟩
          exact ⟨∅, claim, found, rfl⟩
      · intro claimId otherId
        rw [Dict.get_map]
        cases (Dict.ofItems Claim.claimId claims)[claimId]? with
        | none => simp
        | some claim => simp
    have keysMember : ∀ ids : ClaimPair, ids ∈ pairs.keys ↔ ∃ first second,
        Both (· ∈ claims) first second ∧ Clash context.predicateRegistry key first second ∧
          toLex (first.claimId, second.claimId) = ids := by
      intro ids
      rw [Dict.mem_keys]
      constructor
      · rintro ⟨witness, found⟩
        obtain ⟨first, second, both, clash, same, _⟩ := (pairsExact ids witness).mp found
        exact ⟨first, second, both, clash, same⟩
      · rintro ⟨first, second, both, clash, same⟩
        exact ⟨_, (pairsExact ids _).mpr ⟨first, second, both, clash, same,
          overlapWitness_eq_witnessOf (readable first both.1) (readable second both.2)⟩⟩
    refine (connectAll start pairs.keys).congr ?_ ?_
    · intro claimId
      constructor
      · rintro (owned | ⟨ids, member, place⟩)
        · exact owned
        · obtain ⟨first, second, both, _, same⟩ := (keysMember ids).mp member
          subst same
          rcases place with left | right
          · exact ⟨first, both.1, left.symm⟩
          · exact ⟨second, both.2, right.symm⟩
      · exact Or.inl
    · intro claimId otherId
      constructor
      · rintro (impossible | ⟨ids, member, place⟩)
        · exact impossible.elim
        · obtain ⟨first, second, both, clash, same⟩ := (keysMember ids).mp member
          subst same
          rcases place with ⟨left, right⟩ | ⟨left, right⟩
          · exact ⟨first, second, both, clash, Or.inl ⟨left.symm, right.symm⟩⟩
          · exact ⟨first, second, both, clash, Or.inr ⟨left.symm, right.symm⟩⟩
      · rintro ⟨first, second, both, clash, place⟩
        refine Or.inr ⟨toLex (first.claimId, second.claimId),
          (keysMember _).mpr ⟨first, second, both, clash, rfl⟩, ?_⟩
        rcases place with ⟨left, right⟩ | ⟨left, right⟩
        · exact Or.inl ⟨left.symm, right.symm⟩
        · exact Or.inr ⟨left.symm, right.symm⟩

theorem readable_of_buildDirectConflictIndex {registry : PredicateRegistry}
    {conflict : Option ConflictSet} {index : DirectConflictIndex}
    (distinct : claims.Pairwise (fun first second => first.claimId ≠ second.claimId))
    (run : buildDirectConflictIndex claims registry conflict = .ok index) :
    ∀ claim ∈ claims, Readable claim := by
  have lists : Lists (Dict.ofItems Claim.claimId claims) Claim.claimId (· ∈ claims) :=
    Lists.ofItems distinct
  unfold buildDirectConflictIndex at run
  rw [bind_ok_iff] at run
  obtain ⟨validity, read, _⟩ := run
  intro claim member
  exact readable_of_mapValuesM read claim.claimId claim (lists.get_key member)

end Build

end Statefuse
