import Statefuse.Integrations.Hydration
import Statefuse.Memory.Deltas

/-!
# The order of hits

Hits are kept in a dictionary under both of their ids and then sorted.  The sort reads
an absent projection id as the empty text, the dictionary does not; so two hits that
differ in that alone stay in the order in which they came.  For all other hits the
hydrated context depends on nothing but which hits there are (`hydration_iff`).
-/

namespace Statefuse

open Foundation

section Theory

variable [Runtime]

/-- Two hits that the order of the hits does not tell apart: one without a projection id,
one whose projection id is the empty text. -/
def Ambiguous (hits : List SearchHit) : Prop :=
  ∃ first ∈ hits, ∃ second ∈ hits, first.externalId = second.externalId ∧
    first.projectionId = none ∧ second.projectionId = some ""

section Order

variable {hits others : List SearchHit}

omit [Runtime] in
theorem uniqueHits_eq (identified : Identified hits) (unambiguous : ¬Ambiguous hits)
    (same : ∀ hit, hit ∈ others ↔ hit ∈ hits) : uniqueHits others = uniqueHits hits := by
  have othersIdentified : Identified others := by
    intro first firstListed second secondListed
    exact identified first ((same first).mp firstListed) second ((same second).mp secondListed)
  refine sortBy_eq_of_mem_iff (OrderedDict.values_ofItems_nodup othersIdentified.keyed)
    (OrderedDict.values_ofItems_nodup identified.keyed) ?_ ?_
  · intro hit
    rw [OrderedDict.mem_values_ofItems othersIdentified.keyed,
      OrderedDict.mem_values_ofItems identified.keyed, same]
  · intro first firstListed second secondListed sameKey
    rw [OrderedDict.mem_values_ofItems othersIdentified.keyed, same] at firstListed secondListed
    have keys := toLex.injective sameKey
    injection keys with projection external
    refine identified first firstListed second secondListed external ?_
    cases firstProjection : first.projectionId with
    | none =>
        cases secondProjection : second.projectionId with
        | none => rfl
        | some name =>
            rw [firstProjection, secondProjection] at projection
            have empty : "" = name := projection
            rw [← empty] at secondProjection
            exact absurd ⟨first, firstListed, second, secondListed, external, firstProjection,
              secondProjection⟩ unambiguous
    | some name =>
        cases secondProjection : second.projectionId with
        | none =>
            rw [firstProjection, secondProjection] at projection
            have empty : name = "" := projection
            rw [empty] at firstProjection
            exact absurd ⟨second, secondListed, first, firstListed, external.symm,
              secondProjection, firstProjection⟩ unambiguous
        | some other =>
            rw [firstProjection, secondProjection] at projection
            exact congrArg some projection

omit [Runtime] in
/-- A list without repetition has two members in one order only. -/
private theorem one_order {α : Type} {items : List α} {first second : α} (distinct : items.Nodup)
    (forward : List.Sublist [first, second] items) :
    ¬List.Sublist [second, first] items := by
  induction items with
  | nil => cases forward
  | cons head tail inductionHypothesis =>
      rcases List.nodup_cons.mp distinct with ⟨fresh, rest⟩
      intro backward
      rcases List.sublist_cons_iff.mp forward with inside | ⟨later, split, after⟩
      · rcases List.sublist_cons_iff.mp backward with both | ⟨later, split, _⟩
        · exact inductionHypothesis rest inside both
        · injection split with atHead _
          rw [← atHead] at fresh
          exact fresh (inside.subset (by simp))
      · injection split with atHead same
        rw [← atHead] at fresh
        rcases List.sublist_cons_iff.mp backward with both | ⟨_, again, last⟩
        · exact fresh (both.subset (by simp))
        · injection again with secondHead same'
          rw [← same'] at last
          exact fresh (last.subset (by simp))

omit [Runtime] in
/-- Hits in front of the others keep their order where it does not tell them apart. -/
theorem uniqueHits_pair {first second : SearchHit}
    (identified : Identified (first :: second :: hits))
    (different : first.projectionId ≠ second.projectionId)
    (sameExternal : first.externalId = second.externalId)
    (sameOrder : first.projectionId.getD "" = second.projectionId.getD "") :
    List.Sublist [first, second] (uniqueHits (first :: second :: hits)) := by
  have front := OrderedDict.values_ofItems_pair identified.keyed (by
    intro same
    injection same with _ projection
    exact different projection)
  apply List.pair_sublist_insertionSort _ front.sublist
  apply le_of_eq
  simp only [sameOrder, sameExternal]

end Order

/-! ## Hydration of a memory -/

section Hydration

variable {codec : CheckpointCodec} {memory : Memory} {log : OpLog} {registry : PredicateRegistry}
  {detectors : List ConflictDetector} {state : MemoryState} {hits : List SearchHit}
  {maxRelatedConflicts maxClaims : Int}

/-- Within its bounds a hydration is that of the state the memory is materialized to. -/
theorem hydrateSearchHits_eq (returned : (memory.materialize codec .default).1 = .ok state)
    (hits : List SearchHit) (conflictsBound : 1 ≤ maxRelatedConflicts)
    (claimsBound : 1 ≤ maxClaims) :
    (hydrateSearchHits codec memory hits maxRelatedConflicts maxClaims).1 =
      hydrate state hits maxRelatedConflicts maxClaims := by
  have within : checkBounds maxRelatedConflicts maxClaims = .ok () := by
    rw [checkBounds, if_neg (by omega)]
  rw [hydrateSearchHits, within]
  simp only [returned]
  rfl

omit [Runtime] in
/-- A result that does not depend on the order of the hits has no ambiguous hits. -/
theorem unambiguous_of_order (identified : Identified hits)
    (computed : ∀ others : List SearchHit, (∀ hit, hit ∈ others ↔ hit ∈ hits) →
      uniqueHits others = uniqueHits hits) : ¬Ambiguous hits := by
  rintro ⟨first, firstListed, second, secondListed, external, absent, empty⟩
  have members : ∀ one other : SearchHit, one ∈ hits → other ∈ hits →
      ∀ hit, hit ∈ one :: other :: hits ↔ hit ∈ hits := by
    intro one other oneListed otherListed hit
    rw [List.mem_cons, List.mem_cons]
    constructor
    · rintro (same | same | listed)
      · rw [same]
        exact oneListed
      · rw [same]
        exact otherListed
      · exact listed
    · exact fun listed => Or.inr (Or.inr listed)
  have stillIdentified : ∀ others : List SearchHit, (∀ hit, hit ∈ others ↔ hit ∈ hits) →
      Identified others := by
    intro others same one oneListed other otherListed
    exact identified one ((same one).mp oneListed) other ((same other).mp otherListed)
  have forwardMembers := members first second firstListed secondListed
  have backwardMembers := members second first secondListed firstListed
  have different : first.projectionId ≠ second.projectionId := by
    rw [absent, empty]
    exact fun same => by cases same
  have sameOrder : first.projectionId.getD "" = second.projectionId.getD "" := by
    rw [absent, empty]
    rfl
  have forward := uniqueHits_pair (stillIdentified _ forwardMembers) different external sameOrder
  have backward := uniqueHits_pair (stillIdentified _ backwardMembers) different.symm
    external.symm sameOrder.symm
  rw [computed _ forwardMembers] at forward
  rw [computed _ backwardMembers] at backward
  exact one_order (sortBy_nodup (OrderedDict.values_ofItems_nodup identified.keyed)) forward
    backward

theorem hydrate_searchHits {hydrated : HydratedContext}
    (computed : hydrate state hits maxRelatedConflicts maxClaims = .ok hydrated) :
    hydrated.searchHits = uniqueHits hits := by
  simp only [hydrate, bind_ok_iff, pure_ok_iff] at computed
  obtain ⟨_, _, same⟩ := computed
  rw [← same]

/-- Whatever the hits and the bounds, the hydrated context is closed and current; it does
not depend on the order and repetition of the hits exactly when no two hits share their
external id while one has no projection id and the other an empty one. -/
theorem hydration_iff (returned : (memory.materialize codec .default).1 = .ok state)
    (run : materialize log registry detectors none ∅ = .ok state) (identified : Identified hits)
    (conflictsBound : 1 ≤ maxRelatedConflicts) (claimsBound : 1 ≤ maxClaims) :
    ((∃ hydrated, (hydrateSearchHits codec memory hits maxRelatedConflicts maxClaims).1 =
          .ok hydrated ∧ hydrated.Closed log registry state hits) ∧
        ∀ others : List SearchHit, (∀ hit, hit ∈ others ↔ hit ∈ hits) →
          (hydrateSearchHits codec memory others maxRelatedConflicts maxClaims).1 =
            (hydrateSearchHits codec memory hits maxRelatedConflicts maxClaims).1) ↔
      ¬Ambiguous hits := by
  have computes := fun others : List SearchHit =>
    hydrateSearchHits_eq returned others conflictsBound claimsBound
  obtain ⟨hydrated, computed⟩ := hydrate_exists run hits maxRelatedConflicts maxClaims
  constructor
  · intro both
    apply unambiguous_of_order identified
    intro others same
    have equal := both.2 others same
    rw [computes, computes, computed] at equal
    rw [← hydrate_searchHits equal, hydrate_searchHits computed]
  · intro unambiguous
    refine ⟨⟨hydrated, (computes hits).trans computed, hydrate_closed run identified computed⟩, ?_⟩
    intro others same
    rw [computes, computes, hydrate, hydrate, uniqueHits_eq identified unambiguous same]

end Hydration

end Theory

/-! ## A memory with a resolved conflict -/

section Example

attribute [local instance] Reference.runtime

/-- A store that the operations of a resolved conflict were appended to. -/
def searchedStore : InMemoryStore :=
  match InMemoryStore.empty.appendMany resolvedOps with
  | .ok (store, _) => store
  | .error _ => .empty

/-- A memory over it, whose own detector reports nothing. -/
def searchedMemory : Memory :=
  { Memory.create (some (.empty, 0)) [fun _ => .ok []] none with store := searchedStore }

/-- Two hits of one external id, one without a projection id, one with an empty one. -/
def unlabelledHit : SearchHit := ⟨"e", none, "x", none, ["a"], [], ∅⟩

def emptyLabelledHit : SearchHit := ⟨"e", some "", "x", none, ["a"], [], ∅⟩

private theorem searchedMemory_materialize {log : OpLog}
    (loaded : searchedStore.loadOplog = .ok log) :
    (searchedMemory.materialize Memory.blankCodec .default).1 =
      materialize log .empty [fun _ => .ok []] none ∅ := by
  change (searchedStore.loadOplog >>= fun log =>
    materialize log .empty [fun _ => .ok []] none ∅) = _
  rw [loaded]
  rfl

/-- The state of that memory: one conflict, and two claims. -/
private theorem searchedMemory_state : ∃ log state,
    (searchedMemory.materialize Memory.blankCodec .default).1 = .ok state ∧
      materialize log .empty [fun _ => .ok []] none ∅ = .ok state ∧
      state.conflicts.length = 1 := by
  have computed : (searchedMemory.materialize Memory.blankCodec .default).1.toOption.map
      (fun state => state.conflicts.length) = some 1 := by
    decide +kernel
  cases loaded : searchedStore.loadOplog with
  | error failure =>
      have failed : (searchedMemory.materialize Memory.blankCodec .default).1 = .error failure := by
        change (searchedStore.loadOplog >>= fun log =>
          materialize log .empty [fun _ => .ok []] none ∅) = _
        rw [loaded]
        rfl
      rw [failed] at computed
      cases computed
  | ok log =>
      rw [searchedMemory_materialize loaded] at computed ⊢
      cases run : materialize log .empty [fun _ => .ok []] none ∅ with
      | error failure =>
          rw [run] at computed
          cases computed
      | ok state =>
          rw [run] at computed
          injection computed with single
          exact ⟨log, state, rfl, run, single⟩

private theorem labelledHits_identified : Identified [unlabelledHit, emptyLabelledHit] := by
  unfold Identified
  decide +kernel

/-- In the one order the hit without a projection id comes first, in the other it comes
last. -/
theorem hydration_order_differs :
    Identified [unlabelledHit, emptyLabelledHit] ∧
    (∃ log state, (searchedMemory.materialize Memory.blankCodec .default).1 = .ok state ∧
      materialize log .empty [fun _ => .ok []] none ∅ = .ok state) ∧
    (hydrateSearchHits Memory.blankCodec searchedMemory [unlabelledHit, emptyLabelledHit]
        32 128).1 ≠
      (hydrateSearchHits Memory.blankCodec searchedMemory [emptyLabelledHit, unlabelledHit]
        32 128).1 := by
  obtain ⟨log, state, returned, run, _⟩ := searchedMemory_state
  refine ⟨labelledHits_identified, ⟨log, state, returned, run⟩, ?_⟩
  intro same
  rw [hydrateSearchHits_eq returned _ (by decide) (by decide),
    hydrateSearchHits_eq returned _ (by decide) (by decide)] at same
  obtain ⟨hydrated, computed⟩ := hydrate_exists run [unlabelledHit, emptyLabelledHit] 32 128
  have forward := hydrate_searchHits computed
  rw [same] at computed
  rw [hydrate_searchHits computed] at forward
  revert forward
  decide +kernel

/-- A hit of that external id with a projection id of its own. -/
private def labelledHit : SearchHit := ⟨"e", some "p", "x", none, ["a"], [], ∅⟩

theorem hydration_iff_both_orders :
    ∃ log state hydrated,
      (searchedMemory.materialize Memory.blankCodec .default).1 = .ok state ∧
      materialize log .empty [fun _ => .ok []] none ∅ = .ok state ∧
      (hydrateSearchHits Memory.blankCodec searchedMemory [unlabelledHit, labelledHit] 32 128).1 =
        .ok hydrated ∧
      hydrated.Closed log .empty state [unlabelledHit, labelledHit] ∧
      (hydrateSearchHits Memory.blankCodec searchedMemory
        [labelledHit, unlabelledHit, labelledHit] 32 128).1 = .ok hydrated := by
  obtain ⟨log, state, returned, run, _⟩ := searchedMemory_state
  have identified : Identified [unlabelledHit, labelledHit] := by
    unfold Identified
    decide +kernel
  have unambiguous : ¬Ambiguous [unlabelledHit, labelledHit] := by
    unfold Ambiguous
    decide +kernel
  obtain ⟨⟨hydrated, computed, closed⟩, ordered⟩ :=
    (hydration_iff returned run identified (by decide : (1 : Int) ≤ 32)
      (by decide : (1 : Int) ≤ 128)).mpr unambiguous
  refine ⟨log, state, hydrated, returned, run, computed, closed, ?_⟩
  have same : ∀ hit, hit ∈ [labelledHit, unlabelledHit, labelledHit] ↔
      hit ∈ [unlabelledHit, labelledHit] := by
    intro hit
    rw [List.mem_cons, List.mem_pair, or_left_comm, or_self]
  exact (ordered _ same).trans computed

end Example

end Statefuse
