import Statefuse.Materialize.Acceptance

/-!
# The index of a key has no history

An index that is correct for some claims is brought to any other claims of the key, and
is then their index, whatever it held before; the conflict read off it is the one that
comparing all pairs reports.  Comparing pairs does not read the validity of a claim that
has nothing to be compared with.  Updating an index reads it all the same, so that an
update fails when one of the claims is valid from or until a text that is no timestamp
(`history_free_iff`).
-/

namespace Statefuse

open Foundation

section History

variable [Runtime]
variable {registry : PredicateRegistry} {key : ClaimKey} {member : Claim → Prop}
variable {index : DirectConflictIndex} {claims : List Claim}

/-- The conflict read off the index of some claims, in any order. -/
theorem IndexFor.conflict_eq {context : ConflictDetectionContext}
    (distinct : claims.Pairwise (fun first second => first.claimId ≠ second.claimId))
    (indexed : IndexFor context.predicateRegistry key (· ∈ claims) index) :
    conflictFromDirectIndex index context key = directConflictFor context key claims := by
  have sorted := sortBy_strict distinct
  have members : ∀ claim, claim ∈ claims ↔ claim ∈ sortBy Claim.claimId claims :=
    fun claim => mem_sortBy.symm
  have sortedIndexed := indexed.congr members
  rw [conflictFromDirectIndex_eq sorted sortedIndexed,
    ← directConflictFor_eq sorted sortedIndexed.readable]
  unfold directConflictFor
  rw [sortBy_of_pairwise (sorted.imp (fun below => le_of_lt below))]

/-- Updating the index of some claims gives the index of the others, and the conflict
that comparing all pairs of them finds, exactly when the bounds that these give for
their validity are timestamps. -/
theorem history_free_iff (indexed : IndexFor registry key member index)
    (distinct : claims.Pairwise (fun first second => first.claimId ≠ second.claimId))
    (agree : ∀ claim ∈ claims, ∀ other, member other → other.claimId = claim.claimId →
      other = claim)
    (keyed : ∀ claim ∈ claims, claim.key = key) :
    (∃ next, updateDirectConflictIndex index claims registry = .ok next ∧
        IndexFor registry key (· ∈ claims) next.1 ∧
        ∀ context, context.predicateRegistry = registry →
          conflictFromDirectIndex next.1 context key = directConflictFor context key claims) ↔
      ∀ claim ∈ claims, ∀ bound ∈ claim.givenBounds, Parses bound := by
  constructor
  · rintro ⟨next, updated, _⟩ claim listed
    rw [← readable_iff]
    exact readable_of_updateDirectConflictIndex indexed distinct agree updated claim listed
  · intro parses
    have readable : ∀ claim ∈ claims, Readable claim :=
      fun claim listed => (readable_iff claim).mpr (parses claim listed)
    rcases updateDirectConflictIndex_ok indexed distinct agree keyed readable with
      ⟨next, updated, complete⟩
    refine ⟨next, updated, complete, ?_⟩
    intro context same
    rw [← same] at complete
    exact complete.conflict_eq distinct

end History

section Example

attribute [local instance] Reference.runtime

/-- A claim about the key of the examples. -/
def keyedFact (claimId value : String) : Claim :=
  Reference.fact claimId Reference.key (.str value) []

private theorem keyedFact_readable (claimId value : String) :
    ∀ bound ∈ (keyedFact claimId value).givenBounds, Parses bound := by
  simp [Claim.givenBounds, keyedFact, Reference.fact, List.reduceOption]

/-- The index of one claim is brought to two others that contradict each other. -/
theorem history_free_iff_replaced : ∃ index,
    IndexFor .empty Reference.key (· ∈ [keyedFact "a" "x"]) index ∧
    ∃ next, updateDirectConflictIndex index [keyedFact "c" "z", keyedFact "b" "y"] .empty =
        .ok next ∧
      IndexFor .empty Reference.key (· ∈ [keyedFact "c" "z", keyedFact "b" "y"]) next.1 ∧
      ∀ context, context.predicateRegistry = .empty →
        conflictFromDirectIndex next.1 context Reference.key =
          directConflictFor context Reference.key [keyedFact "c" "z", keyedFact "b" "y"] := by
  have first : ∀ claim ∈ [keyedFact "a" "x"], Readable claim := by
    intro claim listed
    rw [List.mem_singleton.mp listed, readable_iff]
    exact keyedFact_readable "a" "x"
  rcases updateDirectConflictIndex_ok (IndexFor.empty .empty Reference.key)
    (List.pairwise_singleton _ _) (fun _ _ _ none _ => none.elim)
    (by simp [keyedFact, Reference.fact]) first with ⟨single, _, indexed⟩
  refine ⟨single.1, indexed, ?_⟩
  apply (history_free_iff indexed ?_ ?_ ?_).mpr
  · intro claim listed
    rcases List.mem_pair.mp listed with same | same
    · rw [same]
      exact keyedFact_readable "c" "z"
    · rw [same]
      exact keyedFact_readable "b" "y"
  · simp [keyedFact, Reference.fact]
  · intro claim listed other known
    rw [List.mem_singleton.mp known]
    rcases List.mem_pair.mp listed with same | same
    · simp [same, keyedFact, Reference.fact]
    · simp [same, keyedFact, Reference.fact]
  · intro claim listed
    rcases List.mem_pair.mp listed with same | same <;> rw [same] <;> rfl

/-- A claim that is valid from a text that is no timestamp. -/
def undatedFact : Claim :=
  { keyedFact "a" "x" with validity := some (openInterval "soon") }

/-- Alone of its key the claim is in no conflict, yet it cannot be added to the empty
index. -/
theorem single_claim_not_indexed :
    IndexFor .empty Reference.key (fun _ => False) .empty ∧
      (¬∃ next, updateDirectConflictIndex .empty [undatedFact] .empty = .ok next) ∧
      ∀ context, directConflictFor context Reference.key [undatedFact] = .ok none := by
  refine ⟨IndexFor.empty .empty Reference.key, ?_, ?_⟩
  · rintro ⟨next, updated⟩
    have parses := (readable_iff undatedFact).mp (readable_of_updateDirectConflictIndex
      (IndexFor.empty .empty Reference.key) (List.pairwise_singleton _ _)
      (fun _ _ _ none _ => none.elim) updated undatedFact (List.mem_singleton.mpr rfl))
    rcases parses "soon" (by decide) with ⟨instant, parsed⟩
    have fails : (parseUtcIso "soon").toOption.isSome = false := by decide +kernel
    rw [parsed] at fails
    cases fails
  · intro context
    rfl

end Example

end Statefuse
