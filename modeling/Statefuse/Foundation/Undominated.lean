import Mathlib.Order.Preorder.Finite
import Mathlib.Order.Lattice

/-!
# Undominated items

The items of a list are ranked in a preorder.  An item is undominated when no item ranks
strictly above it.  Every item of a finite list lies at or below an undominated one
(`exists_undominated_above`), so that an item is the only undominated one exactly when it
ranks strictly above every other item (`only_undominated_iff`).
-/

namespace Foundation

universe u v

variable {ι : Type u} {R : Type v} [Preorder R]

/-- An item that no item ranks above. -/
def Undominated (items : List ι) (rank : ι → R) (item : ι) : Prop :=
  item ∈ items ∧ ∀ other ∈ items, ¬rank item < rank other

theorem exists_undominated_above {items : List ι} (rank : ι → R) {item : ι}
    (member : item ∈ items) : ∃ top, Undominated items rank top ∧ rank item ≤ rank top := by
  have finite : (rank '' {other | other ∈ items}).Finite := (List.finite_toSet items).image rank
  rcases finite.exists_le_maximal ⟨item, member, rfl⟩ with
    ⟨_, above, ⟨⟨top, topMember, rfl⟩, maximal⟩⟩
  refine ⟨top, ⟨topMember, ?_⟩, above⟩
  intro other otherMember higher
  exact not_le_of_gt higher (maximal ⟨other, otherMember, rfl⟩ (le_of_lt higher))

theorem only_undominated_iff {items : List ι} {rank : ι → R} {item : ι} (member : item ∈ items) :
    (∀ other, Undominated items rank other ↔ other = item) ↔
      ∀ other ∈ items, other ≠ item → rank other < rank item := by
  constructor
  · intro only other otherMember different
    rcases exists_undominated_above rank otherMember with ⟨top, undominated, above⟩
    rw [(only top).mp undominated] at above
    refine lt_of_le_not_ge above ?_
    intro below
    refine different ((only other).mp ⟨otherMember, ?_⟩)
    intro third thirdMember higher
    exact ((only item).mpr rfl).2 third thirdMember (lt_of_le_of_lt below higher)
  · intro above other
    constructor
    · intro undominated
      by_contra different
      exact undominated.2 item member (above other undominated.1 different)
    · intro same
      rw [same]
      refine ⟨member, ?_⟩
      intro third thirdMember higher
      by_cases self : third = item
      · rw [self] at higher
        exact lt_irrefl _ higher
      · exact lt_asymm higher (above third thirdMember self)

end Foundation
