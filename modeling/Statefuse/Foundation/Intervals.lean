import Mathlib.Order.Max
import Mathlib.Data.List.MinMax

/-!
# Common points of half-open intervals

An interval here has a start, an end, both or none of them; it contains its start and
not its end.  In a linear order without a least element, finitely many
such intervals have a common point exactly when every start lies before every end
(`exists_common_point_iff`), and for that it is enough to compare the last start with
the first end (`separated_iff_extremes`).
-/

namespace Foundation

universe u

variable {α : Type u} [LinearOrder α]

/-- Every start lies before every end. -/
def Separated (starts ends : List α) : Prop :=
  ∀ start ∈ starts, ∀ stop ∈ ends, start < stop

theorem separated_iff_extremes (starts ends : List α) :
    Separated starts ends ↔ ∀ start ∈ starts.max?, ∀ stop ∈ ends.min?, start < stop := by
  constructor
  · intro separated start last stop first
    exact separated start (List.max?_eq_some_iff.mp last).1 stop (List.min?_eq_some_iff.mp first).1
  · intro extremes start startListed stop stopListed
    cases last : starts.max? with
    | none =>
        rw [List.max?_eq_none_iff] at last
        rw [last] at startListed
        cases startListed
    | some latest =>
        cases first : ends.min? with
        | none =>
            rw [List.min?_eq_none_iff] at first
            rw [first] at stopListed
            cases stopListed
        | some earliest =>
            have below : start ≤ latest := (List.max?_eq_some_iff.mp last).2 start startListed
            have above : earliest ≤ stop := (List.min?_eq_some_iff.mp first).2 stop stopListed
            exact lt_of_le_of_lt below (lt_of_lt_of_le (extremes latest last earliest first) above)

variable [NoMinOrder α] [Nonempty α]

/-- One point lies in all of the intervals with these starts and ends exactly when every
start lies before every end. -/
theorem exists_common_point_iff (starts ends : List α) :
    (∃ point, (∀ start ∈ starts, start ≤ point) ∧ ∀ stop ∈ ends, point < stop) ↔
      Separated starts ends := by
  constructor
  · rintro ⟨point, after, before⟩ start startListed stop stopListed
    exact lt_of_le_of_lt (after start startListed) (before stop stopListed)
  · intro separated
    cases last : starts.max? with
    | some latest =>
        -- the last start itself is common
        have isLast := List.max?_eq_some_iff.mp last
        refine ⟨latest, isLast.2, ?_⟩
        intro stop stopListed
        exact separated latest isLast.1 stop stopListed
    | none =>
        rw [List.max?_eq_none_iff] at last
        subst last
        cases first : ends.min? with
        | some earliest =>
            rcases exists_lt earliest with ⟨point, below⟩
            refine ⟨point, by simp, ?_⟩
            intro stop stopListed
            exact lt_of_lt_of_le below ((List.min?_eq_some_iff.mp first).2 stop stopListed)
        | none =>
            rw [List.min?_eq_none_iff] at first
            subst first
            rcases ‹Nonempty α› with ⟨point⟩
            exact ⟨point, by simp, by simp⟩

end Foundation
