import Mathlib

/-!
# Unions of functional relations

A relation from keys to values is functional when no key has two values.  The union of
two functional relations may not be functional; where it is, it is their join.  The laws
of such a partial join hold for every order in which it is computed, because a union is
functional exactly when each of its parts, and each pair of parts, is.
-/

namespace Foundation

universe u v

variable {K : Type u} {V : Type v}

/-- No key has two values. -/
def Functional (related : K → V → Prop) : Prop :=
  ∀ key first second, related key first → related key second → first = second

/-- No key has different values in the two relations. -/
def Agreeing (first second : K → V → Prop) : Prop :=
  ∀ key left right, first key left → second key right → left = right

/-- What is related by one relation or by the other. -/
def union (first second : K → V → Prop) (key : K) (value : V) : Prop :=
  first key value ∨ second key value

section Laws

variable {first second third : K → V → Prop}

theorem union_comm (first second : K → V → Prop) : union first second = union second first := by
  funext key value
  exact propext or_comm

theorem union_assoc (first second third : K → V → Prop) :
    union (union first second) third = union first (union second third) := by
  funext key value
  exact propext or_assoc

theorem union_self (related : K → V → Prop) : union related related = related := by
  funext key value
  exact propext (or_self_iff)

theorem functional_union (left : Functional first) (right : Functional second) :
    Functional (union first second) ↔ Agreeing first second := by
  constructor
  · intro functional key leftValue rightValue leftHolds rightHolds
    exact functional key leftValue rightValue (Or.inl leftHolds) (Or.inr rightHolds)
  · rintro agreeing key a b (aFirst | aSecond) (bFirst | bSecond)
    · exact left key a b aFirst bFirst
    · exact agreeing key a b aFirst bSecond
    · exact (agreeing key b a bFirst aSecond).symm
    · exact right key a b aSecond bSecond

theorem Functional.left (functional : Functional (union first second)) : Functional first :=
  fun key a b aHolds bHolds => functional key a b (Or.inl aHolds) (Or.inl bHolds)

theorem Functional.right (functional : Functional (union first second)) : Functional second :=
  fun key a b aHolds bHolds => functional key a b (Or.inr aHolds) (Or.inr bHolds)

end Laws

end Foundation
