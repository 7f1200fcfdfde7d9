import Statefuse.Foundation.Json
import Statefuse.Foundation.Number

/-!
# The equality of the host language

The host language compares records field by field, dictionaries entry by entry
and numbers of all kinds by value.  A type with such an equality has a key: two
values are equal for the host exactly when their keys are equal.  It is an
equivalence for that reason alone, and it may identify values that are told apart
by their text.
-/

namespace Foundation

/-- A type compared through a key. -/
class PyEq (α : Type) where
  Key : Type
  decidableKey : DecidableEq Key
  key : α → Key

/-- The `==` of the host language. -/
def pyEq {α : Type} [PyEq α] (first second : α) : Bool :=
  @decide (PyEq.key first = PyEq.key second) (PyEq.decidableKey _ _)

section Equivalence

variable {α : Type} [PyEq α] {first second third : α}

theorem pyEq_iff : pyEq first second = true ↔ PyEq.key first = PyEq.key second :=
  @decide_eq_true_iff _ (PyEq.decidableKey _ _)

@[simp] theorem pyEq_refl (value : α) : pyEq value value = true := pyEq_iff.mpr rfl

theorem pyEq_symm (same : pyEq first second = true) : pyEq second first = true :=
  pyEq_iff.mpr (pyEq_iff.mp same).symm

theorem pyEq_trans (left : pyEq first second = true) (right : pyEq second third = true) :
    pyEq first third = true :=
  pyEq_iff.mpr ((pyEq_iff.mp left).trans (pyEq_iff.mp right))

theorem pyEq_comm (first second : α) : pyEq first second = pyEq second first :=
  Bool.eq_iff_iff.mpr ⟨pyEq_symm, pyEq_symm⟩

end Equivalence

/-- A JSON value is compared through its tree with every number replaced by its
value. -/
instance : PyEq (JsonValue PyNumber) where
  Key := Json ℚ
  decidableKey := inferInstance
  key value := value.1.map PyNumber.value

instance : PyEq (JsonObject PyNumber) where
  Key := Json ℚ
  decidableKey := inferInstance
  key members := (JsonValue.obj members).1.map PyNumber.value

example : pyEq (JsonValue.arr [JsonValue.number (PyNumber.bool true)])
    (JsonValue.arr [JsonValue.number (PyNumber.int 1)]) = true := by decide +kernel

end Foundation
