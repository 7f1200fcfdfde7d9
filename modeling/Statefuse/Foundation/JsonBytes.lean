import Statefuse.Foundation.JsonRoundTrip

/-!
# JSON as bytes

The UTF-8 bytes of a text, and the text that bytes stand for.  An ASCII text is written with
one printable byte for each character (`utf8Encode_printable`, `text_printable`).
-/

namespace Foundation

def utf8Encode (text : List Char) : List UInt8 := text.flatMap String.utf8EncodeChar

/-- The text of some bytes, unless they are not UTF-8. -/
def utf8Decode (bytes : List UInt8) : Option (List Char) :=
  bytes.toByteArray.utf8Decode?.map Array.toList

theorem utf8Decode_encode (text : List Char) : utf8Decode (utf8Encode text) = some text := by
  have decoded : text.utf8Encode.utf8Decode? = some text.toArray := List.utf8Decode?_utf8Encode
  change text.utf8Encode.utf8Decode?.map Array.toList = some text
  rw [decoded]
  rfl

/-- A character between the space and the tilde. -/
def Printable (char : Char) : Prop := 32 ≤ char.toNat ∧ char.toNat ≤ 126

theorem utf8Encode_printable {text : List Char} (printable : ∀ char ∈ text, Printable char) :
    utf8Encode text = text.map fun char => char.val.toUInt8 := by
  induction text with
  | nil => rfl
  | cons head rest inductionHypothesis =>
      have small : head.utf8Size = 1 := by
        have bound : head.val.toNat ≤ 126 := (printable head List.mem_cons_self).2
        rw [Char.utf8Size, if_pos]
        rw [UInt32.le_iff_toNat_le]
        exact le_trans bound (by decide)
      rw [utf8Encode, List.flatMap_cons, String.utf8EncodeChar_eq_singleton small, ← utf8Encode,
        inductionHypothesis (fun char listed => printable char (List.mem_cons_of_mem _ listed))]
      rfl

theorem printable_digit {char : Char} (digit : char.isDigit = true) : Printable char := by
  rw [Char.isDigit_iff_toNat] at digit
  have zero : '0'.toNat = 48 := rfl
  have nine : '9'.toNat = 57 := rfl
  unfold Printable
  omega

theorem printable_digits (number : Nat) : ∀ char ∈ Nat.toDigits 10 number, Printable char :=
  fun char listed => printable_digit (isDigit_toDigits number char listed)

theorem printable_append {first second : List Char} (left : ∀ char ∈ first, Printable char)
    (right : ∀ char ∈ second, Printable char) : ∀ char ∈ first ++ second, Printable char := by
  intro char listed
  rcases List.mem_append.mp listed with inFirst | inSecond
  · exact left char inFirst
  · exact right char inSecond

theorem printable_cons {head : Char} {rest : List Char} (first : Printable head)
    (others : ∀ char ∈ rest, Printable char) : ∀ char ∈ head :: rest, Printable char :=
  List.forall_mem_cons.mpr ⟨first, others⟩

theorem printable_nil : ∀ char ∈ ([] : List Char), Printable char := by simp

theorem printable_hexDigit (value : Nat) : Printable (Nat.digitChar (value % 16)) := by
  have each : ∀ value : Fin 16, Printable (Nat.digitChar value.val) := by
    unfold Printable
    decide
  exact each ⟨value % 16, Nat.mod_lt _ (by decide)⟩

theorem printable_unicodeEscape (unit : Nat) : ∀ char ∈ unicodeEscape unit, Printable char := by
  apply printable_cons (by unfold Printable; decide)
  apply printable_cons (by unfold Printable; decide)
  apply printable_cons (printable_hexDigit _)
  apply printable_cons (printable_hexDigit _)
  apply printable_cons (printable_hexDigit _)
  exact printable_cons (printable_hexDigit _) printable_nil

theorem printable_escape (char : Char) : ∀ other ∈ escape true char, Printable other := by
  have two : ∀ second : Char, Printable second →
      ∀ other ∈ ['\\', second], Printable other := by
    intro second printable
    exact printable_cons (by unfold Printable; decide) (printable_cons printable printable_nil)
  unfold escape
  split_ifs with quote backslash newline return_ tab backspace feed special basic
  · exact two _ (by unfold Printable; decide)
  · exact two _ (by unfold Printable; decide)
  · exact two _ (by unfold Printable; decide)
  · exact two _ (by unfold Printable; decide)
  · exact two _ (by unfold Printable; decide)
  · exact two _ (by unfold Printable; decide)
  · exact two _ (by unfold Printable; decide)
  · exact printable_unicodeEscape _
  · exact printable_append (printable_unicodeEscape _) (printable_unicodeEscape _)
  · refine printable_cons ?_ printable_nil
    simp only [true_and, not_or] at special
    unfold Printable
    omega

theorem printable_stringText (value : String) :
    ∀ char ∈ stringText true value, Printable char := by
  have quote : Printable '"' := by
    unfold Printable
    decide
  refine printable_cons quote (printable_append ?_ (printable_cons quote printable_nil))
  intro char listed
  rcases List.mem_flatMap.mp listed with ⟨source, _, escaped⟩
  exact printable_escape source char escaped

theorem printable_float (value : PyFloat) : ∀ char ∈ value.text, Printable char := by
  have sign : ∀ char ∈ (if value.negative then ['-'] else []), Printable char := by
    split
    · exact printable_cons (by unfold Printable; decide) printable_nil
    · exact printable_nil
  have fraction : ∀ char ∈ fractionPart value.fraction, Printable char := by
    unfold fractionPart
    split
    · exact printable_nil
    · apply printable_cons (by unfold Printable; decide)
      intro char listed
      rcases List.mem_map.mp listed with ⟨digit, _, isText⟩
      rw [← isText]
      exact printable_digit (digitText_isDigit digit)
  have exponent : ∀ char ∈ exponentPart value.exponent, Printable char := by
    cases value.exponent with
    | none => exact printable_nil
    | some exponent =>
        apply printable_cons (by unfold Printable; decide)
        unfold exponentText
        apply printable_cons (by split <;> (unfold Printable; decide))
        split
        · rename_i small
          apply printable_cons (by unfold Printable; decide)
          refine printable_cons ?_ printable_nil
          have same : exponent.natAbs % 16 = exponent.natAbs := Nat.mod_eq_of_lt (by omega)
          rw [← same]
          exact printable_hexDigit _
        · exact printable_digits _
  unfold PyFloat.text
  exact printable_append (printable_append (printable_append sign (printable_digits _)) fraction)
    exponent

theorem printable_number (value : PyNumber) : ∀ char ∈ value.text, Printable char := by
  cases value with
  | bool flag => cases flag <;> simp [PyNumber.text, Printable]
  | int number =>
      unfold PyNumber.text
      refine printable_append ?_ (printable_digits _)
      split
      · exact printable_cons (by unfold Printable; decide) printable_nil
      · exact printable_nil
  | float value => exact printable_float value

/-- Every character of an ASCII text is printable. -/
theorem text_printable (tree : Json PyNumber) : ∀ char ∈ tree.text true, Printable char := by
  induction tree using Json.induct with
  | null => simp [Json.text, Printable]
  | number value =>
      rw [Json.text]
      exact printable_number value
  | str value =>
      rw [Json.text]
      exact printable_stringText value
  | arr items inductionHypothesis =>
      rw [Json.text]
      apply printable_cons (by unfold Printable; decide)
      refine printable_append ?_ (printable_cons (by unfold Printable; decide) printable_nil)
      induction items with
      | nil => exact printable_nil
      | cons head tail later =>
          have first := inductionHypothesis head List.mem_cons_self
          have others := later
            (fun item listed => inductionHypothesis item (List.mem_cons_of_mem _ listed))
          cases tail with
          | nil =>
              rw [Json.itemsText]
              exact first
          | cons next tail =>
              rw [Json.itemsText]
              exact printable_append first (printable_cons (by unfold Printable; decide) others)
  | obj members inductionHypothesis =>
      rw [Json.text]
      apply printable_cons (by unfold Printable; decide)
      refine printable_append ?_ (printable_cons (by unfold Printable; decide) printable_nil)
      induction members with
      | nil => exact printable_nil
      | cons head tail later =>
          rcases head with ⟨key, head⟩
          have first := inductionHypothesis (key, head) List.mem_cons_self
          have others := later
            (fun item listed => inductionHypothesis item (List.mem_cons_of_mem _ listed))
          cases tail with
          | nil =>
              rw [Json.membersText]
              exact printable_append (printable_stringText key)
                (printable_cons (by unfold Printable; decide) first)
          | cons next tail =>
              rw [Json.membersText]
              exact printable_append (printable_stringText key)
                (printable_cons (by unfold Printable; decide)
                  (printable_append first
                    (printable_cons (by unfold Printable; decide) others)))

end Foundation
