import Mathlib

/-!
# Text of the host language

White space around a text, and the lines of a text that is read with universal newlines.
-/

namespace Statefuse

/-- The characters that `str.strip` removes. -/
def isSpace (char : Char) : Bool :=
  let code := char.toNat
  (9 ≤ code ∧ code ≤ 13) ∨ (28 ≤ code ∧ code ≤ 32) ∨ code = 133 ∨ code = 160 ∨ code = 5760 ∨
    (8192 ≤ code ∧ code ≤ 8202) ∨ code = 8232 ∨ code = 8233 ∨ code = 8239 ∨ code = 8287 ∨
    code = 12288

/-- `text.strip()`. -/
def strip (text : List Char) : List Char :=
  ((text.dropWhile isSpace).reverse.dropWhile isSpace).reverse

/-- Every line terminator becomes a newline. -/
def universalNewlines : List Char → List Char
  | [] => []
  | '\r' :: '\n' :: rest => '\n' :: universalNewlines rest
  | char :: rest => (if char = '\r' then '\n' else char) :: universalNewlines rest

end Statefuse
