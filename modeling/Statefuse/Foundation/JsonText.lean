import Statefuse.Foundation.Json
import Statefuse.Foundation.Number

/-!
# Writing JSON

The text of a value with sorted keys and compact separators.  With `ascii` every
character outside the printable ASCII range is escaped, a character beyond the
basic plane as a surrogate pair; without it only quotes, backslashes and control
characters are.  Texts are lists of characters here; under `ascii` every
character is one byte (`text_printable`).
-/

namespace Foundation

open JsonValue

/-- A decimal digit as a character. -/
def digitText (digit : Fin 10) : Char := Nat.digitChar digit.val

/-- The sign and at least two digits of a decimal exponent. -/
def exponentText (exponent : Int) : List Char :=
  (if exponent < 0 then '-' else '+') ::
    (if exponent.natAbs < 10 then ['0', Nat.digitChar exponent.natAbs]
      else Nat.toDigits 10 exponent.natAbs)

/-- The point and the digits after it, if there are any. -/
def fractionPart (fraction : List (Fin 10)) : List Char :=
  if fraction = [] then [] else '.' :: fraction.map digitText

/-- The exponent mark and the exponent, if there is one. -/
def exponentPart : Option Int → List Char
  | none => []
  | some exponent => 'e' :: exponentText exponent

/-- The shortest text of a float. -/
def PyFloat.text (number : PyFloat) : List Char :=
  (if number.negative then ['-'] else []) ++ Nat.toDigits 10 number.whole ++
    fractionPart number.fraction ++ exponentPart number.exponent

/-- The text of a number. -/
def PyNumber.text : PyNumber → List Char
  | .bool flag => if flag then ['t', 'r', 'u', 'e'] else ['f', 'a', 'l', 's', 'e']
  | .int number => (if number < 0 then ['-'] else []) ++ Nat.toDigits 10 number.natAbs
  | .float number => number.text

/-- A sixteen-bit code unit as `\\u` and four hexadecimal digits. -/
def unicodeEscape (unit : Nat) : List Char :=
  ['\\', 'u', Nat.digitChar (unit / 4096 % 16), Nat.digitChar (unit / 256 % 16),
    Nat.digitChar (unit / 16 % 16), Nat.digitChar (unit % 16)]

/-- One character inside a string literal. -/
def escape (ascii : Bool) (char : Char) : List Char :=
  if char = '"' then ['\\', '"']
  else if char = '\\' then ['\\', '\\']
  else if char = '\n' then ['\\', 'n']
  else if char = '\r' then ['\\', 'r']
  else if char = '\t' then ['\\', 't']
  else if char = '\x08' then ['\\', 'b']
  else if char = '\x0c' then ['\\', 'f']
  else if char.toNat < 32 ∨ (ascii = true ∧ 126 < char.toNat) then
    if char.toNat < 65536 then unicodeEscape char.toNat
    else unicodeEscape (55296 + (char.toNat - 65536) / 1024) ++
      unicodeEscape (56320 + (char.toNat - 65536) % 1024)
  else [char]

/-- A string literal. -/
def stringText (ascii : Bool) (value : String) : List Char :=
  '"' :: (value.toList.flatMap (escape ascii) ++ ['"'])

namespace Json

mutual

/-- The text of a tree. -/
def text (ascii : Bool) : Json PyNumber → List Char
  | .null => ['n', 'u', 'l', 'l']
  | .number value => value.text
  | .str value => stringText ascii value
  | .arr items => '[' :: (itemsText ascii items ++ [']'])
  | .obj members => '{' :: (membersText ascii members ++ ['}'])

/-- Items separated by commas. -/
def itemsText (ascii : Bool) : List (Json PyNumber) → List Char
  | [] => []
  | [last] => text ascii last
  | head :: next :: tail => text ascii head ++ ',' :: itemsText ascii (next :: tail)

/-- Members separated by commas. -/
def membersText (ascii : Bool) : List (String × Json PyNumber) → List Char
  | [] => []
  | [(key, last)] => stringText ascii key ++ ':' :: text ascii last
  | (key, head) :: next :: tail =>
      stringText ascii key ++ ':' :: (text ascii head ++ ',' :: membersText ascii (next :: tail))

end

end Json

/-- `json.dumps` with sorted keys and compact separators. -/
def JsonValue.dumps (ascii : Bool) (value : JsonValue PyNumber) : List Char :=
  value.1.text ascii

end Foundation
