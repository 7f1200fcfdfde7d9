import Statefuse.Foundation.JsonText

/-!
# Reading JSON

A recursive descent parser in the shape of the host language's own decoder.  Its
functions recurse on an explicit bound, which `loads` takes from the length of the
text; a parse that succeeds under one bound succeeds alike under every larger one
(`parseValue_mono`).

Strings are sequences of Unicode scalar values, so an escaped surrogate that is
not half of a pair is refused, and so are the literals of non-finite floats.
-/

namespace Foundation

open JsonValue

/-- The whitespace between tokens. -/
def isJsonSpace (char : Char) : Bool :=
  char == ' ' || char == '\t' || char == '\n' || char == '\r'

def skipWhitespace (text : List Char) : List Char := text.dropWhile isJsonSpace

/-- The value of a hexadecimal digit. -/
def hexDigit? (char : Char) : Option Nat :=
  if '0' ≤ char ∧ char ≤ '9' then some (char.toNat - 48)
  else if 'a' ≤ char ∧ char ≤ 'f' then some (char.toNat - 87)
  else if 'A' ≤ char ∧ char ≤ 'F' then some (char.toNat - 55)
  else none

/-- Four hexadecimal digits. -/
def hexUnit? (first second third fourth : Char) : Option Nat :=
  match hexDigit? first, hexDigit? second, hexDigit? third, hexDigit? fourth with
  | some a, some b, some c, some d => some (a * 4096 + b * 256 + c * 16 + d)
  | _, _, _, _ => none

/-- The character with a given scalar value, if there is one. -/
def scalar? (value : Nat) : Option Char :=
  if h : value.isValidChar then some (Char.ofNatAux value h) else none

/-- The character of a pair of surrogates. -/
def surrogatePair? (high low : Nat) : Option Char :=
  if 56320 ≤ low ∧ low < 57344 then scalar? (65536 + (high - 55296) * 1024 + (low - 56320))
  else none

/-- The second half of a surrogate pair, after the first. -/
def parseLowSurrogate (high : Nat) : List Char → Option (Char × List Char)
  | '\\' :: 'u' :: a :: b :: c :: d :: rest =>
      (hexUnit? a b c d).bind fun low => (surrogatePair? high low).map fun char => (char, rest)
  | _ => none

/-- What follows the backslash of an escape. -/
def parseEscape : List Char → Option (Char × List Char)
  | '"' :: rest => some ('"', rest)
  | '\\' :: rest => some ('\\', rest)
  | '/' :: rest => some ('/', rest)
  | 'b' :: rest => some ('\x08', rest)
  | 'f' :: rest => some ('\x0c', rest)
  | 'n' :: rest => some ('\n', rest)
  | 'r' :: rest => some ('\r', rest)
  | 't' :: rest => some ('\t', rest)
  | 'u' :: a :: b :: c :: d :: rest =>
      (hexUnit? a b c d).bind fun unit =>
        if 55296 ≤ unit ∧ unit < 56320 then parseLowSurrogate unit rest
        else (scalar? unit).map fun char => (char, rest)
  | _ => none

/-- One character of a string literal; a raw control character is refused. -/
def parseChar : List Char → Option (Char × List Char)
  | [] => none
  | '\\' :: rest => parseEscape rest
  | char :: rest => if char.toNat < 32 then none else some (char, rest)

/-- The rest of a string literal, after its opening quote. -/
def parseString : Nat → List Char → Option (List Char × List Char)
  | 0, _ => none
  | _ + 1, [] => none
  | _ + 1, '"' :: rest => some ([], rest)
  | bound + 1, char :: rest =>
      (parseChar (char :: rest)).bind fun first =>
        (parseString bound first.2).map fun chars => (first.1 :: chars.1, chars.2)

/-- The digits at the front of a text. -/
def takeDigits (text : List Char) : List Char × List Char := text.span Char.isDigit

/-- Ten digits. -/
instance tenDigits : NeZero 10 := ⟨by decide⟩

def digitOf (char : Char) : Fin 10 := Fin.ofNat 10 (char.toNat - 48)

/-- The integer part: a zero alone, or digits that do not start with one. -/
def parseWhole : List Char → Option (Nat × List Char)
  | '0' :: rest => some (0, rest)
  | text =>
      match takeDigits text with
      | ([], _) => none
      | (digits, rest) => some (Nat.ofDigitChars 10 digits 0, rest)

/-- A point and at least one digit, or nothing. -/
def parseFraction : List Char → List (Fin 10) × List Char
  | '.' :: text =>
      match takeDigits text with
      | ([], _) => ([], '.' :: text)
      | (digits, rest) => (digits.map digitOf, rest)
  | text => ([], text)

/-- A sign, if there is one. -/
def parseSign : List Char → Bool × List Char
  | '-' :: rest => (true, rest)
  | '+' :: rest => (false, rest)
  | text => (false, text)

/-- An exponent mark, an optional sign and at least one digit, or nothing. -/
def parseExponent : List Char → Option Int × List Char
  | mark :: text =>
      if mark = 'e' ∨ mark = 'E' then
        match takeDigits (parseSign text).2 with
        | ([], _) => (none, mark :: text)
        | (digits, rest) =>
            let size : Int := Nat.ofDigitChars 10 digits 0
            (some (if (parseSign text).1 then -size else size), rest)
      else (none, mark :: text)
  | [] => (none, [])

/-- A number without a fraction and without an exponent is an integer. -/
def makeNumber (negative : Bool) (whole : Nat) (fraction : List (Fin 10))
    (exponent : Option Int) : PyNumber :=
  if written : fraction ≠ [] ∨ exponent.isSome = true then
    .float ⟨negative, whole, fraction, exponent, written⟩
  else .int (if negative then -whole else whole)

/-- A number after its sign. -/
def parseMagnitude (negative : Bool) (text : List Char) : Option (PyNumber × List Char) :=
  (parseWhole text).map fun whole =>
    let fraction := parseFraction whole.2
    let exponent := parseExponent fraction.2
    (makeNumber negative whole.1 fraction.1 exponent.1, exponent.2)

def parseNumber : List Char → Option (PyNumber × List Char)
  | '-' :: rest => parseMagnitude true rest
  | text => parseMagnitude false text

mutual

/-- One value, without whitespace before it. -/
def parseValue : Nat → List Char → Option (JsonValue PyNumber × List Char)
  | 0, _ => none
  | bound + 1, '"' :: rest =>
      (parseString bound rest).map fun chars => (str (String.ofList chars.1), chars.2)
  | bound + 1, '{' :: rest =>
      match skipWhitespace rest with
      | '}' :: rest => some (obj ∅, rest)
      | rest => (parseMembers bound rest).map fun members =>
          (obj (Std.ExtTreeMap.ofList members.1 compare), members.2)
  | bound + 1, '[' :: rest =>
      match skipWhitespace rest with
      | ']' :: rest => some (arr [], rest)
      | rest => (parseItems bound rest).map fun items => (arr items.1, items.2)
  | _ + 1, 'n' :: 'u' :: 'l' :: 'l' :: rest => some (null, rest)
  | _ + 1, 't' :: 'r' :: 'u' :: 'e' :: rest => some (number (.bool true), rest)
  | _ + 1, 'f' :: 'a' :: 'l' :: 's' :: 'e' :: rest => some (number (.bool false), rest)
  | _ + 1, text => (parseNumber text).map fun found => (number found.1, found.2)

/-- The items of an array, after its bracket, up to and with the closing one. -/
def parseItems : Nat → List Char → Option (List (JsonValue PyNumber) × List Char)
  | 0, _ => none
  | bound + 1, text =>
      (parseValue bound text).bind fun first =>
        match skipWhitespace first.2 with
        | ']' :: rest => some ([first.1], rest)
        | ',' :: rest => (parseItems bound (skipWhitespace rest)).map fun items =>
            (first.1 :: items.1, items.2)
        | _ => none

/-- The members of an object, after its brace, up to and with the closing one. -/
def parseMembers : Nat → List Char → Option (List (String × JsonValue PyNumber) × List Char)
  | 0, _ => none
  | bound + 1, '"' :: text =>
      (parseString bound text).bind fun key =>
        match skipWhitespace key.2 with
        | ':' :: rest =>
            (parseValue bound (skipWhitespace rest)).bind fun first =>
              match skipWhitespace first.2 with
              | '}' :: rest => some ([(String.ofList key.1, first.1)], rest)
              | ',' :: rest => (parseMembers bound (skipWhitespace rest)).map fun members =>
                  ((String.ofList key.1, first.1) :: members.1, members.2)
              | _ => none
        | _ => none
  | _ + 1, _ => none

end

/-- `json.loads`: one value with nothing but whitespace around it. -/
def JsonValue.loads (text : List Char) : Option (JsonValue PyNumber) :=
  (parseValue (text.length + 1) (skipWhitespace text)).bind fun found =>
    if skipWhitespace found.2 = [] then some found.1 else none

end Foundation
