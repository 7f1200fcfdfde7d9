import Statefuse.Foundation.JsonParser

/-!
# What is written is read back

`loads_dumps` is the round trip: the decoder reads every text of the encoder, in
both escaping modes, as the value it came from.  It makes the encoder injective,
which is what a content digest rests on (`dumps_injective`).

The proof follows the parser.  Each reading function is shown to undo one writing
function in front of an arbitrary remaining text; only numbers put a condition on
that remainder, because a digit, a point or an exponent mark would continue them.
-/

namespace Foundation

open JsonValue

/-- A remaining text that does not continue a number. -/
def Stops (rest : List Char) : Prop :=
  ∀ char ∈ rest.head?, char.isDigit = false ∧ char ≠ '.' ∧ char ≠ 'e' ∧ char ≠ 'E'

theorem stops_nil : Stops [] := by
  intro char member
  cases member

theorem stops_cons {char : Char} {rest : List Char} (digit : char.isDigit = false)
    (point : char ≠ '.') (lower : char ≠ 'e') (upper : char ≠ 'E') : Stops (char :: rest) := by
  intro other member
  injection member with same
  subst same
  exact ⟨digit, point, lower, upper⟩

theorem takeDigits_append {digits rest : List Char} (all : ∀ char ∈ digits, char.isDigit = true)
    (stops : ∀ char ∈ rest.head?, char.isDigit = false) :
    takeDigits (digits ++ rest) = (digits, rest) := by
  rw [takeDigits, List.span_eq_takeWhile_dropWhile]
  have nothing : rest.takeWhile Char.isDigit = [] := by
    cases rest with
    | nil => rfl
    | cons head tail =>
        exact List.takeWhile_cons_of_neg (by simp [stops head rfl])
  have everything : rest.dropWhile Char.isDigit = rest := by
    cases rest with
    | nil => rfl
    | cons head tail =>
        exact List.dropWhile_cons_of_neg (by simp [stops head rfl])
  rw [List.takeWhile_append_of_pos all, List.dropWhile_append_of_pos all, nothing, everything,
    List.append_nil]

theorem isDigit_toDigits (number : Nat) :
    ∀ char ∈ Nat.toDigits 10 number, char.isDigit = true :=
  fun _ member => Nat.isDigit_of_mem_toDigits (by decide) (by decide) member

/-- The decimal text of a positive number does not start with a zero. -/
theorem head_toDigits_ne_zero (number : Nat) (positive : 0 < number) :
    ∃ head tail, Nat.toDigits 10 number = head :: tail ∧ head ≠ '0' := by
  induction number using Nat.strong_induction_on with
  | h number inductionHypothesis =>
      by_cases small : number < 10
      · refine ⟨number.digitChar, [], Nat.toDigits_of_lt_base small, ?_⟩
        intro zero
        exact absurd (Nat.digitChar_eq_zero.mp zero) (Nat.ne_of_gt positive)
      · obtain ⟨head, tail, digits, nonzero⟩ := inductionHypothesis (number / 10)
          (Nat.div_lt_self positive (by decide)) (Nat.div_pos (Nat.le_of_not_lt small) (by decide))
        refine ⟨head, tail ++ [(number % 10).digitChar], ?_, nonzero⟩
        rw [Nat.toDigits_of_base_le (by decide) (Nat.le_of_not_lt small), digits, List.cons_append]

theorem parseWhole_toDigits (number : Nat) {rest : List Char}
    (stops : ∀ char ∈ rest.head?, char.isDigit = false) :
    parseWhole (Nat.toDigits 10 number ++ rest) = some (number, rest) := by
  rcases Nat.eq_zero_or_pos number with rfl | positive
  · rfl
  · obtain ⟨head, tail, digits, nonzero⟩ := head_toDigits_ne_zero number positive
    have taken := takeDigits_append (isDigit_toDigits number) stops
    have value : Nat.ofDigitChars 10 (head :: tail) 0 = number := by
      rw [← digits]
      exact Nat.ofDigitChars_ten_toDigits
    rw [digits, List.cons_append] at *
    unfold parseWhole
    split
    · rename_i matched
      injection matched with same
      exact absurd same nonzero
    · rw [taken]
      simp only [value]

theorem digitText_isDigit (digit : Fin 10) : (digitText digit).isDigit = true := by
  revert digit
  decide

theorem digitOf_digitText (digit : Fin 10) : digitOf (digitText digit) = digit := by
  revert digit
  decide

theorem parseFraction_text (fraction : List (Fin 10)) {rest : List Char}
    (stops : ∀ char ∈ rest.head?, char.isDigit = false ∧ char ≠ '.') :
    parseFraction (fractionPart fraction ++ rest) = (fraction, rest) := by
  cases fraction with
  | nil =>
      rw [fractionPart, if_pos rfl, List.nil_append]
      cases rest with
      | nil => rfl
      | cons head tail =>
          unfold parseFraction
          split
          · rename_i matched
            injection matched with same
            exact absurd same (stops head rfl).2
          · rfl
  | cons head tail =>
      have taken : takeDigits ((head :: tail).map digitText ++ rest) =
          ((head :: tail).map digitText, rest) := by
        apply takeDigits_append
        · intro char member
          obtain ⟨digit, _, rfl⟩ := List.mem_map.mp member
          exact digitText_isDigit digit
        · intro char member
          exact (stops char member).1
      rw [fractionPart, if_neg (by simp), List.cons_append]
      simp only [parseFraction, taken]
      simp [digitOf_digitText, Function.comp_def]

/-- The digits of an exponent. -/
private theorem exponentDigits (size : Nat) :
    ∃ head tail, (if size < 10 then ['0', Nat.digitChar size] else Nat.toDigits 10 size) =
        head :: tail ∧
      (∀ char ∈ head :: tail, char.isDigit = true) ∧
      Nat.ofDigitChars 10 (head :: tail) 0 = size := by
  by_cases small : size < 10
  · refine ⟨'0', [Nat.digitChar size], if_pos small, ?_, ?_⟩
    · intro char member
      rcases List.mem_cons.mp member with rfl | member
      · rfl
      · rw [List.mem_singleton.mp member]
        rw [Nat.isDigit_digitChar, decide_eq_true small]
    · rw [Nat.ofDigitChars_cons, Nat.ofDigitChars_cons_digitChar_of_lt_ten small]
      simp
  · have nonempty := Nat.toDigits_ne_nil (n := size) (b := 10)
    obtain ⟨head, tail, digits⟩ := List.exists_cons_of_ne_nil nonempty
    refine ⟨head, tail, by rw [if_neg small, digits], ?_, ?_⟩
    · rw [← digits]
      exact isDigit_toDigits size
    · rw [← digits]
      exact Nat.ofDigitChars_ten_toDigits

theorem parseExponent_text (exponent : Option Int) {rest : List Char} (stops : Stops rest) :
    parseExponent (exponentPart exponent ++ rest) = (exponent, rest) := by
  cases exponent with
  | none =>
      cases rest with
      | nil => rfl
      | cons head tail =>
          obtain ⟨_, _, lower, upper⟩ := stops head rfl
          change parseExponent (head :: tail) = (none, head :: tail)
          rw [parseExponent, if_neg (by simp [lower, upper])]
  | some value =>
      obtain ⟨head, tail, written, digits, size⟩ := exponentDigits value.natAbs
      have taken : takeDigits (head :: tail ++ rest) = (head :: tail, rest) :=
        takeDigits_append digits (fun char member => (stops char member).1)
      change parseExponent ('e' :: (exponentText value ++ rest)) = (some value, rest)
      rw [exponentText, written, parseExponent, if_pos (Or.inl rfl), List.cons_append]
      by_cases negative : value < 0
      · rw [if_pos negative]
        simp only [parseSign, taken, size, if_true]
        congr 2
        omega
      · rw [if_neg negative]
        simp only [parseSign, taken, size]
        simp only [Bool.false_eq_true, if_false]
        congr 2
        omega

/-- A decimal text does not start with a sign. -/
theorem toDigits_head (number : Nat) :
    ∃ head tail, Nat.toDigits 10 number = head :: tail ∧ head.isDigit = true := by
  obtain ⟨head, tail, digits⟩ :=
    List.exists_cons_of_ne_nil (Nat.toDigits_ne_nil (n := number) (b := 10))
  refine ⟨head, tail, digits, isDigit_toDigits number head ?_⟩
  rw [digits]
  exact List.mem_cons_self

theorem parseNumber_sign (negative : Bool) (number : Nat) (rest : List Char) :
    parseNumber ((if negative then ['-'] else []) ++ Nat.toDigits 10 number ++ rest) =
      parseMagnitude negative (Nat.toDigits 10 number ++ rest) := by
  cases negative with
  | true => rfl
  | false =>
      obtain ⟨head, tail, digits, digit⟩ := toDigits_head number
      simp only [Bool.false_eq_true, if_false, List.nil_append]
      rw [digits, List.cons_append]
      unfold parseNumber
      split
      · rename_i matched
        injection matched with same
        subst same
        cases digit
      · rfl

/-- The number a text spells is an integer or a float; booleans are literals. -/
theorem parseNumber_int (value : Int) {rest : List Char} (stops : Stops rest) :
    parseNumber ((PyNumber.int value).text ++ rest) = some (.int value, rest) := by
  have digits : ∀ char ∈ rest.head?, char.isDigit = false := fun char member =>
    (stops char member).1
  have sign : (if value < 0 then ['-'] else []) = if decide (value < 0) then ['-'] else [] := by
    simp
  rw [PyNumber.text, sign, parseNumber_sign, parseMagnitude, parseWhole_toDigits _ digits]
  have fraction : parseFraction rest = ([], rest) := parseFraction_text []
    (fun char member => ⟨(stops char member).1, (stops char member).2.1⟩)
  have exponent : parseExponent rest = (none, rest) := parseExponent_text none stops
  have magnitude : (if decide (value < 0) = true then -(value.natAbs : Int)
      else value.natAbs) = value := by
    by_cases negative : value < 0
    · rw [if_pos (decide_eq_true negative)]
      omega
    · rw [if_neg (by simpa using negative)]
      omega
  simp only [Option.map_some, fraction, exponent]
  rw [makeNumber, dif_neg (by simp), magnitude]

theorem parseNumber_float (value : PyFloat) {rest : List Char} (stops : Stops rest) :
    parseNumber (value.text ++ rest) = some (.float value, rest) := by
  obtain ⟨negative, whole, fraction, exponent, written⟩ := value
  have afterFraction : ∀ char ∈ (exponentPart exponent ++ rest).head?,
      char.isDigit = false ∧ char ≠ '.' := by
    intro char member
    cases exponent with
    | none => exact ⟨(stops char member).1, (stops char member).2.1⟩
    | some value =>
        injection member with same
        subst same
        decide
  have afterWhole : ∀ char ∈ (fractionPart fraction ++ (exponentPart exponent ++ rest)).head?,
      char.isDigit = false := by
    intro char member
    cases fraction with
    | nil => exact (afterFraction char member).1
    | cons head tail =>
        injection member with same
        subst same
        decide
  rw [PyFloat.text]
  simp only [List.append_assoc]
  rw [← List.append_assoc, parseNumber_sign, parseMagnitude, parseWhole_toDigits _ afterWhole]
  simp only [Option.map_some, parseFraction_text fraction afterFraction,
    parseExponent_text exponent stops, makeNumber, dif_pos written]

/-! ## Strings -/

theorem hexDigit_digitChar {digit : Nat} (small : digit < 16) :
    hexDigit? (Nat.digitChar digit) = some digit := by
  have each : ∀ value : Fin 16, hexDigit? (Nat.digitChar value.val) = some value.val := by decide
  exact each ⟨digit, small⟩

/-- The four digits of a code unit are read as that unit. -/
theorem hexUnit_digits {unit : Nat} (small : unit < 65536) :
    hexUnit? (Nat.digitChar (unit / 4096 % 16)) (Nat.digitChar (unit / 256 % 16))
      (Nat.digitChar (unit / 16 % 16)) (Nat.digitChar (unit % 16)) = some unit := by
  rw [hexUnit?, hexDigit_digitChar (by omega), hexDigit_digitChar (by omega),
    hexDigit_digitChar (by omega), hexDigit_digitChar (by omega)]
  simp only [Option.some.injEq]
  omega

theorem scalar_toNat (char : Char) : scalar? char.toNat = some char := by
  have valid : char.toNat.isValidChar := char.valid
  rw [scalar?, dif_pos valid]
  congr 1

private theorem toNat_bounds (char : Char) :
    char.toNat < 55296 ∨ (57343 < char.toNat ∧ char.toNat < 1114112) := char.valid

/-- An escaped character of the basic plane. -/
private theorem parseChar_unit {char : Char} (small : char.toNat < 65536) (rest : List Char) :
    parseChar (unicodeEscape char.toNat ++ rest) = some (char, rest) := by
  have bounds := toNat_bounds char
  change (hexUnit? _ _ _ _).bind _ = _
  rw [hexUnit_digits small, Option.bind_some, if_neg (by omega), scalar_toNat]
  rfl

/-- An escaped character beyond the basic plane. -/
private theorem parseChar_pair {char : Char} (large : ¬char.toNat < 65536) (rest : List Char) :
    parseChar (unicodeEscape (55296 + (char.toNat - 65536) / 1024) ++
      unicodeEscape (56320 + (char.toNat - 65536) % 1024) ++ rest) = some (char, rest) := by
  have bounds := toNat_bounds char
  have value : 65536 + (55296 + (char.toNat - 65536) / 1024 - 55296) * 1024 +
      (56320 + (char.toNat - 65536) % 1024 - 56320) = char.toNat := by omega
  change (hexUnit? _ _ _ _).bind _ = _
  rw [hexUnit_digits (by omega), Option.bind_some, if_pos (by omega)]
  change (hexUnit? _ _ _ _).bind _ = _
  rw [hexUnit_digits (by omega), Option.bind_some, surrogatePair?, if_pos (by omega), value,
    scalar_toNat]
  rfl

/-- Every escaped character is read as itself. -/
theorem parseChar_escape (ascii : Bool) (char : Char) (rest : List Char) :
    parseChar (escape ascii char ++ rest) = some (char, rest) := by
  unfold escape
  split_ifs with quote backslash newline return_ tab backspace feed special basic
  all_goals try subst char; rfl
  · exact parseChar_unit basic rest
  · exact parseChar_pair basic rest
  · rw [List.singleton_append]
    unfold parseChar
    split
    · rename_i empty
      cases empty
    · rename_i matched
      injection matched with same
      exact absurd same backslash
    · rename_i matched
      injection matched with same others
      subst same
      subst others
      rw [if_neg (fun control => special (Or.inl control))]

/-- An escaped character does not start with a quote. -/
theorem escape_head (ascii : Bool) (char : Char) :
    ∃ head tail, escape ascii char = head :: tail ∧ head ≠ '"' := by
  unfold escape
  split_ifs with quote
  all_goals first
    | exact ⟨_, _, rfl, by decide⟩
    | exact ⟨_, _, rfl, quote⟩

theorem parseString_cons {head : Char} (notQuote : head ≠ '"') (bound : Nat) (tail : List Char) :
    parseString (bound + 1) (head :: tail) =
      (parseChar (head :: tail)).bind fun first =>
        (parseString bound first.2).map fun chars => (first.1 :: chars.1, chars.2) := by
  rw [parseString]
  intro same
  exact absurd same notQuote

theorem parseString_escape (ascii : Bool) (chars rest : List Char) (bound : Nat)
    (enough : (chars.flatMap (escape ascii)).length < bound) :
    parseString bound (chars.flatMap (escape ascii) ++ '"' :: rest) = some (chars, rest) := by
  induction chars generalizing bound with
  | nil =>
      cases bound with
      | zero => cases enough
      | succ bound => rfl
  | cons first others inductionHypothesis =>
      obtain ⟨head, tail, escaped, notQuote⟩ := escape_head ascii first
      have read := parseChar_escape ascii first (others.flatMap (escape ascii) ++ '"' :: rest)
      rw [List.flatMap_cons, List.length_append] at enough
      rw [List.flatMap_cons, List.append_assoc]
      rw [escaped, List.cons_append] at read ⊢
      rw [escaped, List.length_cons] at enough
      cases bound with
      | zero => cases enough
      | succ bound =>
          rw [parseString_cons notQuote, read, Option.bind_some,
            inductionHypothesis bound (by omega)]
          rfl

/-! ## Values -/

theorem skipWhitespace_of_head {head : Char} (tail : List Char)
    (token : isJsonSpace head = false) : skipWhitespace (head :: tail) = head :: tail :=
  List.dropWhile_cons_of_neg (by simp [token])

theorem parseString_text (ascii : Bool) (value : String) (rest : List Char) (bound : Nat)
    (enough : (stringText ascii value).length ≤ bound) :
    ∃ tail, stringText ascii value ++ rest = '"' :: tail ∧
      parseString bound tail = some (value.toList, rest) := by
  rw [stringText, List.length_cons, List.length_append] at enough
  refine ⟨value.toList.flatMap (escape ascii) ++ '"' :: rest, by simp [stringText], ?_⟩
  exact parseString_escape ascii value.toList rest bound (by omega)

/-- The texts of values start with a character that is neither whitespace nor a
closing bracket, so that the parser takes the branch of a value. -/
private def StartsValue (head : Char) : Prop :=
  isJsonSpace head = false ∧ head ≠ ']' ∧ head ≠ '}'

private instance : DecidablePred StartsValue :=
  fun head => inferInstanceAs (Decidable (isJsonSpace head = false ∧ head ≠ ']' ∧ head ≠ '}'))

private theorem startsValue_of_isDigit {head : Char} (digit : head.isDigit = true) :
    StartsValue head := by
  refine ⟨?_, ?_, ?_⟩
  · simp only [isJsonSpace, Bool.or_eq_false_iff, beq_eq_false_iff_ne]
    refine ⟨⟨⟨?_, ?_⟩, ?_⟩, ?_⟩ <;> (rintro rfl; cases digit)
  · rintro rfl
    cases digit
  · rintro rfl
    cases digit

private theorem signed_head (negative : Bool) (number : Nat) (rest : List Char) :
    ∃ head tail, (if negative then ['-'] else []) ++ Nat.toDigits 10 number ++ rest =
        head :: tail ∧ (head = '-' ∨ head.isDigit = true) := by
  obtain ⟨head, tail, digits, digit⟩ := toDigits_head number
  cases negative with
  | true => exact ⟨'-', _, rfl, Or.inl rfl⟩
  | false => exact ⟨head, tail ++ rest, by simp [digits], Or.inr digit⟩

private theorem number_head (value : PyNumber) (plain : ∀ flag, value ≠ .bool flag) :
    ∃ head tail, value.text = head :: tail ∧ (head = '-' ∨ head.isDigit = true) := by
  cases value with
  | bool flag => exact absurd rfl (plain flag)
  | int value =>
      obtain ⟨head, tail, written, start⟩ := signed_head (decide (value < 0)) value.natAbs []
      refine ⟨head, tail, ?_, start⟩
      rw [← written, PyNumber.text, List.append_nil]
      simp
  | float value =>
      obtain ⟨head, tail, written, start⟩ := signed_head value.negative value.whole
        (fractionPart value.fraction ++ exponentPart value.exponent)
      refine ⟨head, tail, ?_, start⟩
      rw [← written, PyNumber.text, PyFloat.text]
      simp only [List.append_assoc]

private theorem text_head (ascii : Bool) (tree : Json PyNumber) :
    ∃ head tail, tree.text ascii = head :: tail ∧ StartsValue head := by
  cases tree with
  | null => exact ⟨'n', _, by rw [Json.text], by decide⟩
  | str value => exact ⟨'"', _, by rw [Json.text, stringText], by decide⟩
  | arr items => exact ⟨'[', _, by rw [Json.text], by decide⟩
  | obj members => exact ⟨'{', _, by rw [Json.text], by decide⟩
  | number value =>
      rw [Json.text]
      cases value with
      | bool flag =>
          cases flag with
          | false => exact ⟨'f', _, rfl, by decide⟩
          | true => exact ⟨'t', _, rfl, by decide⟩
      | int value =>
          obtain ⟨head, tail, written, start⟩ := number_head (.int value) (by simp)
          rcases start with rfl | digit
          · exact ⟨_, tail, written, by decide⟩
          · exact ⟨head, tail, written, startsValue_of_isDigit digit⟩
      | float value =>
          obtain ⟨head, tail, written, start⟩ := number_head (.float value) (by simp)
          rcases start with rfl | digit
          · exact ⟨_, tail, written, by decide⟩
          · exact ⟨head, tail, written, startsValue_of_isDigit digit⟩

/-- A number is read by the last branch. -/
theorem parseValue_number {head : Char} (start : head = '-' ∨ head.isDigit = true)
    (bound : Nat) (tail : List Char) :
    parseValue (bound + 1) (head :: tail) =
      (parseNumber (head :: tail)).map fun found => (number found.1, found.2) := by
  have different : ∀ other, other.isDigit = false → other ≠ '-' → head ≠ other := by
    rintro other notDigit notSign rfl
    rcases start with rfl | digit
    · exact notSign rfl
    · rw [notDigit] at digit
      cases digit
  rw [parseValue]
  all_goals
    intro rest same
    injection same with heads
    refine absurd heads (different _ ?_ ?_) <;> decide

/-- The text of a value is read as that value, in front of every text that does
not continue a number. -/
private def Reads (ascii : Bool) (value : JsonValue PyNumber) : Prop :=
  ∀ (bound : Nat) (rest : List Char), (value.dumps ascii).length ≤ bound → Stops rest →
    parseValue bound (value.dumps ascii ++ rest) = some (value, rest)

theorem stops_comma (rest : List Char) : Stops (',' :: rest) :=
  stops_cons (by decide) (by decide) (by decide) (by decide)

theorem stops_bracket (rest : List Char) : Stops (']' :: rest) :=
  stops_cons (by decide) (by decide) (by decide) (by decide)

theorem stops_brace (rest : List Char) : Stops ('}' :: rest) :=
  stops_cons (by decide) (by decide) (by decide) (by decide)

private theorem skipWhitespace_text (ascii : Bool) (tree : Json PyNumber) (rest : List Char) :
    skipWhitespace (tree.text ascii ++ rest) = tree.text ascii ++ rest := by
  obtain ⟨head, tail, written, start⟩ := text_head ascii tree
  rw [written, List.cons_append, skipWhitespace_of_head _ start.1]

private theorem itemsText_cons (ascii : Bool) (head : Json PyNumber) (tail : List (Json PyNumber))
    (nonempty : tail ≠ []) : Json.itemsText ascii (head :: tail) =
      head.text ascii ++ ',' :: Json.itemsText ascii tail := by
  cases tail with
  | nil => exact absurd rfl nonempty
  | cons next tail => rw [Json.itemsText]

private theorem membersText_cons (ascii : Bool) (key : String) (head : Json PyNumber)
    (tail : List (String × Json PyNumber)) (nonempty : tail ≠ []) :
    Json.membersText ascii ((key, head) :: tail) =
      stringText ascii key ++ ':' :: (head.text ascii ++ ',' :: Json.membersText ascii tail) := by
  cases tail with
  | nil => exact absurd rfl nonempty
  | cons next tail => rw [Json.membersText]

private theorem itemsText_head (ascii : Bool) (items : List (JsonValue PyNumber))
    (nonempty : items ≠ []) : ∃ head tail,
      Json.itemsText ascii (items.map Subtype.val) = head :: tail ∧ StartsValue head := by
  cases items with
  | nil => exact absurd rfl nonempty
  | cons first others =>
      obtain ⟨head, tail, written, start⟩ := text_head ascii first.1
      rw [List.map_cons]
      cases others with
      | nil => exact ⟨head, tail, by rw [List.map_nil, Json.itemsText, written], start⟩
      | cons second others =>
          refine ⟨head, tail ++ ',' :: Json.itemsText ascii ((second :: others).map Subtype.val),
            ?_, start⟩
          rw [itemsText_cons _ _ _ (by simp), written, List.cons_append]

private theorem parseItems_text (ascii : Bool) (items : List (JsonValue PyNumber))
    (each : ∀ item ∈ items, Reads ascii item) (nonempty : items ≠ []) (bound : Nat)
    (rest : List Char)
    (enough : (Json.itemsText ascii (items.map Subtype.val)).length < bound) :
    parseItems bound (Json.itemsText ascii (items.map Subtype.val) ++ ']' :: rest) =
      some (items, rest) := by
  induction items generalizing bound with
  | nil => exact absurd rfl nonempty
  | cons first others inductionHypothesis =>
      have readFirst := each first List.mem_cons_self
      rw [List.map_cons] at enough ⊢
      cases bound with
      | zero => cases enough
      | succ bound =>
          by_cases last : others = []
          · subst last
            rw [List.map_nil, Json.itemsText] at enough ⊢
            rw [parseItems, ← dumps, readFirst bound _ (by rw [dumps]; omega) (stops_bracket rest),
              Option.bind_some, skipWhitespace_of_head _ (by decide)]
            rfl
          · have more : others.map Subtype.val ≠ [] :=
              fun empty => last (List.map_eq_nil_iff.mp empty)
            rw [itemsText_cons _ _ _ more] at enough ⊢
            rw [List.length_append, List.length_cons] at enough
            obtain ⟨head, tail, written, start⟩ := itemsText_head ascii others last
            rw [List.append_assoc, List.cons_append, parseItems, ← dumps,
              readFirst bound _ (by rw [dumps]; omega) (stops_comma _), Option.bind_some,
              skipWhitespace_of_head _ (by decide)]
            have remaining := inductionHypothesis
              (fun item member => each item (List.mem_cons_of_mem _ member)) last bound (by omega)
            rw [written, List.cons_append] at remaining ⊢
            simp only [skipWhitespace_of_head _ start.1, remaining, Option.map_some]

private theorem membersText_head (ascii : Bool) (members : List (String × Json PyNumber))
    (nonempty : members ≠ []) :
    ∃ tail, Json.membersText ascii members = '"' :: tail := by
  cases members with
  | nil => exact absurd rfl nonempty
  | cons first others =>
      obtain ⟨key, value⟩ := first
      cases others with
      | nil => exact ⟨_, by rw [Json.membersText, stringText, List.cons_append]⟩
      | cons second others => exact ⟨_, by rw [Json.membersText, stringText, List.cons_append]⟩

/-- One member, up to the text that follows its value. -/
private theorem parseMember (ascii : Bool) (key : String) (value : JsonValue PyNumber)
    (read : Reads ascii value) (bound : Nat) (rest : List Char)
    (enough : (stringText ascii key).length + (value.dumps ascii).length ≤ bound)
    (stops : Stops rest) :
    ∃ tail, stringText ascii key ++ ':' :: (value.dumps ascii ++ rest) = '"' :: tail ∧
      ∀ next, (match skipWhitespace rest with
        | '}' :: rest => some ([(key, value)], rest)
        | ',' :: rest => (parseMembers bound (skipWhitespace rest)).map fun members =>
            ((key, value) :: members.1, members.2)
        | _ => none) = some next → parseMembers (bound + 1) ('"' :: tail) = some next := by
  obtain ⟨tail, written, found⟩ := parseString_text ascii key (':' :: (value.dumps ascii ++ rest))
    bound (by omega)
  refine ⟨tail, written, ?_⟩
  intro next continued
  rw [parseMembers, found, Option.bind_some]
  simp only [skipWhitespace_of_head _ (show isJsonSpace ':' = false by decide)]
  rw [dumps, skipWhitespace_text, ← dumps, read bound rest (by omega) stops, Option.bind_some]
  simp only [String.ofList_toList]
  exact continued

private theorem parseMembers_text (ascii : Bool) (members : List (String × JsonValue PyNumber))
    (each : ∀ member ∈ members, Reads ascii member.2) (nonempty : members ≠ []) (bound : Nat)
    (rest : List Char)
    (enough : (Json.membersText ascii
      (members.map (fun entry => (entry.1, entry.2.1)))).length < bound) :
    parseMembers bound (Json.membersText ascii
      (members.map (fun entry => (entry.1, entry.2.1))) ++ '}' :: rest) = some (members, rest) := by
  induction members generalizing bound with
  | nil => exact absurd rfl nonempty
  | cons first others inductionHypothesis =>
      obtain ⟨key, value⟩ := first
      have readFirst := each (key, value) List.mem_cons_self
      rw [List.map_cons] at enough ⊢
      cases bound with
      | zero => cases enough
      | succ bound =>
          by_cases last : others = []
          · subst last
            rw [List.map_nil, Json.membersText] at enough ⊢
            simp only [List.length_append, List.length_cons] at enough
            obtain ⟨tail, written, continues⟩ := parseMember ascii key value readFirst bound
              ('}' :: rest) (by rw [dumps]; omega) (stops_brace rest)
            rw [dumps] at written
            rw [List.append_assoc, List.cons_append, written]
            apply continues
            rw [skipWhitespace_of_head _ (by decide)]
            rfl
          · have more : others.map (fun entry => (entry.1, entry.2.1)) ≠ [] :=
              fun empty => last (List.map_eq_nil_iff.mp empty)
            rw [membersText_cons _ _ _ _ more] at enough ⊢
            simp only [List.length_append, List.length_cons] at enough
            obtain ⟨head, otherText⟩ := membersText_head ascii _ more
            obtain ⟨tail, written, continues⟩ := parseMember ascii key value readFirst bound
              (',' :: (Json.membersText ascii (others.map (fun entry => (entry.1, entry.2.1))) ++
                '}' :: rest)) (by rw [dumps]; omega) (stops_comma _)
            rw [dumps] at written
            simp only [List.append_assoc, List.cons_append]
            rw [written]
            apply continues
            have remaining := inductionHypothesis
              (fun member among => each member (List.mem_cons_of_mem _ among)) last bound (by omega)
            rw [otherText, List.cons_append] at remaining ⊢
            simp only [skipWhitespace_of_head _ (show isJsonSpace ',' = false by decide),
              skipWhitespace_of_head _ (show isJsonSpace '"' = false by decide), remaining,
              Option.map_some]

private theorem text_length_pos (ascii : Bool) (tree : Json PyNumber) :
    0 < (tree.text ascii).length := by
  obtain ⟨head, tail, written, _⟩ := text_head ascii tree
  rw [written]
  exact Nat.succ_pos _

/-- The round trip in front of a remaining text. -/
theorem parseValue_dumps (ascii : Bool) (value : JsonValue PyNumber) (bound : Nat)
    (rest : List Char) (enough : (value.dumps ascii).length ≤ bound) (stops : Stops rest) :
    parseValue bound (value.dumps ascii ++ rest) = some (value, rest) := by
  have positive := text_length_pos ascii value.1
  induction value using JsonValue.induct generalizing bound rest with
  | null =>
      cases bound with
      | zero => cases enough
      | succ bound => rfl
  | number value =>
      cases bound with
      | zero => exact absurd (Nat.lt_of_lt_of_le positive enough) (Nat.lt_irrefl 0)
      | succ bound =>
          change parseValue (bound + 1) (value.text ++ rest) = _
          cases value with
          | bool flag => cases flag <;> rfl
          | int value =>
              obtain ⟨head, tail, written, start⟩ := number_head (.int value) (by simp)
              have read := parseNumber_int value stops
              rw [written, List.cons_append] at read ⊢
              rw [parseValue_number start, read]
              rfl
          | float value =>
              obtain ⟨head, tail, written, start⟩ := number_head (.float value) (by simp)
              have read := parseNumber_float value stops
              rw [PyNumber.text] at written ⊢
              rw [written, List.cons_append] at read ⊢
              rw [parseValue_number start, read]
              rfl
  | str value =>
      cases bound with
      | zero => cases enough
      | succ bound =>
          change parseValue (bound + 1)
            ('"' :: (value.toList.flatMap (escape ascii) ++ ['"']) ++ rest) = _
          change ('"' :: (value.toList.flatMap (escape ascii) ++ ['"'])).length ≤ _ at enough
          simp only [List.length_cons, List.length_append] at enough
          have read := parseString_escape ascii value.toList rest bound (by omega)
          simp only [List.cons_append, List.append_assoc, List.nil_append, parseValue, read,
            Option.map_some, String.ofList_toList]
  | arr items inductionHypothesis =>
      cases bound with
      | zero => cases enough
      | succ bound =>
          change parseValue (bound + 1)
            ('[' :: (Json.itemsText ascii (items.map Subtype.val) ++ [']']) ++ rest) = _
          change ('[' :: (Json.itemsText ascii (items.map Subtype.val) ++ [']'])).length ≤ _
            at enough
          simp only [List.length_cons, List.length_append] at enough
          simp only [List.cons_append, List.append_assoc, List.nil_append]
          by_cases empty : items = []
          · subst empty
            rfl
          · have read := parseItems_text ascii items
              (fun item member bound rest enough stops =>
                inductionHypothesis item member bound rest enough stops
                  (text_length_pos ascii item.1)) empty bound rest (by omega)
            obtain ⟨head, tail, written, start⟩ := itemsText_head ascii items empty
            rw [written, List.cons_append] at read ⊢
            rw [parseValue, skipWhitespace_of_head _ start.1]
            split
            · rename_i matched
              injection matched with same
              exact absurd same start.2.1
            · rw [read]
              rfl
  | obj members inductionHypothesis =>
      cases bound with
      | zero => cases enough
      | succ bound =>
          change parseValue (bound + 1) ('{' :: (Json.membersText ascii
            (members.toList.map (fun entry => (entry.1, entry.2.1))) ++ ['}']) ++ rest) = _
          change ('{' :: (Json.membersText ascii
            (members.toList.map (fun entry => (entry.1, entry.2.1))) ++ ['}'])).length ≤ _ at enough
          simp only [List.length_cons, List.length_append] at enough
          simp only [List.cons_append, List.append_assoc, List.nil_append]
          by_cases empty : members.toList = []
          · have none : members = ∅ := by
              rw [← Dict.ofList_toList members, empty]
              rfl
            subst none
            rfl
          · have read := parseMembers_text ascii members.toList
              (fun member among bound rest enough stops =>
                inductionHypothesis member.1 member.2 ((Dict.mem_toList members _ _).mp among)
                  bound rest enough stops (text_length_pos ascii member.2.1)) empty bound rest
              (by omega)
            have more : members.toList.map (fun entry => (entry.1, entry.2.1)) ≠ [] :=
              fun nothing => empty (List.map_eq_nil_iff.mp nothing)
            obtain ⟨tail, written⟩ := membersText_head ascii _ more
            rw [written, List.cons_append] at read ⊢
            rw [parseValue, skipWhitespace_of_head _ (by decide)]
            split
            · rename_i matched
              injection matched with same
              exact absurd same (by decide)
            · rw [read, Option.map_some, Dict.ofList_toList]

/-- The decoder reads every text of the encoder as the value it came from. -/
theorem loads_dumps (ascii : Bool) (value : JsonValue PyNumber) :
    loads (value.dumps ascii) = some value := by
  have read := parseValue_dumps ascii value ((value.dumps ascii).length + 1) []
    (Nat.le_succ _) stops_nil
  have start := skipWhitespace_text ascii value.1 []
  rw [List.append_nil, ← dumps] at start
  rw [List.append_nil] at read
  rw [loads, start, read]
  rfl

/-- Distinct values have distinct texts. -/
theorem dumps_injective (ascii : Bool) : Function.Injective (JsonValue.dumps ascii) := by
  intro first second same
  have read := loads_dumps ascii first
  rw [same, loads_dumps] at read
  injection read with read
  exact read.symm

end Foundation
