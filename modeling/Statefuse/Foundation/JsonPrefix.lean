import Statefuse.Foundation.JsonRoundTrip

/-!
# Texts that break off

A reading function that succeeds on a text succeeds alike when the text goes on, and leaves
the addition unread (`parseValue_extend`); only a number has to be followed by something that
ends it.  So the text of an object has no proper prefix that can be read
(`loads_proper_prefix`): the addition would be left unread in the whole text as well.
-/

namespace Foundation

open JsonValue

theorem parseEscape_extend {text rest : List Char} {char : Char} (more : List Char)
    (read : parseEscape text = some (char, rest)) :
    parseEscape (text ++ more) = some (char, rest ++ more) := by
  have low : ∀ {high : Nat} {text rest : List Char} {char : Char},
      parseLowSurrogate high text = some (char, rest) →
        parseLowSurrogate high (text ++ more) = some (char, rest ++ more) := by
    intro high text rest char read
    unfold parseLowSurrogate at read
    split at read
    · rcases Option.bind_eq_some_iff.mp read with ⟨unit, isUnit, read⟩
      rcases Option.map_eq_some_iff.mp read with ⟨found, isPair, same⟩
      injection same with same sameRest
      subst same sameRest
      simp [parseLowSurrogate, isUnit, isPair]
    · cases read
  unfold parseEscape at read
  split at read
  all_goals try
    injection read with read
    injection read with same sameRest
    subst same sameRest
    rfl
  · rcases Option.bind_eq_some_iff.mp read with ⟨unit, isUnit, read⟩
    simp only [List.cons_append, parseEscape, isUnit, Option.bind_some]
    split at read
    · rename_i surrogate
      rw [if_pos surrogate]
      exact low read
    · rename_i plain
      rcases Option.map_eq_some_iff.mp read with ⟨found, isScalar, same⟩
      injection same with same sameRest
      subst same sameRest
      rw [if_neg plain, isScalar]
      rfl
  · cases read

theorem parseChar_extend {text rest : List Char} {char : Char} (more : List Char)
    (read : parseChar text = some (char, rest)) :
    parseChar (text ++ more) = some (char, rest ++ more) := by
  unfold parseChar at read
  split at read
  · cases read
  · exact parseEscape_extend more read
  · rename_i head tail plain
    split at read
    · cases read
    · rename_i visible
      injection read with read
      injection read with same sameRest
      subst same sameRest
      rw [List.cons_append, parseChar, if_neg visible]
      intro isEscape
      exact plain isEscape

theorem parseString_extend {bound larger : Nat} {text rest chars : List Char} (more : List Char)
    (enough : bound ≤ larger) (read : parseString bound text = some (chars, rest)) :
    parseString larger (text ++ more) = some (chars, rest ++ more) := by
  induction bound generalizing larger text chars with
  | zero =>
      unfold parseString at read
      cases read
  | succ bound inductionHypothesis =>
      rcases Nat.exists_eq_add_of_le' enough with ⟨extra, isLarger⟩
      subst isLarger
      cases text with
      | nil =>
          unfold parseString at read
          cases read
      | cons head tail =>
          by_cases quote : head = '"'
          · subst quote
            injection read with read
            injection read with same sameRest
            subst same sameRest
            rfl
          · rw [parseString_cons quote] at read
            rcases Option.bind_eq_some_iff.mp read with ⟨first, isFirst, read⟩
            rcases Option.map_eq_some_iff.mp read with ⟨others, isOthers, same⟩
            injection same with same sameRest
            subst same sameRest
            have later := inductionHypothesis (Nat.le_add_left bound extra) isOthers
            rw [← Nat.add_assoc, List.cons_append, parseString_cons quote, ← List.cons_append,
              parseChar_extend more isFirst, Option.bind_some, later]
            rfl

/-! ## Numbers -/

/-- A remaining text that ends a number, whatever comes after it. -/
def Ends (rest : List Char) : Prop := rest ≠ [] ∧ Stops rest

theorem takeDigits_extend {text : List Char} (more : List Char)
    (ends : (takeDigits text).2 ≠ []) :
    takeDigits (text ++ more) = ((takeDigits text).1, (takeDigits text).2 ++ more) := by
  rw [takeDigits, takeDigits, List.span_eq_takeWhile_dropWhile,
    List.span_eq_takeWhile_dropWhile] at *
  induction text with
  | nil => exact absurd rfl ends
  | cons head tail inductionHypothesis =>
      cases digit : head.isDigit with
      | false => simp [digit]
      | true =>
          simp only [digit, List.dropWhile_cons_of_pos, List.takeWhile_cons_of_pos] at ends ⊢
          have later := inductionHypothesis ends
          injection later with front back
          simp [digit, front, back]

theorem parseWhole_extend {text rest : List Char} {whole : Nat} (more : List Char)
    (ends : rest ≠ []) (read : parseWhole text = some (whole, rest)) :
    parseWhole (text ++ more) = some (whole, rest ++ more) := by
  unfold parseWhole at read
  split at read
  · injection read with read
    injection read with same sameRest
    subst same sameRest
    rfl
  · rename_i notZero
    split at read
    · cases read
    · rename_i digits tail present taken
      injection read with read
      injection read with same sameRest
      subst same sameRest
      have extended := takeDigits_extend more
        (show (takeDigits text).2 ≠ [] by rw [taken]; exact ends)
      rw [taken] at extended
      cases digits with
      | nil => exact absurd rfl present
      | cons digit digits =>
          unfold parseWhole
          split
          · rename_i zero
            cases text with
            | nil => cases taken
            | cons head tail =>
                injection zero with isZero
                subst isZero
                exact absurd rfl (notZero tail)
          · rw [extended]

theorem parseFraction_extend {text rest : List Char} {fraction : List (Fin 10)}
    (more : List Char) (ends : rest ≠ []) (point : ∀ char ∈ rest.head?, char ≠ '.')
    (read : parseFraction text = (fraction, rest)) :
    parseFraction (text ++ more) = (fraction, rest ++ more) := by
  unfold parseFraction at read
  split at read
  · rename_i tail
    split at read
    · injection read with _ sameRest
      subst sameRest
      exact absurd rfl (point '.' rfl)
    · rename_i digits others present taken
      injection read with same sameRest
      subst same sameRest
      have extended := takeDigits_extend more
        (show (takeDigits tail).2 ≠ [] by rw [taken]; exact ends)
      rw [taken] at extended
      cases digits with
      | nil => exact absurd rfl present
      | cons digit digits =>
          rw [List.cons_append]
          unfold parseFraction
          simp only [extended]
  · injection read with same sameRest
    subst same sameRest
    cases text with
    | nil => exact absurd rfl ends
    | cons head tail =>
        unfold parseFraction
        split
        · rename_i isPoint
          injection isPoint with isPoint
          exact absurd isPoint (point head rfl)
        · rfl

private theorem parseSign_plain {head : Char} (minus : head ≠ '-') (plus : head ≠ '+')
    (tail : List Char) : parseSign (head :: tail) = (false, head :: tail) := by
  unfold parseSign
  split
  · rename_i same
    injection same with same
    exact absurd same minus
  · rename_i same
    injection same with same
    exact absurd same plus
  · rfl

theorem parseSign_extend {text : List Char} (more : List Char) (ends : (parseSign text).2 ≠ []) :
    parseSign (text ++ more) = ((parseSign text).1, (parseSign text).2 ++ more) := by
  cases text with
  | nil => exact absurd rfl ends
  | cons head tail =>
      by_cases minus : head = '-'
      · subst minus
        rfl
      · by_cases plus : head = '+'
        · subst plus
          rfl
        · rw [List.cons_append, parseSign_plain minus plus, parseSign_plain minus plus]
          rfl

theorem parseExponent_extend {text rest : List Char} {exponent : Option Int} (more : List Char)
    (ends : Ends rest) (read : parseExponent text = (exponent, rest)) :
    parseExponent (text ++ more) = (exponent, rest ++ more) ∧ text ≠ [] ∧
      ∀ char ∈ text.head?, char ≠ '.' := by
  cases text with
  | nil =>
      injection read with _ sameRest
      exact absurd sameRest.symm ends.1
  | cons mark tail =>
      by_cases isMark : mark = 'e' ∨ mark = 'E'
      · simp only [parseExponent, if_pos isMark] at read
        split at read
        · injection read with _ sameRest
          subst sameRest
          have stops := ends.2 mark rfl
          rcases isMark with lower | upper
          · exact absurd lower stops.2.2.1
          · exact absurd upper stops.2.2.2
        · rename_i digits others present taken
          injection read with same sameRest
          subst sameRest
          have extended := takeDigits_extend more
            (show (takeDigits (parseSign tail).2).2 ≠ [] by rw [taken]; exact ends.1)
          rw [taken] at extended
          have signed : (parseSign tail).2 ≠ [] := by
            intro none
            rw [none] at taken
            cases taken
            exact absurd rfl present
          refine ⟨?_, List.cons_ne_nil _ _, ?_⟩
          · rw [List.cons_append]
            cases digits with
            | nil => exact absurd rfl present
            | cons digit digits =>
                simp only [parseExponent, if_pos isMark, parseSign_extend more signed, extended,
                  same]
          · intro char isHead
            injection isHead with isHead
            subst isHead
            rcases isMark with lower | upper
            · rw [lower]
              decide
            · rw [upper]
              decide
      · simp only [parseExponent, if_neg isMark] at read
        injection read with same sameRest
        subst same sameRest
        refine ⟨?_, List.cons_ne_nil _ _, fun char isHead => (ends.2 char isHead).2.1⟩
        rw [List.cons_append]
        simp only [parseExponent, if_neg isMark]

theorem parseNumber_extend {text rest : List Char} {number : PyNumber} (more : List Char)
    (ends : Ends rest) (read : parseNumber text = some (number, rest)) :
    parseNumber (text ++ more) = some (number, rest ++ more) ∧
      ∃ head tail, text = head :: tail ∧ (head = '-' ∨ head.isDigit = true) := by
  have magnitude : ∀ {negative : Bool} {text : List Char},
      parseMagnitude negative text = some (number, rest) →
        parseMagnitude negative (text ++ more) = some (number, rest ++ more) := by
    intro negative text read
    rcases Option.map_eq_some_iff.mp read with ⟨whole, isWhole, same⟩
    injection same with same sameRest
    have exponent := parseExponent_extend more ends
      (show parseExponent (parseFraction whole.2).2 = (_, rest) from Prod.ext rfl sameRest)
    have fraction := parseFraction_extend more exponent.2.1 exponent.2.2
      (show parseFraction whole.2 = ((parseFraction whole.2).1, _) from rfl)
    have wholeEnds : whole.2 ≠ [] := by
      intro none
      apply exponent.2.1
      rw [none]
      rfl
    rw [parseMagnitude, parseWhole_extend more wholeEnds isWhole, Option.map_some]
    simp only [fraction, exponent.1, same]
  cases text with
  | nil => cases read
  | cons head tail =>
      by_cases minus : head = '-'
      · subst minus
        exact ⟨magnitude read, '-', tail, rfl, Or.inl rfl⟩
      · have unsigned : ∀ tail,
            parseNumber (head :: tail) = parseMagnitude false (head :: tail) := by
          intro tail
          rw [parseNumber]
          intro rest same
          injection same with same
          exact absurd same minus
        rw [unsigned] at read
        refine ⟨?_, head, tail, rfl, Or.inr ?_⟩
        · rw [List.cons_append, unsigned]
          exact magnitude read
        · rcases Option.map_eq_some_iff.mp read with ⟨whole, isWhole, _⟩
          unfold parseWhole at isWhole
          split at isWhole
          · rename_i zero
            injection zero with zero
            rw [zero]
            rfl
          · split at isWhole
            · cases isWhole
            · rename_i digits rest present taken
              rw [takeDigits, List.span_eq_takeWhile_dropWhile] at taken
              injection taken with taken _
              by_contra other
              rw [List.takeWhile_cons_of_neg other] at taken
              exact present taken.symm

/-! ## Values -/

theorem skipWhitespace_extend {text : List Char} (more : List Char)
    (present : skipWhitespace text ≠ []) :
    skipWhitespace (text ++ more) = skipWhitespace text ++ more := by
  induction text with
  | nil => exact absurd rfl present
  | cons head tail inductionHypothesis =>
      unfold skipWhitespace at present inductionHypothesis ⊢
      cases space : isJsonSpace head with
      | false => simp [space]
      | true =>
          rw [List.dropWhile_cons_of_pos space] at present ⊢
          rw [List.cons_append, List.dropWhile_cons_of_pos space, inductionHypothesis present]

/-- A delimiter ends what comes before it. -/
theorem ends_of_delimiter {text rest : List Char} {delimiter : Char}
    (found : skipWhitespace text = delimiter :: rest) (stops : Stops (delimiter :: rest)) :
    Ends text := by
  cases text with
  | nil => cases found
  | cons head tail =>
      refine ⟨List.cons_ne_nil _ _, ?_⟩
      cases space : isJsonSpace head with
      | false =>
          rw [skipWhitespace_of_head tail space] at found
          rw [found]
          exact stops
      | true =>
          simp only [isJsonSpace, Bool.or_eq_true, beq_iff_eq] at space
          rcases space with ((isSpace | isTab) | isNewline) | isReturn
          · rw [isSpace]
            exact stops_cons (by decide) (by decide) (by decide) (by decide)
          · rw [isTab]
            exact stops_cons (by decide) (by decide) (by decide) (by decide)
          · rw [isNewline]
            exact stops_cons (by decide) (by decide) (by decide) (by decide)
          · rw [isReturn]
            exact stops_cons (by decide) (by decide) (by decide) (by decide)

theorem parseValue_present {bound : Nat} {text rest : List Char} {value : JsonValue PyNumber}
    (read : parseValue bound text = some (value, rest)) : text ≠ [] := by
  intro none
  subst none
  cases bound with
  | zero =>
      unfold parseValue at read
      cases read
  | succ bound =>
      have unread : parseValue (bound + 1) [] = none := by
        rw [parseValue]
        · rfl
        all_goals
          intro rest impossible
          cases impossible
      rw [unread] at read
      cases read

theorem parseItems_present {bound : Nat} {text rest : List Char}
    {items : List (JsonValue PyNumber)} (read : parseItems bound text = some (items, rest)) :
    text ≠ [] := by
  cases bound with
  | zero =>
      unfold parseItems at read
      cases read
  | succ bound =>
      rw [parseItems] at read
      rcases Option.bind_eq_some_iff.mp read with ⟨first, isFirst, _⟩
      exact parseValue_present isFirst

theorem parseMembers_present {bound : Nat} {text rest : List Char}
    {members : List (String × JsonValue PyNumber)}
    (read : parseMembers bound text = some (members, rest)) : text ≠ [] := by
  intro none
  subst none
  cases bound with
  | zero =>
      unfold parseMembers at read
      cases read
  | succ bound =>
      unfold parseMembers at read
      cases read

private theorem head_of_append {text more tail : List Char} {head : Char} (present : text ≠ [])
    (same : text ++ more = head :: tail) : ∃ others, text = head :: others := by
  cases text with
  | nil => exact absurd rfl present
  | cons first others =>
      injection same with same
      exact ⟨others, by rw [same]⟩

/-- What the three functions leave unread, they leave unread before any addition. -/
private structure Extends (bound : Nat) : Prop where
  value : ∀ {larger : Nat} {text rest : List Char} {value : JsonValue PyNumber}
    (more : List Char), bound ≤ larger → (Ends rest ∨ text.head? = some '{') →
    parseValue bound text = some (value, rest) →
    parseValue larger (text ++ more) = some (value, rest ++ more)
  items : ∀ {larger : Nat} {text rest : List Char} {items : List (JsonValue PyNumber)}
    (more : List Char), bound ≤ larger → parseItems bound text = some (items, rest) →
    parseItems larger (text ++ more) = some (items, rest ++ more)
  members : ∀ {larger : Nat} {text rest : List Char}
    {members : List (String × JsonValue PyNumber)} (more : List Char), bound ≤ larger →
    parseMembers bound text = some (members, rest) →
    parseMembers larger (text ++ more) = some (members, rest ++ more)

private theorem extends_value {bound larger : Nat} (shorter : Extends bound)
    {text rest : List Char} {value : JsonValue PyNumber} (more : List Char)
    (enough : bound + 1 ≤ larger) (ends : Ends rest ∨ text.head? = some '{')
    (read : parseValue (bound + 1) text = some (value, rest)) :
    parseValue larger (text ++ more) = some (value, rest ++ more) := by
  rcases Nat.exists_eq_add_of_le' enough with ⟨extra, isLarger⟩
  subst isLarger
  have within : bound ≤ extra + bound := Nat.le_add_left _ _
  unfold parseValue at read
  split at read
  · cases read
  · rename_i _ text found
    injection found with found
    subst found
    rcases Option.map_eq_some_iff.mp read with ⟨chars, isString, same⟩
    injection same with same sameRest
    subst same sameRest
    rw [← Nat.add_assoc, List.cons_append, parseValue,
      parseString_extend more within isString]
    rfl
  · rename_i _ text found
    injection found with found
    subst found
    rw [← Nat.add_assoc, List.cons_append, parseValue]
    split at read
    · rename_i tail closes
      injection read with read
      injection read with same sameRest
      subst same sameRest
      rw [skipWhitespace_extend more (by rw [closes]; exact List.cons_ne_nil _ _), closes]
      rfl
    · rename_i opened
      rcases Option.map_eq_some_iff.mp read with ⟨members, isMembers, same⟩
      injection same with same sameRest
      subst same sameRest
      have present : skipWhitespace text ≠ [] := parseMembers_present isMembers
      have longer := skipWhitespace_extend more present
      have parsed := shorter.members more within isMembers
      rw [longer]
      split
      · rename_i tail closes
        rcases head_of_append present closes with ⟨others, isClosing⟩
        exact absurd isClosing (opened others)
      · rw [parsed]
        rfl
  · rename_i _ text found
    injection found with found
    subst found
    rw [← Nat.add_assoc, List.cons_append, parseValue]
    split at read
    · rename_i tail closes
      injection read with read
      injection read with same sameRest
      subst same sameRest
      rw [skipWhitespace_extend more (by rw [closes]; exact List.cons_ne_nil _ _), closes]
      rfl
    · rename_i opened
      rcases Option.map_eq_some_iff.mp read with ⟨items, isItems, same⟩
      injection same with same sameRest
      subst same sameRest
      have present : skipWhitespace text ≠ [] := parseItems_present isItems
      have longer := skipWhitespace_extend more present
      have parsed := shorter.items more within isItems
      rw [longer]
      split
      · rename_i tail closes
        rcases head_of_append present closes with ⟨others, isClosing⟩
        exact absurd isClosing (opened others)
      · rw [parsed]
        rfl
  · injection read with read
    injection read with same sameRest
    subst same sameRest
    rfl
  · injection read with read
    injection read with same sameRest
    subst same sameRest
    rfl
  · injection read with read
    injection read with same sameRest
    subst same sameRest
    rfl
  · rename_i _ notObject _ _ _ _
    rcases Option.map_eq_some_iff.mp read with ⟨number, isNumber, same⟩
    injection same with same sameRest
    subst same sameRest
    rcases ends with ends | isObject
    · rcases parseNumber_extend more ends isNumber with
        ⟨extended, head, tail, isText, start⟩
      subst isText
      rw [← Nat.add_assoc, List.cons_append, parseValue_number start, ← List.cons_append,
        extended]
      rfl
    · rcases List.head?_eq_some_iff.mp isObject with ⟨tail, isText⟩
      exact absurd isText (notObject tail)

private theorem extends_items {bound larger : Nat} (shorter : Extends bound)
    {text rest : List Char} {items : List (JsonValue PyNumber)} (more : List Char)
    (enough : bound + 1 ≤ larger)
    (read : parseItems (bound + 1) text = some (items, rest)) :
    parseItems larger (text ++ more) = some (items, rest ++ more) := by
  rcases Nat.exists_eq_add_of_le' enough with ⟨extra, isLarger⟩
  subst isLarger
  have within : bound ≤ extra + bound := Nat.le_add_left _ _
  rw [parseItems] at read
  rcases Option.bind_eq_some_iff.mp read with ⟨first, isFirst, read⟩
  split at read
  · rename_i tail closes
    injection read with read
    injection read with same sameRest
    subst same sameRest
    have parsed := shorter.value more within
      (Or.inl (ends_of_delimiter closes (stops_bracket _))) isFirst
    rw [← Nat.add_assoc, parseItems, parsed, Option.bind_some,
      skipWhitespace_extend more (by rw [closes]; exact List.cons_ne_nil _ _), closes]
    rfl
  · rename_i tail continues
    rcases Option.map_eq_some_iff.mp read with ⟨others, isOthers, same⟩
    injection same with same sameRest
    subst same sameRest
    have parsed := shorter.value more within
      (Or.inl (ends_of_delimiter continues (stops_comma _))) isFirst
    have later := shorter.items more within isOthers
    rw [← Nat.add_assoc, parseItems, parsed, Option.bind_some,
      skipWhitespace_extend more (by rw [continues]; exact List.cons_ne_nil _ _), continues]
    simp only [List.cons_append]
    rw [skipWhitespace_extend more (parseItems_present isOthers), later]
    rfl
  · cases read

private theorem extends_members {bound larger : Nat} (shorter : Extends bound)
    {text rest : List Char} {members : List (String × JsonValue PyNumber)} (more : List Char)
    (enough : bound + 1 ≤ larger)
    (read : parseMembers (bound + 1) text = some (members, rest)) :
    parseMembers larger (text ++ more) = some (members, rest ++ more) := by
  rcases Nat.exists_eq_add_of_le' enough with ⟨extra, isLarger⟩
  subst isLarger
  have within : bound ≤ extra + bound := Nat.le_add_left _ _
  unfold parseMembers at read
  split at read
  · cases read
  · rename_i _ text found
    injection found with found
    subst found
    rcases Option.bind_eq_some_iff.mp read with ⟨key, isKey, read⟩
    split at read
    · rename_i afterKey separates
      rcases Option.bind_eq_some_iff.mp read with ⟨first, isFirst, read⟩
      rw [← Nat.add_assoc, List.cons_append, parseMembers,
        parseString_extend more within isKey, Option.bind_some,
        skipWhitespace_extend more (by rw [separates]; exact List.cons_ne_nil _ _),
        separates]
      simp only [List.cons_append]
      rw [skipWhitespace_extend more (parseValue_present isFirst)]
      split at read
      · rename_i tail closes
        injection read with read
        injection read with same sameRest
        subst same sameRest
        have parsed := shorter.value more within
          (Or.inl (ends_of_delimiter closes (stops_brace _))) isFirst
        rw [parsed, Option.bind_some,
          skipWhitespace_extend more (by rw [closes]; exact List.cons_ne_nil _ _), closes]
        rfl
      · rename_i tail continues
        rcases Option.map_eq_some_iff.mp read with ⟨others, isOthers, same⟩
        injection same with same sameRest
        subst same sameRest
        have parsed := shorter.value more within
          (Or.inl (ends_of_delimiter continues (stops_comma _))) isFirst
        have later := shorter.members more within isOthers
        rw [parsed, Option.bind_some,
          skipWhitespace_extend more (by rw [continues]; exact List.cons_ne_nil _ _),
          continues]
        simp only [List.cons_append]
        rw [skipWhitespace_extend more (parseMembers_present isOthers), later]
        rfl
      · cases read
    · cases read
  · cases read

private theorem extends_all (bound : Nat) : Extends bound := by
  induction bound with
  | zero =>
      constructor
      · intro larger text rest value more _ _ read
        unfold parseValue at read
        cases read
      · intro larger text rest items more _ read
        unfold parseItems at read
        cases read
      · intro larger text rest members more _ read
        unfold parseMembers at read
        cases read
  | succ bound inductionHypothesis =>
      exact ⟨extends_value inductionHypothesis, extends_items inductionHypothesis,
        extends_members inductionHypothesis⟩

/-- A value that is followed by something that ends it, and an object in any case, is read
alike when the text goes on. -/
theorem parseValue_extend {bound larger : Nat} {text rest : List Char}
    {value : JsonValue PyNumber} (more : List Char) (enough : bound ≤ larger)
    (ends : Ends rest ∨ text.head? = some '{')
    (read : parseValue bound text = some (value, rest)) :
    parseValue larger (text ++ more) = some (value, rest ++ more) :=
  (extends_all bound).value more enough ends read

/-- No proper prefix of the text of an object can be read. -/
theorem loads_proper_prefix (ascii : Bool) (members : JsonObject PyNumber)
    {text more : List Char} (present : more ≠ [])
    (whole : text ++ more = (JsonValue.obj members).dumps ascii) : loads text = none := by
  have braces : ∃ middle, (JsonValue.obj members).dumps ascii = '{' :: (middle ++ ['}']) := by
    refine ⟨Json.membersText ascii (members.toList.map fun entry => (entry.1, entry.2.1)), ?_⟩
    change Json.text ascii (.obj _) = _
    rw [Json.text]
  rcases braces with ⟨middle, isText⟩
  rw [Option.eq_none_iff_forall_ne_some]
  intro value read
  cases text with
  | nil => cases read
  | cons head tail =>
      have isHead : head = '{' := by
        rw [isText, List.cons_append] at whole
        injection whole
      subst isHead
      -- What the prefix leaves unread stays unread in the whole text, and so does the addition.
      rw [loads, skipWhitespace_of_head tail (by decide)] at read
      rcases Option.bind_eq_some_iff.mp read with ⟨⟨found, rest⟩, parsed, _⟩
      have extended := parseValue_extend more
        (Nat.le_max_left _ ('{' :: tail ++ more).length) (Or.inr rfl) parsed
      have direct := parseValue_dumps ascii (JsonValue.obj members)
        (max (('{' :: tail).length + 1) ('{' :: tail ++ more).length) []
        (by rw [whole]; exact Nat.le_max_right _ _) stops_nil
      rw [List.append_nil, ← whole, extended, Option.some.injEq, Prod.mk.injEq,
        List.append_eq_nil_iff] at direct
      exact present direct.2.2

end Foundation
