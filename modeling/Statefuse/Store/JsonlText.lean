import Statefuse.Foundation.JsonPrefix
import Statefuse.Store.Jsonl

/-!
# Plain JSONL files

A file of printable ASCII lines is read alike by both readers of the store: the one that
decodes the whole file, and the one that looks at its terminated lines.  They differ in the
tail alone, which only the first reads (`iterOps_plain`).  In a batch that breaks off before its
end neither reads anything (`Torn.unread`), since no proper prefix of its text is JSON.
-/

namespace Statefuse

open Foundation

/-- The byte of a character of an ASCII text. -/
def asciiByte (char : Char) : UInt8 := char.val.toUInt8

/-- A printable character or a newline. -/
def Plain (char : Char) : Prop := char = '\n' ∨ Printable char

theorem utf8Encode_plain {text : List Char} (plain : ∀ char ∈ text, Plain char) :
    utf8Encode text = text.map asciiByte := by
  induction text with
  | nil => rfl
  | cons head tail inductionHypothesis =>
      have others := inductionHypothesis
        (fun char listed => plain char (List.mem_cons_of_mem _ listed))
      have first : utf8Encode [head] = [asciiByte head] := by
        rcases plain head List.mem_cons_self with newline | printable
        · rw [newline]
          rfl
        · exact utf8Encode_printable (by simpa using printable)
      rw [← List.singleton_append, utf8Encode, List.flatMap_append, ← utf8Encode, ← utf8Encode,
        first, others]
      rfl

theorem asciiByte_toNat {char : Char} (plain : Plain char) :
    (asciiByte char).toNat = char.toNat := by
  have small : char.toNat < 256 := by
    rcases plain with newline | printable
    · rw [newline]
      decide
    · have above := printable.2
      omega
  exact Nat.mod_eq_of_lt small

theorem isSpaceByte_asciiByte {char : Char} (plain : Plain char) :
    isSpaceByte (asciiByte char) = isSpace char := by
  have value := asciiByte_toNat plain
  rw [Bool.eq_iff_iff, isSpaceByte, isSpace, decide_eq_true_eq, decide_eq_true_eq,
    ← UInt8.toNat_inj, UInt8.le_iff_toNat_le, UInt8.le_iff_toNat_le, value]
  have bounds : char.toNat = 10 ∨ 32 ≤ char.toNat ∧ char.toNat ≤ 126 := by
    rcases plain with newline | printable
    · exact Or.inl (by rw [newline]; rfl)
    · exact Or.inr printable
  have nine : (9 : UInt8).toNat = 9 := rfl
  have thirteen : (13 : UInt8).toNat = 13 := rfl
  have space : (32 : UInt8).toNat = 32 := rfl
  rw [nine, thirteen, space]
  omega

theorem isNewline_asciiByte {char : Char} (plain : Plain char) :
    JsonlStore.isNewline (asciiByte char) = decide (char = '\n') := by
  have value := asciiByte_toNat plain
  rw [Bool.eq_iff_iff, JsonlStore.isNewline, decide_eq_true_eq, decide_eq_true_eq,
    ← UInt8.toNat_inj, value]
  have ten : (10 : UInt8).toNat = 10 := rfl
  have newline : '\n'.toNat = 10 := rfl
  rw [ten, ← newline]
  exact Char.toNat_inj

theorem universalNewlines_plain {text : List Char} (plain : ∀ char ∈ text, Plain char) :
    universalNewlines text = text := by
  induction text with
  | nil => rfl
  | cons head tail inductionHypothesis =>
      have notReturn : head ≠ '\r' := by
        intro isReturn
        rcases plain head List.mem_cons_self with newline | printable
        · rw [isReturn] at newline
          cases newline
        · rw [isReturn] at printable
          exact absurd printable.1 (by decide)
      have others := inductionHypothesis
        (fun char listed => plain char (List.mem_cons_of_mem _ listed))
      unfold universalNewlines
      split
      · rename_i same
        cases same
      · rename_i same
        injection same with same
        exact absurd same notReturn
      · rename_i same
        injection same with same sameRest
        subst same sameRest
        rw [if_neg notReturn, others]

theorem strip_subset {text : List Char} : ∀ char ∈ strip text, char ∈ text := by
  intro char listed
  have inside := List.mem_reverse.mp listed
  have deeper := List.mem_reverse.mp (List.dropWhile_subset _ inside)
  exact List.dropWhile_subset _ deeper

theorem stripBytes_plain {text : List Char} (plain : ∀ char ∈ text, Plain char) :
    stripBytes (text.map asciiByte) = (strip text).map asciiByte := by
  have front : (text.map asciiByte).dropWhile isSpaceByte =
      (text.dropWhile isSpace).map asciiByte :=
    dropWhile_map asciiByte text (fun char listed => isSpaceByte_asciiByte (plain char listed))
  have back : ((text.dropWhile isSpace).reverse.map asciiByte).dropWhile isSpaceByte =
      ((text.dropWhile isSpace).reverse.dropWhile isSpace).map asciiByte := by
    apply dropWhile_map
    intro char listed
    apply isSpaceByte_asciiByte
    exact plain char (List.dropWhile_subset _ (List.mem_reverse.mp listed))
  rw [stripBytes, strip, front, ← List.map_reverse, back, List.map_reverse]

section Readers

variable [Runtime]

theorem lineBatch_nil : lineBatch [] = none := rfl

/-- What a line adds to the operations that are seen. -/
def seeBatch (seen : OpLog) (batch : List Op) : Result OpLog :=
  batch.foldlM (fun seen op => (seen.add op).map Prod.fst) seen

/-- Both readers see the same operations in a line of plain text. -/
theorem seeLine_plain {line : List Char} (plain : ∀ char ∈ line, Plain char) (seen : OpLog) :
    JsonlStore.seeLine seen line =
      seeBatch seen ((lineBatch (line.map asciiByte)).getD []) := by
  have decoded : utf8Decode ((strip line).map asciiByte) = some (strip line) := by
    rw [← utf8Encode_plain (fun char listed => plain char (strip_subset char listed)),
      utf8Decode_encode]
  rw [JsonlStore.seeLine, lineBatch]
  simp only [stripBytes_plain plain, List.map_eq_nil_iff, decoded, Option.bind_some]
  by_cases empty : strip line = []
  · rw [if_pos empty, if_pos empty]
    rfl
  · rw [if_neg empty, if_neg empty]
    cases decodeJsonlBatch (strip line) with
    | error failure => rfl
    | ok batch => rfl

theorem seeLines_plain {lines : List (List Char)}
    (plain : ∀ line ∈ lines, ∀ char ∈ line, Plain char) (seen : OpLog) :
    lines.foldlM JsonlStore.seeLine seen =
      seeBatch seen ((lines.map (List.map asciiByte)).filterMap lineBatch).flatten := by
  induction lines generalizing seen with
  | nil => rfl
  | cons line lines inductionHypothesis =>
      rw [List.foldlM_cons, seeLine_plain (plain line List.mem_cons_self), List.map_cons]
      have later := fun seen => inductionHypothesis
        (fun line listed => plain line (List.mem_cons_of_mem _ listed)) seen
      cases shape : lineBatch (line.map asciiByte) with
      | none =>
          rw [List.filterMap_cons_none shape]
          exact later seen
      | some batch =>
          rw [List.filterMap_cons_some shape, List.flatten_cons, seeBatch, seeBatch,
            List.foldlM_append]
          simp only [later]
          rfl

/-- On a file of plain text the whole-file reader sees the batches of the terminated lines, and
that of the tail. -/
theorem iterOps_plain {text : List Char} (plain : ∀ char ∈ text, Plain char) :
    JsonlStore.iterOps ⟨some (text.map asciiByte)⟩ =
      OpLog.ofOps ((JsonlStore.batches ⟨some (text.map asciiByte)⟩).flatten ++
        (lineBatch (splitAfter JsonlStore.isNewline (text.map asciiByte)).2).getD []) := by
  have decoded : utf8Decode (text.map asciiByte) = some text := by
    rw [← utf8Encode_plain plain, utf8Decode_encode]
  have split := splitAfter_map asciiByte text
    (fun char listed => isNewline_asciiByte (plain char listed))
  have whole : (splitAfter (fun char => decide (char = '\n')) text).1.flatten ++
      (splitAfter (fun char => decide (char = '\n')) text).2 = text := splitAfter_flatten text
  have linesPlain : ∀ line ∈ (splitAfter (fun char => decide (char = '\n')) text).1,
      ∀ char ∈ line, Plain char := by
    intro line isLine char listed
    apply plain
    rw [← whole]
    exact List.mem_append_left _ (List.mem_flatten.mpr ⟨line, isLine, listed⟩)
  have tailPlain : ∀ char ∈ (splitAfter (fun char => decide (char = '\n')) text).2,
      Plain char := by
    intro char listed
    apply plain
    rw [← whole]
    exact List.mem_append_right _ listed
  rw [JsonlStore.iterOps, JsonlStore.batches, Option.getD_some, split]
  simp only [decoded, JsonlStore.textLines, universalNewlines_plain plain]
  by_cases none : (splitAfter (fun char => decide (char = '\n')) text).2 = []
  · rw [if_pos none, none, seeLines_plain linesPlain, List.map_nil, lineBatch_nil, Option.getD_none,
      List.append_nil]
    rfl
  · rw [if_neg none, List.foldlM_append]
    have tailSeen : ∀ seen, [(splitAfter (fun char => decide (char = '\n')) text).2].foldlM
        JsonlStore.seeLine seen = seeBatch seen ((lineBatch
          ((splitAfter (fun char => decide (char = '\n')) text).2.map asciiByte)).getD []) := by
      intro seen
      rw [List.foldlM_cons, seeLine_plain tailPlain]
      simp only [List.foldlM_nil, bind_pure]
    simp only [tailSeen]
    rw [seeLines_plain linesPlain, OpLog.ofOps, List.foldlM_append]
    rfl

/-! ## Torn lines -/

/-- The front of a batch without its newline, cut before the end. -/
def Torn (bytes : List UInt8) : Prop :=
  ∃ added more, more ≠ [] ∧ bytes ++ more = JsonlStore.batchBytes added

theorem torn_nil : Torn [] := by
  refine ⟨[], JsonlStore.batchBytes [], ?_, rfl⟩
  rcases JsonlStore.dumps_obj (JsonlStore.batchObject []) with ⟨middle, isText⟩
  rw [JsonlStore.batchBytes_eq, isText]
  exact List.cons_ne_nil _ _

theorem Torn.plain {bytes : List UInt8} (torn : Torn bytes) :
    ∀ byte ∈ bytes, JsonlStore.isNewline byte = false := by
  rcases torn with ⟨added, more, _, whole⟩
  intro byte listed
  apply JsonlStore.batchBytes_plain added
  rw [← whole]
  exact List.mem_append_left _ listed

omit [Runtime] in
theorem strip_of_head {head : Char} (visible : isSpace head = false) (tail : List Char) :
    strip (head :: tail) <+: head :: tail ∧ strip (head :: tail ++ ['\n']) <+: head :: tail := by
  have trimmed : ∀ text : List Char, (text.reverse.dropWhile isSpace).reverse <+: text :=
    fun text => List.rdropWhile_prefix isSpace text
  constructor
  · rw [strip, List.dropWhile_cons_of_neg (by rw [visible]; simp)]
    exact trimmed _
  · rw [strip, List.cons_append, List.dropWhile_cons_of_neg (by rw [visible]; simp),
      ← List.cons_append, List.reverse_append, List.reverse_singleton, List.singleton_append,
      List.dropWhile_cons_of_pos (by decide)]
    exact trimmed _

theorem lineBatch_unread {text : List Char} (plain : ∀ char ∈ text, Plain char)
    (unread : JsonValue.loads (strip text) = none) :
    lineBatch (text.map asciiByte) = none := by
  have decoded : utf8Decode ((strip text).map asciiByte) = some (strip text) := by
    rw [← utf8Encode_plain (fun char listed => plain char (strip_subset char listed)),
      utf8Decode_encode]
  rw [lineBatch]
  simp only [stripBytes_plain plain, decoded, Option.bind_some]
  split
  · rfl
  · rw [decodeJsonlBatch, canonicalJsonLoads, String.toList_ofList, unread]
    rfl

/-- No reader sees an operation in a torn line, whether it is terminated or not. -/
theorem Torn.unread {bytes : List UInt8} (torn : Torn bytes) :
    lineBatch bytes = none ∧ lineBatch (bytes ++ [10]) = none := by
  rcases torn with ⟨added, more, present, whole⟩
  have written := JsonlStore.batchBytes_eq added
  rw [← whole] at written
  rcases List.append_eq_map_iff.mp written with ⟨text, rest, isText, isBytes, isMore⟩
  have printable := text_printable (JsonValue.obj (JsonlStore.batchObject added)).1
  have plain : ∀ char ∈ text, Plain char := by
    intro char listed
    apply Or.inr
    apply printable
    change char ∈ JsonValue.dumps true _
    rw [isText]
    exact List.mem_append_left _ listed
  have restPresent : rest ≠ [] := by
    intro none
    rw [none] at isMore
    exact present isMore.symm
  have unread : ∀ shorter, shorter <+: text → JsonValue.loads shorter = none := by
    intro shorter isPrefix
    rcases isPrefix with ⟨middle, isPrefix⟩
    refine loads_proper_prefix true (JsonlStore.batchObject added)
      (?_ : middle ++ rest ≠ []) ?_
    · simp [restPresent]
    · rw [isText, ← isPrefix, List.append_assoc]
  have ended : bytes ++ [10] = (text ++ ['\n']).map asciiByte := by
    rw [List.map_append, ← isBytes]
    rfl
  have isImage : bytes = text.map asciiByte := isBytes.symm
  have endedPlain : ∀ char ∈ text ++ ['\n'], Plain char := by
    intro char listed
    rcases List.mem_append.mp listed with inside | last
    · exact plain char inside
    · exact Or.inl (List.mem_singleton.mp last)
  rw [ended, isImage]
  cases text with
  | nil => exact ⟨rfl, rfl⟩
  | cons head tail =>
      have visible : isSpace head = false := by
        rcases JsonlStore.dumps_obj (JsonlStore.batchObject added) with ⟨middle, braces⟩
        rw [isText, List.cons_append] at braces
        injection braces with isHead
        rw [isHead]
        decide
      have shorter := strip_of_head visible tail
      exact ⟨lineBatch_unread plain (unread _ shorter.1),
        lineBatch_unread endedPlain (unread _ shorter.2)⟩

end Readers

end Statefuse
