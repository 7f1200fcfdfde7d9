import Mathlib

/-!
# Lines

A text falls into the lines that end with a terminator, each with its terminator, and a tail
without one.
-/

namespace Foundation

universe u v

variable {α : Type u} (isEnd : α → Bool)

/-- The terminated lines and the unterminated tail. -/
def splitAfter : List α → List (List α) × List α
  | [] => ([], [])
  | head :: rest =>
      if isEnd head then ([head] :: (splitAfter rest).1, (splitAfter rest).2)
      else
        match (splitAfter rest).1 with
        | [] => ([], head :: (splitAfter rest).2)
        | line :: lines => ((head :: line) :: lines, (splitAfter rest).2)

variable {isEnd}

theorem splitAfter_flatten (text : List α) :
    (splitAfter isEnd text).1.flatten ++ (splitAfter isEnd text).2 = text := by
  induction text with
  | nil => rfl
  | cons head rest inductionHypothesis =>
      rw [splitAfter]
      split
      · rw [List.flatten_cons, List.append_assoc, inductionHypothesis]
        rfl
      · split
        · rename_i none
          rw [none] at inductionHypothesis
          simpa using inductionHypothesis
        · rename_i line lines some
          rw [some] at inductionHypothesis
          simpa using inductionHypothesis

theorem splitAfter_ne_nil (text : List α) :
    ∀ line ∈ (splitAfter isEnd text).1, line ≠ [] := by
  induction text with
  | nil => simp [splitAfter]
  | cons head rest inductionHypothesis =>
      intro line listed
      rw [splitAfter] at listed
      split at listed
      · rcases List.mem_cons.mp listed with isFirst | later
        · rw [isFirst]
          exact List.cons_ne_nil _ _
        · exact inductionHypothesis line later
      · split at listed
        · cases listed
        · rename_i first lines shape
          rcases List.mem_cons.mp listed with isFirst | later
          · rw [isFirst]
            exact List.cons_ne_nil _ _
          · apply inductionHypothesis
            rw [shape]
            exact List.mem_cons_of_mem _ later

/-- A line without another terminator inside it stands in front. -/
theorem splitAfter_line {body : List α} {last : α} (plain : ∀ item ∈ body, isEnd item = false)
    (terminates : isEnd last = true) (rest : List α) :
    splitAfter isEnd (body ++ last :: rest) =
      ((body ++ [last]) :: (splitAfter isEnd rest).1, (splitAfter isEnd rest).2) := by
  induction body with
  | nil => rw [List.nil_append, splitAfter, if_pos terminates, List.nil_append]
  | cons head body inductionHypothesis =>
      have headPlain := plain head List.mem_cons_self
      rw [List.cons_append, splitAfter, if_neg (by rw [headPlain]; simp),
        inductionHypothesis (fun item listed => plain item (List.mem_cons_of_mem _ listed))]
      rfl

/-- What follows terminated lines is split by itself. -/
theorem splitAfter_append (first second : List α) (terminated : (splitAfter isEnd first).2 = []) :
    splitAfter isEnd (first ++ second) =
      ((splitAfter isEnd first).1 ++ (splitAfter isEnd second).1,
        (splitAfter isEnd second).2) := by
  induction first with
  | nil => rfl
  | cons head rest inductionHypothesis =>
      rw [splitAfter] at terminated
      rw [List.cons_append, splitAfter, splitAfter]
      split at terminated
      · rename_i isTerminator
        rw [if_pos isTerminator, if_pos isTerminator, inductionHypothesis terminated]
        rfl
      · rename_i plain
        rw [if_neg plain, if_neg plain]
        cases shape : (splitAfter isEnd rest).1 with
        | nil =>
            rw [shape] at terminated
            cases terminated
        | cons line lines =>
            rw [shape] at terminated
            rw [inductionHypothesis terminated, shape]
            rfl

/-- A text without a tail ends with a terminator. -/
theorem splitAfter_last (text : List α) (terminated : (splitAfter isEnd text).2 = []) :
    ∀ last ∈ text.getLast?, isEnd last = true := by
  induction text with
  | nil => simp
  | cons head rest inductionHypothesis =>
      intro last isLast
      rw [splitAfter] at terminated
      split at terminated
      · rename_i isTerminator
        cases rest with
        | nil =>
            rw [List.getLast?_singleton] at isLast
            injection isLast with isLast
            rw [← isLast]
            exact isTerminator
        | cons next rest =>
            rw [List.getLast?_cons_cons] at isLast
            exact inductionHypothesis terminated last isLast
      · cases rest with
        | nil => cases terminated
        | cons next rest =>
            rw [List.getLast?_cons_cons] at isLast
            refine inductionHypothesis ?_ last isLast
            split at terminated
            · cases terminated
            · exact terminated

/-- After some of the lines, the others are split as they were. -/
theorem splitAfter_drop (text : List α) (before after : List (List α))
    (split : (splitAfter isEnd text).1 = before ++ after) :
    splitAfter isEnd (text.drop before.flatten.length) = (after, (splitAfter isEnd text).2) := by
  induction text generalizing before with
  | nil =>
      rw [splitAfter, List.nil_eq, List.append_eq_nil_iff] at split
      rw [split.1, split.2]
      rfl
  | cons head rest inductionHypothesis =>
      cases before with
      | nil =>
          rw [List.nil_append] at split
          rw [← split]
          rfl
      | cons line before =>
          rw [splitAfter] at split ⊢
          split at split
          · rename_i isTerminator
            rw [List.cons_append, List.cons.injEq] at split
            rw [if_pos isTerminator, ← split.1]
            exact inductionHypothesis before split.2
          · rename_i plain
            rw [if_neg plain]
            cases shape : (splitAfter isEnd rest).1 with
            | nil =>
                rw [shape] at split
                cases split
            | cons first lines =>
                rw [shape] at split
                simp only [List.cons_append, List.cons.injEq] at split
                rw [← split.1]
                exact inductionHypothesis (first :: before) (by rw [shape, split.2]; rfl)

variable {β : Type v}

theorem splitAfter_map {isEnd : α → Bool} {isLast : β → Bool} (image : α → β) (text : List α)
    (agrees : ∀ item ∈ text, isLast (image item) = isEnd item) :
    splitAfter isLast (text.map image) =
      ((splitAfter isEnd text).1.map (List.map image), (splitAfter isEnd text).2.map image) := by
  induction text with
  | nil => rfl
  | cons head tail inductionHypothesis =>
      have others := inductionHypothesis
        (fun item listed => agrees item (List.mem_cons_of_mem _ listed))
      rw [List.map_cons, splitAfter, splitAfter, agrees head List.mem_cons_self, others]
      cases isEnd head with
      | true => rfl
      | false =>
          rw [if_neg Bool.false_ne_true, if_neg Bool.false_ne_true]
          cases (splitAfter isEnd tail).1 with
          | nil => rfl
          | cons line lines => rfl

/-- The tail holds no terminator. -/
theorem splitAfter_tail_plain {isEnd : α → Bool} (text : List α) :
    ∀ item ∈ (splitAfter isEnd text).2, isEnd item = false := by
  induction text with
  | nil => simp [splitAfter]
  | cons head tail inductionHypothesis =>
      intro item listed
      rw [splitAfter] at listed
      split at listed
      · exact inductionHypothesis item listed
      · rename_i plain
        split at listed
        · rcases List.mem_cons.mp listed with isHead | later
          · rw [isHead]
            simpa using plain
          · exact inductionHypothesis item later
        · exact inductionHypothesis item listed

/-- A terminator behind a text ends its tail. -/
theorem splitAfter_end {isEnd : α → Bool} {last : α} (terminates : isEnd last = true)
    (text : List α) :
    splitAfter isEnd (text ++ [last]) =
      ((splitAfter isEnd text).1 ++ [(splitAfter isEnd text).2 ++ [last]], []) := by
  induction text with
  | nil => simp [splitAfter, terminates]
  | cons head tail inductionHypothesis =>
      rw [List.cons_append, splitAfter, splitAfter, inductionHypothesis]
      cases isEnd head with
      | true => rfl
      | false =>
          rw [if_neg Bool.false_ne_true, if_neg Bool.false_ne_true]
          cases (splitAfter isEnd tail).1 with
          | nil => rfl
          | cons line lines => rfl

/-- A text without terminators is a tail. -/
theorem splitAfter_plain {isEnd : α → Bool} {text : List α}
    (plain : ∀ item ∈ text, isEnd item = false) : splitAfter isEnd text = ([], text) := by
  induction text with
  | nil => rfl
  | cons head tail inductionHypothesis =>
      rw [splitAfter, if_neg (by rw [plain head List.mem_cons_self]; simp),
        inductionHypothesis (fun item listed => plain item (List.mem_cons_of_mem _ listed))]

/-- Trimming commutes with a map that keeps what is trimmed. -/
theorem dropWhile_map {test : β → Bool} {other : α → Bool} (image : α → β) (text : List α)
    (agrees : ∀ item ∈ text, test (image item) = other item) :
    (text.map image).dropWhile test = (text.dropWhile other).map image := by
  induction text with
  | nil => rfl
  | cons head tail inductionHypothesis =>
      rw [List.map_cons]
      cases passes : other head with
      | true =>
          rw [List.dropWhile_cons_of_pos (by rw [agrees head List.mem_cons_self, passes]),
            List.dropWhile_cons_of_pos passes]
          exact inductionHypothesis
            (fun item listed => agrees item (List.mem_cons_of_mem _ listed))
      | false =>
          rw [List.dropWhile_cons_of_neg (by rw [agrees head List.mem_cons_self, passes]; simp),
            List.dropWhile_cons_of_neg (by rw [passes]; simp), List.map_cons]

end Foundation
