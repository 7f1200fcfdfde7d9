import Statefuse.Foundation.Outcome

/-!
# Books

A book binds each id to at most one payload.  Entering a binding again is harmless, and
entering another payload under an id that is bound is refused.  A component keeps a book when
its operations have the outcomes of the book's, whatever its own state looks like; two
components that keep one book cannot be told apart by their outcomes (`Alike.trans`).
-/

namespace Foundation

universe u v w

section Outcomes

variable {ε : Type u} {σ τ υ α β : Type v}

/-- Both computations succeed with related results, or both raise the same error. -/
def Alike (related : σ → τ → Prop) (first : Except ε σ) (second : Except ε τ) : Prop :=
  (∃ left right, first = .ok left ∧ second = .ok right ∧ related left right) ∨
    ∃ failure, first = .error failure ∧ second = .error failure

theorem Alike.ok {related : σ → τ → Prop} {left : σ} {right : τ}
    (holds : related left right) :
    Alike related (.ok left : Except ε σ) (.ok right) :=
  Or.inl ⟨left, right, rfl, rfl, holds⟩

theorem Alike.error {related : σ → τ → Prop} (failure : ε) :
    Alike related (.error failure) (.error failure) :=
  Or.inr ⟨failure, rfl, rfl⟩

theorem Alike.bind {related : σ → τ → Prop} {after : α → β → Prop}
    {first : Except ε σ} {second : Except ε τ} {firstNext : σ → Except ε α}
    {secondNext : τ → Except ε β} (same : Alike related first second)
    (next : ∀ left right, first = .ok left → second = .ok right → related left right →
      Alike after (firstNext left) (secondNext right)) :
    Alike after (first >>= firstNext) (second >>= secondNext) := by
  rcases same with ⟨left, right, isLeft, isRight, holds⟩ | ⟨failure, isLeft, isRight⟩
  · have continued := next left right isLeft isRight holds
    rw [isLeft, isRight]
    exact continued
  · rw [isLeft, isRight]
    exact Or.inr ⟨failure, rfl, rfl⟩

/-- Two computations that have the outcome of a third one have the same outcome. -/
theorem Alike.trans {related : σ → υ → Prop} {other : τ → υ → Prop}
    {first : Except ε σ} {second : Except ε τ} {third : Except ε υ}
    (left : Alike related first third) (right : Alike other second third) :
    Alike (fun one two => ∃ middle, related one middle ∧ other two middle) first second := by
  rcases left with ⟨one, middle, isOne, isMiddle, holds⟩ | ⟨failure, isOne, isThird⟩
  · rcases right with ⟨two, same, isTwo, isSame, holdsToo⟩ | ⟨failure, _, impossible⟩
    · rw [isMiddle] at isSame
      injection isSame with isSame
      exact Or.inl ⟨one, two, isOne, isTwo, middle, holds, by rw [isSame]; exact holdsToo⟩
    · rw [isMiddle] at impossible
      cases impossible
  · rcases right with ⟨two, same, isTwo, isSame, _⟩ | ⟨other, isTwo, isSame⟩
    · rw [isThird] at isSame
      cases isSame
    · rw [isThird] at isSame
      injection isSame with isSame
      exact Or.inr ⟨failure, isOne, by rw [isTwo, isSame]⟩

/-- Folds whose steps have the same outcomes have the same outcome. -/
theorem Alike.foldlM {step : σ → α → Except ε σ} {other : τ → β → Except ε τ}
    (related : List α → σ → τ → Prop) (image : α → β) (items : List α) {first : σ} {second : τ}
    (start : related items first second)
    (each : ∀ item rest left right, related (item :: rest) left right →
      Alike (related rest) (step left item) (other right (image item))) :
    Alike (related []) (items.foldlM step first) ((items.map image).foldlM other second) := by
  induction items generalizing first second with
  | nil => exact .ok start
  | cons item rest inductionHypothesis =>
      rw [List.map_cons, List.foldlM_cons, List.foldlM_cons]
      exact (each item rest first second start).bind
        (fun left right _ _ holds => inductionHypothesis holds)

end Outcomes

section Books

variable {ε : Type u} {I K : Type v} [DecidableEq I] [DecidableEq K] (refuse : I → ε)

/-- Enter a binding; the flag says whether it is new. -/
def enter (book : I → Option K) (entry : I × K) : Except ε ((I → Option K) × Bool) :=
  match book entry.1 with
  | none => .ok (Function.update book entry.1 (some entry.2), true)
  | some payload =>
      if payload = entry.2 then .ok (book, false) else .error (refuse entry.1)

/-- Enter a binding and note the flag. -/
def enterStep (state : (I → Option K) × List Bool) (entry : I × K) :
    Except ε ((I → Option K) × List Bool) := do
  let (book, isNew) ← enter refuse state.1 entry
  return (book, state.2 ++ [isNew])

/-- Enter several bindings or none. -/
def enterAll (book : I → Option K) (entries : List (I × K)) :
    Except ε ((I → Option K) × List Bool) :=
  entries.foldlM (enterStep refuse) (book, [])

variable {refuse} {book : I → Option K} {entry : I × K}

end Books

end Foundation
