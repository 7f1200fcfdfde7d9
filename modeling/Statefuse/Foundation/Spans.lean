import Mathlib.Order.Lattice
import Mathlib.Data.List.Basic
import Mathlib.Order.MinMax

/-!
# Spans on a line

A span `(start, stop)` covers the points from `start` on and before `stop`.  A list of
spans is canonical when none of them is empty and each stops before the next one starts,
so that they neither overlap nor touch.  The covered points determine a canonical list
(`Canonical.unique`).  Joining spans in the order of their starts leads to the canonical
list of what they cover (`join_spec`).  A frontier is a point together with the spans
beyond it; what lies below the point or in a span determines it (`Frontier.unique`), and
absorbing a canonical list extends it by what the list covers (`absorb_spec`).
-/

namespace Foundation.Spans

variable {α : Type} [LinearOrder α]

/-- The point lies in one of the spans. -/
def Covers (spans : List (α × α)) (point : α) : Prop :=
  ∃ span ∈ spans, span.1 ≤ point ∧ point < span.2

theorem not_covers_nil (point : α) : ¬Covers [] point := by
  rintro ⟨span, member, _⟩
  cases member

theorem covers_cons {span : α × α} {spans : List (α × α)} {point : α} :
    Covers (span :: spans) point ↔ (span.1 ≤ point ∧ point < span.2) ∨ Covers spans point := by
  constructor
  · rintro ⟨other, member, inside⟩
    rcases List.mem_cons.mp member with same | later
    · rw [same] at inside
      exact Or.inl inside
    · exact Or.inr ⟨other, later, inside⟩
  · rintro (inside | ⟨other, member, inside⟩)
    · exact ⟨span, List.mem_cons_self, inside⟩
    · exact ⟨other, List.mem_cons_of_mem _ member, inside⟩

theorem covers_append {spans others : List (α × α)} {point : α} :
    Covers (spans ++ others) point ↔ Covers spans point ∨ Covers others point := by
  induction spans with
  | nil => simp [not_covers_nil]
  | cons head tail inductionHypothesis =>
      rw [List.cons_append, covers_cons, covers_cons, inductionHypothesis, or_assoc]

theorem covers_of_perm {spans others : List (α × α)} (permuted : spans.Perm others) {point : α} :
    Covers spans point ↔ Covers others point := by
  unfold Covers
  simp only [permuted.mem_iff]

/-- Spans that are not empty, in order, and do not touch. -/
structure Canonical (spans : List (α × α)) : Prop where
  proper : ∀ span ∈ spans, span.1 < span.2
  apart : spans.Pairwise (fun first second => first.2 < second.1)

namespace Canonical

variable {span : α × α} {spans others : List (α × α)}

theorem nil : Canonical ([] : List (α × α)) := ⟨by simp, List.Pairwise.nil⟩

theorem head (canonical : Canonical (span :: spans)) : span.1 < span.2 :=
  canonical.proper span List.mem_cons_self

theorem tail (canonical : Canonical (span :: spans)) : Canonical spans :=
  ⟨fun other member => canonical.proper other (List.mem_cons_of_mem _ member),
    (List.pairwise_cons.mp canonical.apart).2⟩

theorem before (canonical : Canonical (span :: spans)) : ∀ other ∈ spans, span.2 < other.1 :=
  (List.pairwise_cons.mp canonical.apart).1

theorem cons (proper : span.1 < span.2) (before : ∀ other ∈ spans, span.2 < other.1)
    (rest : Canonical spans) : Canonical (span :: spans) := by
  constructor
  · intro other member
    rcases List.mem_cons.mp member with same | later
    · rw [same]
      exact proper
    · exact rest.proper other later
  · exact List.pairwise_cons.mpr ⟨before, rest.apart⟩

/-- What the later spans cover lies beyond the first one. -/
theorem beyond_of_covers (canonical : Canonical (span :: spans)) {point : α}
    (covered : Covers spans point) : span.2 < point := by
  rcases covered with ⟨other, member, after, _⟩
  exact lt_of_lt_of_le (canonical.before other member) after

/-- What the list covers does not lie before the first span. -/
theorem start_le_of_covers (canonical : Canonical (span :: spans)) {point : α}
    (covered : Covers (span :: spans) point) : span.1 ≤ point := by
  rcases covers_cons.mp covered with ⟨after, _⟩ | later
  · exact after
  · exact le_of_lt (lt_trans canonical.head (canonical.beyond_of_covers later))

theorem covers_start (canonical : Canonical (span :: spans)) : Covers (span :: spans) span.1 :=
  covers_cons.mpr (Or.inl ⟨le_refl _, canonical.head⟩)

theorem not_covers_stop (canonical : Canonical (span :: spans)) :
    ¬Covers (span :: spans) span.2 := by
  intro covered
  rcases covers_cons.mp covered with ⟨_, inside⟩ | later
  · exact lt_irrefl _ inside
  · exact lt_irrefl _ (canonical.beyond_of_covers later)

private theorem stop_le {other : α × α} (second : Canonical (other :: others))
    (starts : span.1 = other.1)
    (same : ∀ point, Covers (span :: spans) point ↔ Covers (other :: others) point) :
    span.2 ≤ other.2 := by
  rcases le_or_gt span.2 other.2 with below | above
  · exact below
  · have covered : Covers (span :: spans) other.2 := by
      refine covers_cons.mpr (Or.inl ⟨?_, above⟩)
      rw [starts]
      exact le_of_lt second.head
    exact absurd ((same _).mp covered) second.not_covers_stop

/-- The covered points determine a canonical list. -/
theorem unique (first : Canonical spans) (second : Canonical others)
    (same : ∀ point, Covers spans point ↔ Covers others point) : spans = others := by
  induction spans generalizing others with
  | nil =>
      cases others with
      | nil => rfl
      | cons other rest => exact absurd ((same _).mpr second.covers_start) (not_covers_nil _)
  | cons span spans inductionHypothesis =>
      cases others with
      | nil => exact absurd ((same _).mp first.covers_start) (not_covers_nil _)
      | cons other rest =>
          have starts : span.1 = other.1 := le_antisymm
            (first.start_le_of_covers ((same _).mpr second.covers_start))
            (second.start_le_of_covers ((same _).mp first.covers_start))
          have stops : span.2 = other.2 := le_antisymm (stop_le second starts same)
            (stop_le first starts.symm fun point => (same point).symm)
          have heads : span = other := Prod.ext starts stops
          have tails : ∀ point, Covers spans point ↔ Covers rest point := by
            intro point
            constructor
            · intro covered
              rcases covers_cons.mp ((same point).mp (covers_cons.mpr (Or.inr covered))) with
                ⟨_, inside⟩ | later
              · rw [← stops] at inside
                exact absurd inside (lt_asymm (first.beyond_of_covers covered))
              · exact later
            · intro covered
              rcases covers_cons.mp ((same point).mpr (covers_cons.mpr (Or.inr covered))) with
                ⟨_, inside⟩ | later
              · rw [stops] at inside
                exact absurd inside (lt_asymm (second.beyond_of_covers covered))
              · exact later
          rw [heads, inductionHypothesis first.tail second.tail tails]

end Canonical

/-! ## Joining spans in order -/

/-- Add a span at the end, joining it with the last one when they overlap or touch. -/
def joinLast : List (α × α) → α × α → List (α × α)
  | [], span => [span]
  | [last], span =>
      if span.1 ≤ last.2 then [(last.1, max last.2 span.2)] else [last, span]
  | head :: next :: rest, span => head :: joinLast (next :: rest) span

/-- Every span starts where an old one or the new one starts. -/
theorem start_of_joinLast {joined : List (α × α)} {span other : α × α}
    (member : other ∈ joinLast joined span) :
    other.1 = span.1 ∨ ∃ old ∈ joined, other.1 = old.1 := by
  induction joined with
  | nil =>
      rw [joinLast, List.mem_singleton] at member
      exact Or.inl (congrArg Prod.fst member)
  | cons head tail inductionHypothesis =>
      cases tail with
      | nil =>
          rw [joinLast] at member
          split at member
          · rw [List.mem_singleton.mp member]
            exact Or.inr ⟨head, List.mem_singleton.mpr rfl, rfl⟩
          · rcases List.mem_pair.mp member with isHead | isNew
            · exact Or.inr ⟨head, List.mem_singleton.mpr rfl, by rw [isHead]⟩
            · exact Or.inl (by rw [isNew])
      | cons next rest =>
          rcases List.mem_cons.mp member with isHead | later
          · exact Or.inr ⟨head, List.mem_cons_self, by rw [isHead]⟩
          · rcases inductionHypothesis later with isNew | ⟨old, listed, same⟩
            · exact Or.inl isNew
            · exact Or.inr ⟨old, List.mem_cons_of_mem _ listed, same⟩

theorem joinLast_canonical {joined : List (α × α)} {span : α × α} (canonical : Canonical joined)
    (proper : span.1 < span.2) (inOrder : ∀ old ∈ joined, old.1 ≤ span.1) :
    Canonical (joinLast joined span) := by
  induction joined with
  | nil => exact Canonical.cons proper (by simp) Canonical.nil
  | cons head tail inductionHypothesis =>
      cases tail with
      | nil =>
          rw [joinLast]
          split
          · exact Canonical.cons (lt_of_lt_of_le canonical.head (le_max_left _ _)) (by simp)
              Canonical.nil
          · rename_i apart
            refine Canonical.cons canonical.head ?_
              (Canonical.cons proper (by simp) Canonical.nil)
            intro other member
            rw [List.mem_singleton.mp member]
            exact lt_of_not_ge apart
      | cons next rest =>
          refine Canonical.cons canonical.head ?_ (inductionHypothesis canonical.tail
            fun old listed => inOrder old (List.mem_cons_of_mem _ listed))
          intro other member
          rcases start_of_joinLast member with isNew | ⟨old, listed, same⟩
          · rw [isNew]
            exact lt_of_lt_of_le (canonical.before next List.mem_cons_self)
              (inOrder next (List.mem_cons_of_mem _ List.mem_cons_self))
          · rw [same]
            exact canonical.before old listed

theorem covers_joinLast {joined : List (α × α)} {span : α × α}
    (inOrder : ∀ old ∈ joined, old.1 ≤ span.1) (point : α) :
    Covers (joinLast joined span) point ↔
      Covers joined point ∨ (span.1 ≤ point ∧ point < span.2) := by
  induction joined with
  | nil =>
      rw [joinLast, covers_cons, or_comm]
  | cons head tail inductionHypothesis =>
      cases tail with
      | nil =>
          have starts := inOrder head (List.mem_singleton.mpr rfl)
          rw [joinLast]
          split
          · rename_i touching
            simp only [covers_cons, not_covers_nil, or_false, lt_max_iff]
            constructor
            · rintro ⟨after, first | second⟩
              · exact Or.inl ⟨after, first⟩
              · rcases le_or_gt span.1 point with inside | outside
                · exact Or.inr ⟨inside, second⟩
                · exact Or.inl ⟨after, lt_of_lt_of_le outside touching⟩
            · rintro (⟨after, first⟩ | ⟨inside, second⟩)
              · exact ⟨after, Or.inl first⟩
              · exact ⟨le_trans starts inside, Or.inr second⟩
          · simp only [covers_cons, not_covers_nil, or_false]
      | cons next rest =>
          rw [joinLast, covers_cons, inductionHypothesis
            fun old listed => inOrder old (List.mem_cons_of_mem _ listed), ← or_assoc,
            ← covers_cons]

/-- Joining spans in the order of their starts leads to a canonical list that covers what
they cover. -/
theorem join_spec {spans joined : List (α × α)} (canonical : Canonical joined)
    (proper : ∀ span ∈ spans, span.1 < span.2)
    (sorted : spans.Pairwise (fun first second => first.1 ≤ second.1))
    (inOrder : ∀ old ∈ joined, ∀ span ∈ spans, old.1 ≤ span.1) :
    Canonical (spans.foldl joinLast joined) ∧
      ∀ point, Covers (spans.foldl joinLast joined) point ↔
        Covers joined point ∨ Covers spans point := by
  induction spans generalizing joined with
  | nil => exact ⟨canonical, fun point => by simp [not_covers_nil]⟩
  | cons span spans inductionHypothesis =>
      have before : ∀ old ∈ joined, old.1 ≤ span.1 :=
        fun old listed => inOrder old listed span List.mem_cons_self
      rcases List.pairwise_cons.mp sorted with ⟨least, rest⟩
      have later : ∀ old ∈ joinLast joined span, ∀ other ∈ spans, old.1 ≤ other.1 := by
        intro old listed other member
        rcases start_of_joinLast listed with isNew | ⟨known, among, same⟩
        · rw [isNew]
          exact least other member
        · rw [same]
          exact inOrder known among other (List.mem_cons_of_mem _ member)
      rcases inductionHypothesis
        (joinLast_canonical canonical (proper span List.mem_cons_self) before)
        (fun other member => proper other (List.mem_cons_of_mem _ member)) rest later with
        ⟨result, covers⟩
      refine ⟨result, ?_⟩
      intro point
      rw [List.foldl_cons, covers point, covers_joinLast before, covers_cons, or_assoc]

/-! ## A frontier -/

/-- A point and the canonical spans strictly beyond it. -/
structure Frontier (point : α) (spans : List (α × α)) : Prop where
  canonical : Canonical spans
  beyond : ∀ span ∈ spans, point < span.1

/-- Below the point or in one of the spans. -/
def Reached (point : α) (spans : List (α × α)) (position : α) : Prop :=
  position < point ∨ Covers spans position

namespace Frontier

variable {point other : α} {spans others : List (α × α)}

theorem lt_of_covers (frontier : Frontier point spans) {position : α}
    (covered : Covers spans position) : point < position := by
  rcases covered with ⟨span, member, after, _⟩
  exact lt_of_lt_of_le (frontier.beyond span member) after

/-- The point itself is not reached. -/
theorem not_reached (frontier : Frontier point spans) : ¬Reached point spans point := by
  rintro (below | covered)
  · exact lt_irrefl _ below
  · exact lt_irrefl _ (frontier.lt_of_covers covered)

/-- A frontier that reaches whatever lies below a point is not before it. -/
theorem le_of_reached (frontier : Frontier other others)
    (reaches : ∀ position, position < point → Reached other others position) :
    point ≤ other := by
  rcases le_or_gt point other with below | above
  · exact below
  · exact absurd (reaches other above) frontier.not_reached

/-- What is reached determines the frontier. -/
theorem unique (first : Frontier point spans) (second : Frontier other others)
    (same : ∀ position, Reached point spans position ↔ Reached other others position) :
    point = other ∧ spans = others := by
  have points : point = other := le_antisymm
    (second.le_of_reached fun position below => (same position).mp (Or.inl below))
    (first.le_of_reached fun position below => (same position).mpr (Or.inl below))
  refine ⟨points, first.canonical.unique second.canonical ?_⟩
  intro position
  constructor
  · intro covered
    rcases (same position).mp (Or.inr covered) with below | result
    · rw [← points] at below
      exact absurd below (lt_asymm (first.lt_of_covers covered))
    · exact result
  · intro covered
    rcases (same position).mpr (Or.inr covered) with below | result
    · rw [points] at below
      exact absurd below (lt_asymm (second.lt_of_covers covered))
    · exact result

end Frontier

/-- Move the point over a span that it has reached, and keep a span beyond it. -/
def absorb (state : α × List (α × α)) (span : α × α) : α × List (α × α) :=
  if span.1 ≤ state.1 then (max state.1 span.2, state.2)
  else if state.1 < span.2 then (state.1, state.2 ++ [span])
  else state

theorem absorb_beyond {spans kept : List (α × α)} {point : α}
    (proper : ∀ span ∈ spans, span.1 < span.2) (beyond : ∀ span ∈ spans, point < span.1) :
    spans.foldl absorb (point, kept) = (point, kept ++ spans) := by
  induction spans generalizing kept with
  | nil => simp
  | cons span spans inductionHypothesis =>
      have after := beyond span List.mem_cons_self
      rw [List.foldl_cons, absorb, if_neg (not_le_of_gt after),
        if_pos (lt_trans after (proper span List.mem_cons_self)),
        inductionHypothesis (fun other member => proper other (List.mem_cons_of_mem _ member))
          (fun other member => beyond other (List.mem_cons_of_mem _ member)),
        List.append_assoc, List.singleton_append]

/-- Absorbing a canonical list leads to a frontier that reaches what was below the point and
what the list covers. -/
theorem absorb_spec {spans : List (α × α)} (canonical : Canonical spans) (point : α) :
    Frontier (spans.foldl absorb (point, [])).1 (spans.foldl absorb (point, [])).2 ∧
      ∀ position, Reached (spans.foldl absorb (point, [])).1
          (spans.foldl absorb (point, [])).2 position ↔ Reached point spans position := by
  induction spans generalizing point with
  | nil => exact ⟨⟨Canonical.nil, by simp⟩, fun position => Iff.rfl⟩
  | cons span spans inductionHypothesis =>
      by_cases reached : span.1 ≤ point
      · rw [List.foldl_cons, absorb, if_pos reached]
        rcases inductionHypothesis canonical.tail (max point span.2) with ⟨frontier, reaches⟩
        refine ⟨frontier, ?_⟩
        intro position
        rw [reaches position]
        unfold Reached
        rw [covers_cons, lt_max_iff, or_assoc]
        constructor
        · rintro (below | inside | covered)
          · exact Or.inl below
          · rcases le_or_gt span.1 position with after | before
            · exact Or.inr (Or.inl ⟨after, inside⟩)
            · exact Or.inl (lt_of_lt_of_le before reached)
          · exact Or.inr (Or.inr covered)
        · rintro (below | ⟨_, inside⟩ | covered)
          · exact Or.inl below
          · exact Or.inr (Or.inl inside)
          · exact Or.inr (Or.inr covered)
      · have beyond : ∀ other ∈ span :: spans, point < other.1 := by
          intro other member
          rcases List.mem_cons.mp member with same | later
          · rw [same]
            exact lt_of_not_ge reached
          · exact lt_trans (lt_of_not_ge reached)
              (lt_trans canonical.head (canonical.before other later))
        rw [absorb_beyond canonical.proper beyond]
        exact ⟨⟨canonical, beyond⟩, fun position => Iff.rfl⟩

end Foundation.Spans
