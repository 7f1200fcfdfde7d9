import Mathlib.Order.Bounds.Defs
import Statefuse.Foundation.Spans
import Statefuse.Utils

/-!
# How much of a peer's stream has been received

The progress of a peer is a cursor, up to which everything has been received, and the ranges
of positions that were received beyond it.  A received range is merged with the pending ones,
and the cursor moves over what it has reached.  For every progress that is reached from a fresh
one this is a normal form of the received positions, so that neither the order nor the
repetition of ranges matters (`progress_canonical`).
-/

namespace Statefuse

open Foundation Foundation.Spans

/-- A range of positions, without its end. -/
abbrev CursorRange : Type := Int × Int

structure ReplicaProgress where
  peerReplicaId : String
  cursor : Int
  pendingRanges : List CursorRange
  peerPresent : peerReplicaId ≠ ""
  cursorNonneg : 0 ≤ cursor
  rangesProper : ∀ range ∈ pendingRanges, 0 ≤ range.1 ∧ range.1 < range.2
  rangesSorted : pendingRanges.Pairwise (fun first second => toLex first ≤ toLex second)

namespace ReplicaProgress

theorem ext {first second : ReplicaProgress} (peers : first.peerReplicaId = second.peerReplicaId)
    (cursors : first.cursor = second.cursor)
    (ranges : first.pendingRanges = second.pendingRanges) : first = second := by
  cases first
  cases second
  cases peers
  cases cursors
  cases ranges
  rfl

/-- The constructor; it sorts the ranges. -/
def create (peerReplicaId : String) (cursor : Int) (pendingRanges : List CursorRange) :
    Result ReplicaProgress :=
  if peerPresent : peerReplicaId ≠ "" then
    if cursorNonneg : 0 ≤ cursor then
      if rangesProper : ∀ range ∈ pendingRanges, 0 ≤ range.1 ∧ range.1 < range.2 then
        .ok ⟨peerReplicaId, cursor, sortBy toLex pendingRanges, peerPresent, cursorNonneg,
          fun range member => rangesProper range (mem_sortBy.mp member),
          sortBy_pairwise toLex pendingRanges⟩
      else valueError "Replica progress ranges must be positive cursor intervals."
    else valueError "ReplicaProgress.cursor must be non-negative."
  else valueError "ReplicaProgress.peer_replica_id is required."

/-- The progress of a peer nothing has been received from. -/
def fresh (peerReplicaId : String) (present : peerReplicaId ≠ "") : ReplicaProgress where
  peerReplicaId := peerReplicaId
  cursor := 0
  pendingRanges := []
  peerPresent := present
  cursorNonneg := le_refl 0
  rangesProper := by simp
  rangesSorted := List.Pairwise.nil

end ReplicaProgress

/-- The ranges in order, those that overlap or touch joined. -/
def mergeRanges (ranges : List CursorRange) : List CursorRange :=
  (sortBy toLex ranges).foldl joinLast []

/-- `advance_replica_progress`: the pending ranges and the new one are merged, and the cursor
moves over those that start at or before it. -/
def advanceReplicaProgress (progress : ReplicaProgress) (cursorBefore cursorAfter : Int) :
    Result ReplicaProgress :=
  if cursorBefore < 0 ∨ cursorAfter < cursorBefore then
    valueError "Replica progress update has an invalid cursor range."
  else if cursorBefore = cursorAfter then .ok progress
  else
    let merged := mergeRanges (progress.pendingRanges ++ [(cursorBefore, cursorAfter)])
    let advanced := merged.foldl absorb (progress.cursor, [])
    ReplicaProgress.create progress.peerReplicaId advanced.1 advanced.2

/-- Several ranges, one after the other. -/
def advanceAll (progress : ReplicaProgress) (ranges : List CursorRange) :
    Result ReplicaProgress :=
  ranges.foldlM (fun progress range => advanceReplicaProgress progress range.1 range.2) progress

/-! ## One range -/

/-- The position has been received. -/
def ReplicaProgress.Received (progress : ReplicaProgress) (position : Int) : Prop :=
  Reached progress.cursor progress.pendingRanges position

/-- The pending ranges do not touch each other or the cursor. -/
def ReplicaProgress.Normal (progress : ReplicaProgress) : Prop :=
  Frontier progress.cursor progress.pendingRanges

/-- A range that the update accepts. -/
def CursorRange.Valid (range : CursorRange) : Prop := 0 ≤ range.1 ∧ range.1 ≤ range.2

section Advance

variable {progress next : ReplicaProgress}

theorem mergeRanges_spec {ranges : List CursorRange}
    (proper : ∀ range ∈ ranges, range.1 < range.2) :
    Canonical (mergeRanges ranges) ∧
      ∀ position, Covers (mergeRanges ranges) position ↔ Covers ranges position := by
  have starts : (sortBy toLex ranges).Pairwise (fun first second => first.1 ≤ second.1) := by
    refine (sortBy_pairwise toLex ranges).imp ?_
    intro first second before
    rcases Prod.Lex.toLex_le_toLex.mp before with less | ⟨same, _⟩
    · exact le_of_lt less
    · exact le_of_eq same
  rcases join_spec Canonical.nil (fun range member => proper range (mem_sortBy.mp member)) starts
    (by simp) with ⟨canonical, covers⟩
  refine ⟨canonical, ?_⟩
  intro position
  rw [mergeRanges, covers position, covers_of_perm (sortBy_perm toLex ranges)]
  simp [not_covers_nil]

/-- The constructor takes a frontier as it is. -/
theorem create_frontier {peerReplicaId : String} {cursor : Int} {ranges : List CursorRange}
    (present : peerReplicaId ≠ "") (nonneg : 0 ≤ cursor) (frontier : Frontier cursor ranges) :
    ∃ progress, ReplicaProgress.create peerReplicaId cursor ranges = .ok progress ∧
      progress.peerReplicaId = peerReplicaId ∧ progress.cursor = cursor ∧
      progress.pendingRanges = ranges := by
  have proper : ∀ range ∈ ranges, 0 ≤ range.1 ∧ range.1 < range.2 := by
    intro range member
    exact ⟨le_trans nonneg (le_of_lt (frontier.beyond range member)),
      frontier.canonical.proper range member⟩
  have sorted : ranges.Pairwise (fun first second => toLex first ≤ toLex second) := by
    refine frontier.canonical.apart.imp_of_mem ?_
    intro first second listed _ apart
    exact Prod.Lex.toLex_le_toLex.mpr (Or.inl (lt_trans (proper first listed).2 apart))
  rw [ReplicaProgress.create, dif_pos present, dif_pos nonneg, dif_pos proper]
  exact ⟨_, rfl, rfl, rfl, sortBy_of_pairwise sorted⟩

/-- The received positions determine a normal progress. -/
theorem ReplicaProgress.Normal.unique {other : ReplicaProgress} (first : progress.Normal)
    (second : other.Normal) (peers : progress.peerReplicaId = other.peerReplicaId)
    (same : ∀ position, progress.Received position ↔ other.Received position) :
    progress = other := by
  rcases Frontier.unique first second same with ⟨cursors, ranges⟩
  exact ReplicaProgress.ext peers cursors ranges

/-- A valid range keeps the progress normal and adds its positions. -/
theorem advance_spec (normal : progress.Normal) {range : CursorRange} (valid : range.Valid) :
    ∃ next, advanceReplicaProgress progress range.1 range.2 = .ok next ∧ next.Normal ∧
      next.peerReplicaId = progress.peerReplicaId ∧
      ∀ position, next.Received position ↔
        progress.Received position ∨ (range.1 ≤ position ∧ position < range.2) := by
  rcases valid with ⟨nonneg, ordered⟩
  have accepted : ¬(range.1 < 0 ∨ range.2 < range.1) := by omega
  by_cases empty : range.1 = range.2
  · refine ⟨progress, ?_, normal, rfl, ?_⟩
    · rw [advanceReplicaProgress, if_neg accepted, if_pos empty]
    · intro position
      constructor
      · exact Or.inl
      · rintro (received | ⟨after, before⟩)
        · exact received
        · rw [← empty] at before
          exact absurd after (not_le_of_gt before)
  · have proper : ∀ other ∈ progress.pendingRanges ++ [range], other.1 < other.2 := by
      intro other member
      rcases List.mem_append.mp member with pending | isNew
      · exact (progress.rangesProper other pending).2
      · rw [List.mem_singleton.mp isNew]
        exact lt_of_le_of_ne ordered empty
    rcases mergeRanges_spec proper with ⟨canonical, covers⟩
    rcases absorb_spec canonical progress.cursor with ⟨frontier, reaches⟩
    have grows := frontier.le_of_reached
      fun position below => (reaches position).mpr (Or.inl below)
    rcases create_frontier progress.peerPresent (le_trans progress.cursorNonneg grows) frontier with
      ⟨next, created, peers, cursors, ranges⟩
    refine ⟨next, ?_, ?_, peers, ?_⟩
    · rw [advanceReplicaProgress, if_neg accepted, if_neg empty]
      exact created
    · rw [ReplicaProgress.Normal, cursors, ranges]
      exact frontier
    · intro position
      rw [ReplicaProgress.Received, cursors, ranges, reaches position, Reached, covers position,
        covers_append, covers_cons, ReplicaProgress.Received, Reached, or_assoc]
      simp [not_covers_nil]

/-! ## Several ranges -/

/-- Valid ranges are all accepted, and add their positions. -/
theorem advanceAll_spec (normal : progress.Normal) {ranges : List CursorRange}
    (valid : ∀ range ∈ ranges, range.Valid) :
    ∃ next, advanceAll progress ranges = .ok next ∧ next.Normal ∧
      next.peerReplicaId = progress.peerReplicaId ∧
      ∀ position, next.Received position ↔ progress.Received position ∨ Covers ranges position := by
  induction ranges generalizing progress with
  | nil => exact ⟨progress, rfl, normal, rfl, fun position => by simp [not_covers_nil]⟩
  | cons range ranges inductionHypothesis =>
      rcases advance_spec normal (valid range List.mem_cons_self) with
        ⟨middle, step, middleNormal, middlePeer, middleReceived⟩
      rcases inductionHypothesis middleNormal
        (fun other member => valid other (List.mem_cons_of_mem _ member)) with
        ⟨next, rest, nextNormal, nextPeer, nextReceived⟩
      refine ⟨next, ?_, nextNormal, nextPeer.trans middlePeer, ?_⟩
      · rw [advanceAll, List.foldlM_cons, bind_of_ok step]
        exact rest
      · intro position
        rw [nextReceived position, middleReceived position, covers_cons, or_assoc]

/-- What a fresh progress becomes. -/
inductive ReplicaProgress.Reachable : ReplicaProgress → Prop where
  | fresh (peerReplicaId : String) (present : peerReplicaId ≠ "") :
      Reachable (.fresh peerReplicaId present)
  | advance {progress next : ReplicaProgress} {cursorBefore cursorAfter : Int}
      (earlier : Reachable progress)
      (step : advanceReplicaProgress progress cursorBefore cursorAfter = .ok next) :
      Reachable next

/-- Only valid ranges are accepted. -/
theorem valid_of_advance {cursorBefore cursorAfter : Int}
    (step : advanceReplicaProgress progress cursorBefore cursorAfter = .ok next) :
    CursorRange.Valid (cursorBefore, cursorAfter) := by
  unfold advanceReplicaProgress at step
  split at step
  · cases step
  · rename_i accepted
    have bounds : 0 ≤ cursorBefore ∧ cursorBefore ≤ cursorAfter := by omega
    exact bounds

theorem ReplicaProgress.Reachable.normal (reachable : progress.Reachable) : progress.Normal := by
  induction reachable with
  | fresh peerReplicaId present => exact ⟨Canonical.nil, by simp [ReplicaProgress.fresh]⟩
  | advance earlier step inductionHypothesis =>
      rcases advance_spec inductionHypothesis (valid_of_advance step) with
        ⟨result, advanced, normal, _⟩
      rw [step] at advanced
      injection advanced with same
      rw [same]
      exact normal

/-- Applying valid ranges to a reachable progress gives, in any order and with any repetition,
the one progress in normal form whose positions are the received and the new ones. -/
theorem progress_canonical (reachable : progress.Reachable) {ranges : List CursorRange}
    (valid : ∀ range ∈ ranges, range.Valid) :
    ∃ next, advanceAll progress ranges = .ok next ∧
      (∀ others : List CursorRange, (∀ range, range ∈ others ↔ range ∈ ranges) →
        advanceAll progress others = .ok next) ∧
      next.pendingRanges.Pairwise (fun first second => first.2 < second.1) ∧
      (∀ range ∈ next.pendingRanges, next.cursor < range.1 ∧ range.1 < range.2) ∧
      (∀ position, position < next.cursor ∨ Covers next.pendingRanges position ↔
        position < progress.cursor ∨ Covers progress.pendingRanges position ∨
          Covers ranges position) ∧
      IsLeast {position | ¬(position < progress.cursor ∨
        Covers progress.pendingRanges position ∨ Covers ranges position)} next.cursor ∧
      progress.cursor ≤ next.cursor := by
  rcases advanceAll_spec reachable.normal valid with ⟨next, run, normal, peer, received⟩
  have positions : ∀ position, position < next.cursor ∨ Covers next.pendingRanges position ↔
      position < progress.cursor ∨ Covers progress.pendingRanges position ∨
        Covers ranges position := by
    intro position
    have here := received position
    rw [ReplicaProgress.Received, ReplicaProgress.Received, Reached, Reached, or_assoc] at here
    exact here
  refine ⟨next, run, ?_, normal.canonical.apart, ?_, positions, ⟨?_, ?_⟩, ?_⟩
  · intro others same
    rcases advanceAll_spec reachable.normal
      (fun range member => valid range ((same range).mp member)) with
      ⟨other, otherRun, otherNormal, otherPeer, otherReceived⟩
    have equal : other = next := by
      apply otherNormal.unique normal (otherPeer.trans peer.symm)
      intro position
      rw [otherReceived position, received position, Covers, Covers]
      simp only [same]
    rw [otherRun, equal]
  · intro range member
    exact ⟨normal.beyond range member, normal.canonical.proper range member⟩
  · exact fun covered => normal.not_reached ((positions next.cursor).mpr covered)
  · intro position uncovered
    exact not_lt.mp fun below => uncovered ((positions position).mp (Or.inl below))
  · exact normal.le_of_reached fun position below => (positions position).mpr (Or.inl below)

/-- Three ranges in an order that leaves a gap open until the last one. -/
theorem progress_canonical_gap : ∃ next,
    advanceAll (.fresh "peer" (by decide)) [(4, 6), (0, 2), (2, 4)] = .ok next ∧
      next.cursor = 6 ∧ next.pendingRanges = [] ∧
      advanceAll (.fresh "peer" (by decide)) [(0, 2), (2, 4), (4, 6), (0, 2)] = .ok next := by
  have valid : ∀ range ∈ ([(4, 6), (0, 2), (2, 4)] : List CursorRange), range.Valid := by
    simp [CursorRange.Valid]
  rcases progress_canonical (.fresh "peer" (by decide)) valid with ⟨next, run, order, _⟩
  have computed : (advanceAll (.fresh "peer" (by decide)) [(4, 6), (0, 2), (2, 4)]).toOption.map
      (fun progress => (progress.cursor, progress.pendingRanges)) = some (6, []) := by
    decide +kernel
  rw [run] at computed
  injection computed with computed
  injection computed with cursor pending
  refine ⟨next, run, cursor, pending, order _ ?_⟩
  intro range
  simp only [List.mem_cons, List.not_mem_nil, or_false]
  tauto

end Advance

end Statefuse
