import Statefuse.Store.Paging

/-!
# Pages of the in-memory store

A committed batch is a segment as wide as the batch is long.  The cursors are the positions
between batches.
-/

namespace Statefuse

open Foundation

variable [Runtime]

namespace InMemoryStore

/-- The batches that end at the given positions. -/
def segmentsFrom (order : List Op) : Nat → List Nat → List (Segment Op)
  | _, [] => []
  | previous, stop :: stops =>
      ⟨stop - previous, (order.take stop).drop previous⟩ :: segmentsFrom order stop stops

def segments (store : InMemoryStore) : List (Segment Op) :=
  segmentsFrom store.appendOrder 0 store.batchEnds

section Positions

variable {order : List Op}

theorem length_between {previous stop : Nat} (within : stop ≤ order.length) :
    ((order.take stop).drop previous).length = stop - previous := by
  rw [List.length_drop, List.length_take, Nat.min_eq_left within]

theorem between_append {first second third : Nat} (below : first ≤ second)
    (above : second ≤ third) :
    (order.take second).drop first ++ (order.take third).drop second =
      (order.take third).drop first := by
  have split : (order.take third).drop first =
      ((order.take third).drop first).take (second - first) ++
        ((order.take third).drop first).drop (second - first) :=
    (List.take_append_drop _ _).symm
  rw [split, List.drop_drop, Nat.add_sub_cancel' below]
  congr 1
  rw [← List.drop_take, List.take_take, Nat.min_eq_left (by omega)]

/-- Batches between rising positions are as wide as they are long, and none is empty. -/
theorem segmentsFrom_wide (stops : List Nat) (previous : Nat)
    (rising : (previous :: stops).Pairwise (· < ·)) (within : ∀ stop ∈ stops, stop ≤ order.length) :
    ∀ segment ∈ segmentsFrom order previous stops,
      0 < segment.width ∧ segment.items.length = segment.width := by
  induction stops generalizing previous with
  | nil => simp [segmentsFrom]
  | cons stop stops inductionHypothesis =>
      rcases List.pairwise_cons.mp rising with ⟨above, laterRising⟩
      intro segment listed
      rw [segmentsFrom] at listed
      rcases List.mem_cons.mp listed with isFirst | later
      · rw [isFirst]
        have positive := above stop List.mem_cons_self
        refine ⟨by simp only; omega, ?_⟩
        exact length_between (within stop List.mem_cons_self)
      · exact inductionHypothesis stop laterRising
          (fun other listed => within other (List.mem_cons_of_mem _ listed)) segment later

/-- A front part of the batches ends at one of the positions. -/
theorem segmentsFrom_split (stops : List Nat) (previous : Nat)
    (rising : (previous :: stops).Pairwise (· < ·)) (before after : List (Segment Op))
    (split : segmentsFrom order previous stops = before ++ after) :
    ∃ passed later, stops = passed ++ later ∧
      previous + Segment.totalWidth before = passed.getLastD previous ∧
      after = segmentsFrom order (passed.getLastD previous) later := by
  induction stops generalizing previous before with
  | nil =>
      rw [segmentsFrom, List.nil_eq, List.append_eq_nil_iff] at split
      rw [split.1, split.2]
      exact ⟨[], [], rfl, rfl, rfl⟩
  | cons stop stops inductionHypothesis =>
      rcases List.pairwise_cons.mp rising with ⟨above, laterRising⟩
      have positive := above stop List.mem_cons_self
      cases before with
      | nil => exact ⟨[], stop :: stops, rfl, rfl, split.symm⟩
      | cons segment before =>
          rw [segmentsFrom, List.cons_append, List.cons.injEq] at split
          rcases inductionHypothesis stop laterRising before split.2 with
            ⟨passed, later, isSplit, width, rest⟩
          have last : (stop :: passed).getLastD previous = passed.getLastD stop := by
            cases passed <;> rfl
          refine ⟨stop :: passed, later, by rw [isSplit]; rfl, ?_, ?_⟩
          · rw [last, ← width, Segment.totalWidth_cons, ← split.1]
            simp only
            omega
          · rw [last]
            exact rest

/-- The operations of a front part of the batches stand next to each other. -/
theorem itemsOf_front (stops : List Nat) (previous : Nat)
    (rising : (previous :: stops).Pairwise (· < ·)) (front rest : List (Segment Op))
    (split : segmentsFrom order previous stops = front ++ rest) :
    Segment.itemsOf front =
      (order.take (previous + Segment.totalWidth front)).drop previous := by
  induction stops generalizing previous front with
  | nil =>
      rw [segmentsFrom, List.nil_eq, List.append_eq_nil_iff] at split
      rw [split.1]
      simp
  | cons stop stops inductionHypothesis =>
      rcases List.pairwise_cons.mp rising with ⟨above, laterRising⟩
      have positive := above stop List.mem_cons_self
      cases front with
      | nil => simp
      | cons segment front =>
          rw [segmentsFrom, List.cons_append, List.cons.injEq] at split
          rw [Segment.itemsOf_cons, Segment.totalWidth_cons,
            inductionHypothesis stop laterRising front split.2, ← split.1]
          simp only
          rw [between_append (le_of_lt positive) (Nat.le_add_right _ _)]
          congr 2
          omega

end Positions

/-! ## One read -/

omit [Runtime] in
/-- A read that has stopped looks at no further batch. -/
theorem read_stopped {cursor : Nat} {limit : Option Nat} {reading : Reading}
    (stopped : reading.stopped = true) (stops : List Nat) :
    stops.foldlM (readStep cursor limit) reading = .ok reading := by
  induction stops with
  | nil => rfl
  | cons stop stops inductionHypothesis =>
      have step : readStep cursor limit reading stop = .ok reading := by
        rw [readStep, if_pos stopped]
      rw [List.foldlM_cons, bind_of_ok step, inductionHypothesis]

/-- A read takes the batches of the next page, one after the other. -/
theorem read_page {order : List Op} {cursor : Nat} (stops : List Nat) (previous : Nat)
    (sizes : List Nat) (rising : (previous :: stops).Pairwise (· < ·))
    (within : ∀ stop ∈ stops, stop ≤ order.length) (passed : cursor ≤ previous)
    (limit : Option Nat) :
    ∃ last stopped, stops.foldlM (readStep cursor limit) ⟨previous, sizes, previous, false⟩ =
      .ok ⟨last,
        sizes ++ (Segment.batchesOf
          (Segment.page limit sizes.sum (segmentsFrom order previous stops))).map List.length,
        previous + Segment.totalWidth
          (Segment.page limit sizes.sum (segmentsFrom order previous stops)), stopped⟩ := by
  induction stops generalizing previous sizes with
  | nil =>
      refine ⟨previous, false, ?_⟩
      simp [segmentsFrom, Segment.page]
      rfl
  | cons stop stops inductionHypothesis =>
      rcases List.pairwise_cons.mp rising with ⟨above, laterRising⟩
      have positive := above stop List.mem_cons_self
      have length : ((order.take stop).drop previous).length = stop - previous :=
        length_between (within stop List.mem_cons_self)
      have present : (order.take stop).drop previous ≠ [] := by
        rw [← List.length_pos_iff, length]
        omega
      have total : (sizes ++ [stop - previous]).sum =
          sizes.sum + ((order.take stop).drop previous).length := by
        rw [List.sum_append, List.sum_singleton, length]
      have step : readStep cursor limit ⟨previous, sizes, previous, false⟩ stop =
          .ok ⟨stop, sizes ++ [stop - previous], stop,
            Segment.reached limit (sizes ++ [stop - previous]).sum⟩ := by
        unfold readStep
        rw [if_neg (by simp), if_neg (by simp only; omega), if_pos (by omega)]
        rfl
      rw [List.foldlM_cons, bind_of_ok step, segmentsFrom]
      by_cases isReached : Segment.reached limit (sizes ++ [stop - previous]).sum = true
      · refine ⟨stop, true, ?_⟩
        rw [isReached, read_stopped rfl,
          Segment.page_stop present (by rw [← total]; exact isReached),
          Segment.batchesOf_cons present, Segment.totalWidth_cons]
        simp [length, Nat.add_sub_cancel' (le_of_lt positive)]
      · rw [Bool.not_eq_true] at isReached
        rw [isReached, Segment.page_continue (by
          rw [← total, isReached]
          simp), ← total]
        rcases inductionHypothesis stop (sizes ++ [stop - previous]) laterRising
          (fun other listed => within other (List.mem_cons_of_mem _ listed)) (by omega) with
          ⟨last, stopped, run⟩
        refine ⟨last, stopped, ?_⟩
        rw [run, Segment.batchesOf_cons present, Segment.totalWidth_cons]
        simp [length, ← Nat.add_assoc, Nat.add_sub_cancel' (le_of_lt positive)]

section Store

variable {store : InMemoryStore}

theorem WellFormed.within (wellFormed : store.WellFormed) :
    ∀ stop ∈ store.batchEnds, stop ≤ store.appendOrder.length :=
  fun _ listed => wellFormed.le_length (List.mem_cons_of_mem _ listed)

theorem WellFormed.wide (wellFormed : store.WellFormed) :
    ∀ segment ∈ store.segments, 0 < segment.width ∧ segment.items.length = segment.width :=
  segmentsFrom_wide _ _ wellFormed.rising wellFormed.within

/-- Reading after some of the batches returns the next page of the others. -/
theorem readAfter_ends (wellFormed : store.WellFormed) {passed later : List Nat}
    (ends : store.batchEnds = passed ++ later) :
    ReadsAs (store.readAfter (passed.getLastD 0)) (passed.getLastD 0)
      (segmentsFrom store.appendOrder (passed.getLastD 0) later) := by
  intro limit positive
  have rising := wellFormed.rising
  rw [ends, ← List.cons_append] at rising
  have apart := (List.pairwise_append.mp rising).2.2
  have passedBelow : ∀ stop ∈ passed, stop ≤ passed.getLastD 0 := by
    intro stop listed
    rcases List.eq_nil_or_concat passed with none | ⟨front, final, isConcat⟩
    · rw [none] at listed
      cases listed
    · have passedRising := (List.pairwise_cons.mp (List.pairwise_append.mp rising).1).2
      rw [isConcat, List.concat_eq_append] at passedRising listed ⊢
      rw [List.getLastD_concat]
      rcases List.mem_append.mp listed with earlier | isFinal
      · exact le_of_lt ((List.pairwise_append.mp passedRising).2.2 stop earlier final (by simp))
      · rw [List.mem_singleton.mp isFinal]
  have lastListed : passed.getLastD 0 ∈ 0 :: passed := by
    rw [List.getLastD_eq_getLast?]
    cases shape : passed.getLast? with
    | none => simp
    | some final => exact List.mem_cons_of_mem _ (List.mem_of_getLast? shape)
  have laterRising : (passed.getLastD 0 :: later).Pairwise (· < ·) := by
    refine List.pairwise_cons.mpr ⟨?_, (List.pairwise_append.mp rising).2.1⟩
    intro stop listed
    exact apart _ lastListed stop listed
  have laterWithin : ∀ stop ∈ later, stop ≤ store.appendOrder.length := by
    intro stop listed
    apply wellFormed.within
    rw [ends]
    exact List.mem_append_right _ listed
  have inside : passed.getLastD 0 ≤ store.appendOrder.length := by
    apply wellFormed.le_length
    rw [Boundary, ends, ← List.cons_append]
    exact List.mem_append_left _ lastListed
  have run := read_page later (passed.getLastD 0) [] laterRising laterWithin le_rfl limit
  rcases run with ⟨last, stopped, run⟩
  rw [List.sum_nil, List.nil_append] at run
  have reading : store.batchEnds.foldlM (readStep (passed.getLastD 0) limit)
      ⟨0, [], passed.getLastD 0, false⟩ =
      .ok ⟨last, (Segment.batchesOf (Segment.page limit 0
          (segmentsFrom store.appendOrder (passed.getLastD 0) later))).map List.length,
        passed.getLastD 0 + Segment.totalWidth (Segment.page limit 0
          (segmentsFrom store.appendOrder (passed.getLastD 0) later)), stopped⟩ := by
    rw [ends, List.foldlM_append, bind_of_ok (read_before passed 0 passedBelow), run]
  rcases Segment.page_split (Segment.reached_zero positive)
    (segmentsFrom store.appendOrder (passed.getLastD 0) later) with ⟨left, pageSplit, _⟩
  have items := itemsOf_front later _ laterRising _ left pageSplit
  rcases StoreDelta.create_page (passed.getLastD 0) (Segment.page limit 0
    (segmentsFrom store.appendOrder (passed.getLastD 0) later)) with
    ⟨delta, created, cursor, ops, batches⟩
  refine ⟨delta, ?_, cursor, ops, batches⟩
  rw [readAfter, if_neg (by omega), if_neg positive, bind_of_ok reading]
  simp only
  rw [← items]
  exact created

/-- Reading after a front part of the batches returns the next page of what follows it. -/
theorem readAfter_page (wellFormed : store.WellFormed) (before after : List (Segment Op))
    (split : store.segments = before ++ after) :
    ReadsAs (store.readAfter (Segment.totalWidth before)) (Segment.totalWidth before) after := by
  rcases segmentsFrom_split _ _ wellFormed.rising before after split with
    ⟨passed, later, ends, width, rest⟩
  rw [Nat.zero_add] at width
  rw [width, rest]
  exact readAfter_ends wellFormed ends

/-- The batches after a position. -/
def segmentsAfter (store : InMemoryStore) (cursor : Nat) : List (Segment Op) :=
  segmentsFrom store.appendOrder cursor (store.batchEnds.filter fun stop => cursor < stop)

/-- A position between two batches has some batches before it and the others after it. -/
theorem Boundary.split (wellFormed : store.WellFormed) {cursor : Nat}
    (boundary : store.Boundary cursor) :
    ∃ passed later, store.batchEnds = passed ++ later ∧ passed.getLastD 0 = cursor ∧
      (store.batchEnds.filter fun stop => cursor < stop) = later := by
  have rising := wellFormed.rising
  have positive := (List.pairwise_cons.mp rising).1
  rcases List.mem_cons.mp boundary with isStart | isEnd
  · refine ⟨[], store.batchEnds, rfl, isStart.symm, ?_⟩
    rw [List.filter_eq_self]
    intro stop listed
    rw [isStart]
    simpa using positive stop listed
  · rcases List.append_of_mem isEnd with ⟨before, later, split⟩
    have ends := (List.pairwise_cons.mp rising).2
    rw [split] at ends
    rcases List.pairwise_append.mp ends with ⟨_, afterRising, apart⟩
    refine ⟨before ++ [cursor], later, by rw [split]; simp, by simp, ?_⟩
    rw [split, List.filter_append, List.filter_cons_of_neg (by simp)]
    have none : (before.filter fun stop => cursor < stop) = [] := by
      rw [List.filter_eq_nil_iff]
      intro stop listed
      have below := apart stop listed cursor List.mem_cons_self
      simpa using le_of_lt below
    have all : (later.filter fun stop => cursor < stop) = later := by
      rw [List.filter_eq_self]
      intro stop listed
      simpa using (List.pairwise_cons.mp afterRising).1 stop listed
    rw [none, all, List.nil_append]

theorem readAfter_after (wellFormed : store.WellFormed) {cursor : Nat}
    (boundary : store.Boundary cursor) :
    ReadsAs (store.readAfter cursor) cursor (store.segmentsAfter cursor) := by
  rcases boundary.split wellFormed with ⟨passed, later, ends, isCursor, isLater⟩
  have page := readAfter_ends wellFormed ends
  rw [isCursor] at page
  rw [segmentsAfter, isLater]
  exact page

/-- Every batch after a position is as wide as it is long. -/
theorem segmentsAfter_wide (wellFormed : store.WellFormed) (cursor : Nat) :
    ∀ segment ∈ store.segmentsAfter cursor,
      0 < segment.width ∧ segment.items.length = segment.width := by
  apply segmentsFrom_wide
  · apply List.pairwise_cons.mpr
    refine ⟨?_, (List.pairwise_cons.mp wellFormed.rising).2.filter _⟩
    intro stop listed
    simpa using (List.mem_filter.mp listed).2
  · intro stop listed
    exact wellFormed.within stop (List.mem_filter.mp listed).1

/-- A commit of new operations adds their batch to the segments. -/
theorem segments_commit (wellFormed : store.WellFormed) (oplog : OpLog) (added : List Op) :
    (store.commit oplog added).segments =
      store.segments ++ if added = [] then [] else [⟨added.length, added⟩] := by
  have general : ∀ (stops : List Nat) (previous : Nat),
      (∀ stop ∈ stops, stop ≤ store.appendOrder.length) →
      stops.getLastD previous = store.appendOrder.length →
      segmentsFrom (store.appendOrder ++ added) previous
          (stops ++ [(store.appendOrder ++ added).length]) =
        segmentsFrom store.appendOrder previous stops ++ [⟨added.length, added⟩] := by
    intro stops
    induction stops with
    | nil =>
        intro previous _ last
        rw [List.getLastD_nil] at last
        rw [List.nil_append, segmentsFrom, segmentsFrom, segmentsFrom, last, List.take_length,
          List.drop_left, List.length_append, Nat.add_sub_cancel_left]
        rfl
    | cons stop stops inductionHypothesis =>
        intro previous within last
        have inside := within stop List.mem_cons_self
        have lastStop : stops.getLastD stop = store.appendOrder.length := by
          rw [← last]
          cases stops <;> rfl
        rw [List.cons_append, segmentsFrom, segmentsFrom, List.take_append_of_le_length inside,
          inductionHypothesis stop
            (fun other listed => within other (List.mem_cons_of_mem _ listed)) lastStop]
        rfl
  by_cases none : added = []
  · rw [commit, if_pos none, if_pos none, List.append_nil]
    rfl
  · rw [commit, if_neg none, if_neg none]
    apply general _ _ wellFormed.within
    rw [← wellFormed.last]
    cases store.batchEnds with
    | nil => rfl
    | cons stop stops => simp [List.getLastD_eq_getLast?, List.getLast?_eq_some_getLast]

/-- The store after some calls, with the batches they have committed. -/
def after (calls : List (List Op)) : InMemoryStore × List (List Op) :=
  runCalls id appendMany calls (.empty, [])

/-- The segments of a store are the batches committed so far. -/
structure Keeps (state : InMemoryStore × List (List Op)) : Prop where
  wellFormed : state.1.WellFormed
  batches : Segment.batchesOf state.1.segments = state.2
  width : Segment.totalWidth state.1.segments = state.1.appendOrder.length

theorem Keeps.appendMany {committed : List (List Op)} (keeps : Keeps (store, committed))
    {ops : List Op} {store' : InMemoryStore} {results : List Bool}
    (run : store.appendMany ops = .ok (store', results)) :
    Keeps (store', committed ++ committedBatch ops results) := by
  unfold InMemoryStore.appendMany at run
  rcases bind_ok_iff.mp run with ⟨outcome, _, done⟩
  injection done with done
  injection done with isStore isResults
  rw [← isStore, ← isResults]
  have segments := segments_commit keeps.wellFormed outcome.1 (addedOps ops outcome.2)
  have batches := keeps.batches
  have width := keeps.width
  simp only at batches width
  refine ⟨commit_wellFormed keeps.wellFormed _ _, ?_, ?_⟩
  · change Segment.batchesOf (store.commit outcome.1 (addedOps ops outcome.2)).segments = _
    rw [segments, Segment.batchesOf_append, batches, committedBatch]
    split
    · rfl
    · rename_i present
      rw [Segment.batchesOf_cons present]
      rfl
  · change Segment.totalWidth (store.commit outcome.1 (addedOps ops outcome.2)).segments =
      (store.commit outcome.1 (addedOps ops outcome.2)).appendOrder.length
    rw [segments, Segment.totalWidth_append, width, commit]
    split
    · rfl
    · simp

theorem after_keeps (calls : List (List Op)) : Keeps (after calls) := by
  apply runCalls_invariant (fun _ => Keeps)
  · intro call _ store committed store' results run keeps
    exact keeps.appendMany run
  · intro _ _ _ keeps
    exact keeps
  · exact ⟨empty_wellFormed, rfl, rfl⟩

/-- Whatever calls made an in-memory store, reading it page by page returns what they have
committed. -/
theorem after_readsBack (calls : List (List Op)) :
    ReadsBack (after calls).1.readAfter (after calls).1.appendOrder.length (after calls).2 := by
  have keeps := after_keeps calls
  refine ⟨_, .refl _, ?_⟩
  rw [← keeps.width, ← keeps.batches]
  apply readsInPages_of_stream (fun segment listed => (keeps.wellFormed.wide segment listed).1)
  intro before after split
  exact readAfter_page keeps.wellFormed before after split

end Store

end InMemoryStore

end Statefuse
