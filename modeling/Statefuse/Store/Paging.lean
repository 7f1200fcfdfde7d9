import Statefuse.Codec
import Statefuse.Foundation.Paging
import Statefuse.Store.InMemory

/-!
# Reading a store page by page

Whatever the cursors of a store are, a read after one of them returns the next page of the
stream behind it.  Reading page by page from the start then loses, repeats and splits nothing
(`readsInPages_of_stream`).
-/

namespace Statefuse

open Foundation

variable [Runtime]

/-- `StoreDelta.batches`: the operations cut into pieces of the given sizes. -/
def slices : List Nat → List Op → List (List Op)
  | [], _ => []
  | size :: sizes, ops => ops.take size :: slices sizes (ops.drop size)

def StoreDelta.batches (delta : StoreDelta) : List (List Op) := slices delta.batchSizes delta.ops

theorem slices_flatten (batches : List (List Op)) :
    slices (batches.map List.length) batches.flatten = batches := by
  induction batches with
  | nil => rfl
  | cons head tail inductionHypothesis =>
      rw [List.map_cons, List.flatten_cons, slices, List.take_left, List.drop_left,
        inductionHypothesis]

/-- A read that returns the next page of a stream. -/
structure StoreDelta.IsPage (delta : StoreDelta) (start : Nat) (limit : Option Nat)
    (segments : List (Segment Op)) : Prop where
  cursor : delta.cursor = start + Segment.totalWidth (Segment.page limit 0 segments)
  ops : delta.ops = Segment.itemsOf (Segment.page limit 0 segments)
  batches : delta.batches = Segment.batchesOf (Segment.page limit 0 segments)

theorem StoreDelta.create_page (start : Nat) (segments : List (Segment Op)) :
    ∃ delta, StoreDelta.create (start + Segment.totalWidth segments)
        (Segment.itemsOf segments) ((Segment.batchesOf segments).map List.length) = .ok delta ∧
      delta.cursor = start + Segment.totalWidth segments ∧
      delta.ops = Segment.itemsOf segments ∧ delta.batches = Segment.batchesOf segments := by
  have whole := Segment.flatten_batchesOf segments
  have sizes : (if (Segment.batchesOf segments).map List.length = [] then
      List.replicate (Segment.itemsOf segments).length 1
      else (Segment.batchesOf segments).map List.length) =
      (Segment.batchesOf segments).map List.length := by
    by_cases none : (Segment.batchesOf segments).map List.length = []
    · rw [if_pos none]
      rw [List.map_eq_nil_iff] at none
      rw [← whole, none]
      rfl
    · rw [if_neg none]
  have covered : (∀ size ∈ (Segment.batchesOf segments).map List.length, 1 ≤ size) ∧
      ((Segment.batchesOf segments).map List.length).sum =
        (Segment.itemsOf segments).length := by
    constructor
    · intro size listed
      rcases List.mem_map.mp listed with ⟨batch, isBatch, isSize⟩
      rw [← isSize]
      exact List.length_pos_iff.mpr (Segment.batchesOf_ne_nil isBatch)
    · rw [← whole, List.length_flatten]
  unfold StoreDelta.create
  simp only [sizes]
  refine ⟨_, dif_pos covered, rfl, rfl, ?_⟩
  rw [StoreDelta.batches]
  simp only
  rw [← whole, slices_flatten]

/-- Every read with an admissible limit returns the next page of the stream. -/
def ReadsAs (read : Option Nat → Result StoreDelta) (start : Nat)
    (segments : List (Segment Op)) : Prop :=
  ∀ limit, limit ≠ some 0 → ∃ delta, read limit = .ok delta ∧ delta.IsPage start limit segments

/-! ## Reading to the end -/

/-- One page of a reading that has some batches left. -/
structure IsNextPage (finish cursor limit : Nat) (remaining : List (List Op))
    (delta : StoreDelta) (rest : List (List Op)) : Prop where
  /-- The page consists of whole batches in their order. -/
  batches : remaining = delta.batches ++ rest
  covers : delta.batches.flatten = delta.ops
  advances : cursor < finish → cursor < delta.cursor
  within : cursor ≤ delta.cursor ∧ delta.cursor ≤ finish
  reaches : limit ≤ delta.ops.length ∨ delta.cursor = finish
  shortest : ∀ fewer last, delta.batches = fewer ++ [last] → fewer.flatten.length < limit
  ends : delta.cursor = finish → rest = []

/-- Reads with some limits, each from the cursor of the read before it. -/
inductive Pages (read : Nat → Option Nat → Result StoreDelta) (finish : Nat) :
    Nat → List (List Op) → List Nat → List StoreDelta → Prop where
  | done (cursor : Nat) (remaining : List (List Op)) : Pages read finish cursor remaining [] []
  | next {cursor limit : Nat} {remaining rest : List (List Op)} {delta : StoreDelta}
      {limits : List Nat} {deltas : List StoreDelta}
      (run : read cursor (some limit) = .ok delta)
      (page : IsNextPage finish cursor limit remaining delta rest)
      (later : Pages read finish delta.cursor rest limits deltas) :
      Pages read finish cursor remaining (limit :: limits) (delta :: deltas)

/-- Reading page by page from the start loses, repeats and splits nothing: the pages are the
committed operations from the first on, and all of them once there were enough reads. -/
def ReadsInPages (read : Nat → Option Nat → Result StoreDelta) (finish : Nat)
    (committed : List (List Op)) : Prop :=
  ∀ limits : List Nat, (∀ limit ∈ limits, 0 < limit) →
    ∃ deltas unread, Pages read finish 0 committed limits deltas ∧
      committed.flatten = deltas.flatMap (·.ops) ++ unread ∧
      (finish ≤ limits.length → unread = [])

section Stream

variable {read : Nat → Option Nat → Result StoreDelta} {segments : List (Segment Op)}

/-- The next page of a stream is a page of the reading. -/
theorem isNextPage_of_page {start limit : Nat} {delta : StoreDelta} (positive : 0 < limit)
    (wide : ∀ segment ∈ segments, 0 < segment.width)
    (isPage : delta.IsPage start (some limit) segments) :
    ∃ rest, segments = Segment.page (some limit) 0 segments ++ rest ∧
      IsNextPage (start + Segment.totalWidth segments) start limit
        (Segment.batchesOf segments) delta (Segment.batchesOf rest) := by
  have isOpen : Segment.reached (some limit) 0 = false :=
    Segment.reached_zero (by simpa using Nat.ne_of_gt positive)
  rcases Segment.page_split isOpen segments with ⟨rest, split, ends⟩
  have widths := congrArg Segment.totalWidth split
  rw [Segment.totalWidth_append] at widths
  have nonempty : segments ≠ [] → Segment.page (some limit) 0 segments ≠ [] := by
    intro present
    cases segments with
    | nil => exact absurd rfl present
    | cons segment others =>
        rw [Segment.page]
        split <;> simp
  have advances : segments ≠ [] →
      0 < Segment.totalWidth (Segment.page (some limit) 0 segments) := by
    intro present
    have some := nonempty present
    cases shape : Segment.page (Option.some limit) 0 segments with
    | nil => exact absurd shape some
    | cons segment others =>
        have inside : segment ∈ segments := by
          rw [split, shape]
          simp
        have positiveWidth := wide segment inside
        rw [Segment.totalWidth_cons]
        omega
  have restEmpty : Segment.totalWidth rest = 0 → rest = [] := by
    intro zero
    cases rest with
    | nil => rfl
    | cons segment others =>
        have positiveWidth := wide segment (by rw [split]; simp)
        rw [Segment.totalWidth_cons] at zero
        omega
  refine ⟨rest, split, ?_⟩
  exact {
    batches := by
      rw [isPage.batches, ← Segment.batchesOf_append, ← split]
    covers := by rw [isPage.batches, isPage.ops, Segment.flatten_batchesOf]
    advances := by
      intro before
      have present : segments ≠ [] := by
        intro none
        rw [none, Segment.totalWidth_nil] at before
        omega
      have positiveWidth := advances present
      rw [isPage.cursor]
      omega
    within := by
      rw [isPage.cursor]
      omega
    reaches := by
      rw [isPage.cursor, isPage.ops]
      rcases ends with ⟨all, _⟩ | ⟨isReached, _⟩
      · right
        rw [all, Segment.totalWidth_nil] at widths
        omega
      · left
        simpa [Segment.reached] using isReached
    shortest := by
      intro fewer last shape
      rw [isPage.batches] at shape
      have short := Segment.page_shortest segments isOpen shape
      simpa [Segment.reached] using short
    ends := by
      intro atEnd
      rw [isPage.cursor] at atEnd
      rw [restEmpty (by omega)]
      rfl }

/-- A store whose reads return the pages of its stream is read page by page. -/
theorem readsInPages_of_stream (wide : ∀ segment ∈ segments, 0 < segment.width)
    (streams : ∀ before after, segments = before ++ after →
      ReadsAs (read (Segment.totalWidth before)) (Segment.totalWidth before) after) :
    ReadsInPages read (Segment.totalWidth segments) (Segment.batchesOf segments) := by
  have general : ∀ (limits : List Nat) (before after : List (Segment Op)),
      segments = before ++ after → (∀ limit ∈ limits, 0 < limit) →
      ∃ deltas unread, Pages read (Segment.totalWidth segments) (Segment.totalWidth before)
          (Segment.batchesOf after) limits deltas ∧
        (Segment.batchesOf after).flatten = deltas.flatMap (·.ops) ++ unread ∧
        (Segment.totalWidth after ≤ limits.length → unread = []) := by
    intro limits
    induction limits with
    | nil =>
        intro before after split _
        refine ⟨[], (Segment.batchesOf after).flatten, .done _ _, rfl, ?_⟩
        intro short
        cases after with
        | nil => rfl
        | cons segment others =>
            have positiveWidth := wide segment (by rw [split]; simp)
            rw [Segment.totalWidth_cons, List.length_nil] at short
            omega
    | cons limit limits inductionHypothesis =>
        intro before after split positive
        have positiveLimit := positive limit List.mem_cons_self
        have wideAfter : ∀ segment ∈ after, 0 < segment.width := by
          intro segment listed
          apply wide
          rw [split]
          exact List.mem_append_right _ listed
        rcases streams before after split (some limit)
          (by simpa using Nat.ne_of_gt positiveLimit) with ⟨delta, run, isPage⟩
        rcases isNextPage_of_page positiveLimit wideAfter isPage with ⟨rest, afterSplit, next⟩
        have nextSplit : segments =
            (before ++ Segment.page (some limit) 0 after) ++ rest := by
          rw [List.append_assoc, ← afterSplit, split]
        have finish : Segment.totalWidth before + Segment.totalWidth after =
            Segment.totalWidth segments := by
          rw [split, Segment.totalWidth_append]
        rcases inductionHypothesis _ rest nextSplit
          (fun limit listed => positive limit (List.mem_cons_of_mem _ listed)) with
          ⟨deltas, unread, later, flattened, exhausted⟩
        rw [Segment.totalWidth_append, ← isPage.cursor] at later
        rw [finish] at next
        refine ⟨delta :: deltas, unread, .next run next later, ?_, ?_⟩
        · rw [next.batches, List.flatten_append, next.covers, flattened, List.flatMap_cons,
            List.append_assoc]
        · intro enough
          apply exhausted
          have widths := congrArg Segment.totalWidth afterSplit
          rw [Segment.totalWidth_append] at widths
          have advanced := next.advances
          have cursor := isPage.cursor
          rw [List.length_cons] at enough
          omega
  intro limits positive
  rcases general limits [] segments rfl positive with ⟨deltas, unread, pages, flattened, exhausted⟩
  exact ⟨deltas, unread, pages, flattened, exhausted⟩

end Stream

/-- The operations whose results say that they were added. -/
def addedOps (ops : List Op) (results : List Bool) : List Op :=
  ((ops.zip results).filter Prod.snd).map Prod.fst

theorem addedOps_concat {done : List Op} {flags : List Bool} (counted : flags.length = done.length)
    (op : Op) (flag : Bool) :
    addedOps (done ++ [op]) (flags ++ [flag]) =
      addedOps done flags ++ if flag then [op] else [] := by
  simp only [addedOps, List.zip_append counted.symm, List.filter_append, List.map_append]
  cases flag <;> simp

/-- The batch that a call has committed; without new operations there is none. -/
def committedBatch (ops : List Op) (results : List Bool) : List (List Op) :=
  if addedOps ops results = [] then [] else [addedOps ops results]

section Calls

variable {Store Call : Type} (opsOf : Call → List Op)
  (appendMany : Store → Call → Result (Store × List Bool))

/-- One call, on the store and the batches committed so far.  A call that raises leaves the
store as it is. -/
def callStep (state : Store × List (List Op)) (call : Call) : Store × List (List Op) :=
  match appendMany state.1 call with
  | .ok (store, results) => (store, state.2 ++ committedBatch (opsOf call) results)
  | .error _ => state

def runCalls (calls : List Call) (start : Store × List (List Op)) : Store × List (List Op) :=
  calls.foldl (callStep opsOf appendMany) start

variable {opsOf appendMany}

/-- What every call preserves, whatever calls follow, holds after all of them. -/
theorem runCalls_invariant (invariant : List Call → Store × List (List Op) → Prop)
    (step : ∀ call later store committed store' results,
      appendMany store call = .ok (store', results) →
      invariant (call :: later) (store, committed) →
      invariant later (store', committed ++ committedBatch (opsOf call) results))
    (weaken : ∀ call later state, invariant (call :: later) state → invariant later state)
    (calls : List Call) (start : Store × List (List Op)) (holds : invariant calls start) :
    invariant [] (runCalls opsOf appendMany calls start) := by
  induction calls generalizing start with
  | nil => exact holds
  | cons call later inductionHypothesis =>
      apply inductionHypothesis
      rcases start with ⟨store, committed⟩
      unfold callStep
      cases run : appendMany store call with
      | error raised => exact weaken call later _ holds
      | ok outcome =>
          rcases outcome with ⟨store', results⟩
          exact step call later store committed store' results run holds

end Calls

/-- The batches that are read back are equal to the committed ones. -/
def Shows (shown committed : List (List Op)) : Prop :=
  List.Forall₂ (List.Forall₂ fun first second => pyEq first second = true) shown committed

theorem Shows.refl (committed : List (List Op)) : Shows committed committed := by
  apply List.forall₂_same.mpr
  intro batch _
  apply List.forall₂_same.mpr
  intro op _
  exact pyEq_refl op

theorem Shows.append {shown committed moreShown moreCommitted : List (List Op)}
    (first : Shows shown committed) (second : Shows moreShown moreCommitted) :
    Shows (shown ++ moreShown) (committed ++ moreCommitted) :=
  List.rel_append first second

/-- What is read back from a text is shown as the operation that was written. -/
theorem shows_decoded (batches : List (List Op)) :
    Shows (batches.map (·.map Op.decoded)) batches := by
  rw [Shows, List.forall₂_map_left_iff]
  apply List.forall₂_same.mpr
  intro batch _
  rw [List.forall₂_map_left_iff]
  apply List.forall₂_same.mpr
  intro op _
  exact op.decoded_equal

/-- The pages of a store, read from the start, are the committed batches. -/
def ReadsBack (read : Nat → Option Nat → Result StoreDelta) (finish : Nat)
    (committed : List (List Op)) : Prop :=
  ∃ shown, Shows shown committed ∧ ReadsInPages read finish shown

end Statefuse
