import Mathlib

/-!
# Paged reading

A stream is a list of segments.  A segment has a width, by which a cursor moves past it, and
the items that were committed with it; a segment without items is passed over.  A page takes
whole segments until its items reach the limit.
-/

namespace Foundation

universe u

structure Segment (α : Type u) where
  width : Nat
  items : List α

namespace Segment

variable {α : Type u}

/-- A limit that some items have reached; without a limit there is none. -/
def reached (limit : Option Nat) (count : Nat) : Bool := limit.any fun limit => limit ≤ count

/-- The segments of the next page, after some items. -/
def page (limit : Option Nat) : Nat → List (Segment α) → List (Segment α)
  | _, [] => []
  | count, segment :: rest =>
      let total := count + segment.items.length
      if segment.items ≠ [] ∧ reached limit total then [segment]
      else segment :: page limit total rest

def totalWidth (segments : List (Segment α)) : Nat := (segments.map Segment.width).sum

def itemsOf (segments : List (Segment α)) : List α := segments.flatMap Segment.items

/-- The items of the segments that have any, segment by segment. -/
def batchesOf (segments : List (Segment α)) : List (List α) :=
  (segments.map Segment.items).filter fun items => !items.isEmpty

@[simp] theorem totalWidth_nil : totalWidth ([] : List (Segment α)) = 0 := rfl

@[simp] theorem totalWidth_cons (segment : Segment α) (rest : List (Segment α)) :
    totalWidth (segment :: rest) = segment.width + totalWidth rest := by
  simp [totalWidth]

@[simp] theorem totalWidth_append (first second : List (Segment α)) :
    totalWidth (first ++ second) = totalWidth first + totalWidth second := by
  simp [totalWidth]

@[simp] theorem itemsOf_nil : itemsOf ([] : List (Segment α)) = [] := rfl

@[simp] theorem itemsOf_cons (segment : Segment α) (rest : List (Segment α)) :
    itemsOf (segment :: rest) = segment.items ++ itemsOf rest := by
  simp [itemsOf]

@[simp] theorem itemsOf_append (first second : List (Segment α)) :
    itemsOf (first ++ second) = itemsOf first ++ itemsOf second := by
  simp [itemsOf]

@[simp] theorem batchesOf_nil : batchesOf ([] : List (Segment α)) = [] := rfl

theorem batchesOf_skip {segment : Segment α} (empty : segment.items = [])
    (rest : List (Segment α)) : batchesOf (segment :: rest) = batchesOf rest := by
  simp [batchesOf, empty]

theorem batchesOf_cons {segment : Segment α} (present : segment.items ≠ [])
    (rest : List (Segment α)) :
    batchesOf (segment :: rest) = segment.items :: batchesOf rest := by
  simp [batchesOf, present]

theorem batchesOf_append (first second : List (Segment α)) :
    batchesOf (first ++ second) = batchesOf first ++ batchesOf second := by
  simp [batchesOf]

theorem flatten_batchesOf (segments : List (Segment α)) :
    (batchesOf segments).flatten = itemsOf segments := by
  induction segments with
  | nil => rfl
  | cons segment rest inductionHypothesis =>
      by_cases empty : segment.items = []
      · rw [batchesOf_skip empty, itemsOf_cons, empty, List.nil_append, inductionHypothesis]
      · rw [batchesOf_cons empty, List.flatten_cons, itemsOf_cons, inductionHypothesis]

theorem batchesOf_ne_nil {segments : List (Segment α)} {batch : List α}
    (listed : batch ∈ batchesOf segments) : batch ≠ [] := by
  rw [batchesOf, List.mem_filter] at listed
  simpa using listed.2

theorem page_stop {limit : Option Nat} {count : Nat} {segment : Segment α}
    (present : segment.items ≠ []) (isReached : reached limit (count + segment.items.length) = true)
    (rest : List (Segment α)) : page limit count (segment :: rest) = [segment] := by
  rw [page]
  exact if_pos ⟨present, isReached⟩

theorem page_continue {limit : Option Nat} {count : Nat} {segment : Segment α}
    (continues : ¬(segment.items ≠ [] ∧ reached limit (count + segment.items.length) = true))
    (rest : List (Segment α)) :
    page limit count (segment :: rest) =
      segment :: page limit (count + segment.items.length) rest := by
  rw [page]
  exact if_neg continues

/-- Without a limit a page is all that is left. -/
theorem page_unlimited (count : Nat) (segments : List (Segment α)) :
    page none count segments = segments := by
  induction segments generalizing count with
  | nil => rfl
  | cons segment rest inductionHypothesis =>
      rw [page_continue (by simp [reached]), inductionHypothesis]

/-- A segment at which a page does not stop leaves the limit open. -/
theorem open_of_continue {limit : Option Nat} {count : Nat} {segment : Segment α}
    (isOpen : reached limit count = false)
    (continues : ¬(segment.items ≠ [] ∧ reached limit (count + segment.items.length) = true)) :
    reached limit (count + segment.items.length) = false := by
  by_cases empty : segment.items = []
  · rw [empty, List.length_nil, Nat.add_zero]
    exact isOpen
  · by_contra isReached
    rw [Bool.not_eq_false] at isReached
    exact continues ⟨empty, isReached⟩

/-- A page is a front part of the stream.  Either it is all of it, below the limit, or it
ends with the items that reach the limit. -/
theorem page_split {limit : Option Nat} {count : Nat} (isOpen : reached limit count = false)
    (segments : List (Segment α)) :
    ∃ rest, segments = page limit count segments ++ rest ∧
      (rest = [] ∧ reached limit (count + (itemsOf segments).length) = false ∨
        reached limit (count + (itemsOf (page limit count segments)).length) = true ∧
        ∃ before last, page limit count segments = before ++ [last] ∧ last.items ≠ []) := by
  induction segments generalizing count with
  | nil => exact ⟨[], rfl, Or.inl ⟨rfl, isOpen⟩⟩
  | cons segment rest inductionHypothesis =>
      by_cases stops : segment.items ≠ [] ∧
          reached limit (count + segment.items.length) = true
      · rw [page_stop stops.1 stops.2]
        refine ⟨rest, rfl, Or.inr ⟨?_, [], segment, rfl, stops.1⟩⟩
        simpa using stops.2
      · rw [page_continue stops]
        rcases inductionHypothesis (open_of_continue isOpen stops) with ⟨left, split, ends⟩
        refine ⟨left, by rw [List.cons_append, ← split], ?_⟩
        rw [itemsOf_cons, itemsOf_cons, List.length_append, List.length_append, ← Nat.add_assoc,
          ← Nat.add_assoc]
        rcases ends with all | ⟨isReached, before, last, shape, present⟩
        · exact Or.inl all
        · exact Or.inr ⟨isReached, segment :: before, last, by rw [shape]; rfl, present⟩

/-- Without its last batch a page does not reach the limit. -/
theorem page_shortest {limit : Option Nat} {count : Nat} (segments : List (Segment α))
    (isOpen : reached limit count = false) {fewer : List (List α)} {last : List α}
    (shape : batchesOf (page limit count segments) = fewer ++ [last]) :
    reached limit (count + fewer.flatten.length) = false := by
  induction segments generalizing count fewer with
  | nil => simp [page] at shape
  | cons segment rest inductionHypothesis =>
      by_cases stops : segment.items ≠ [] ∧
          reached limit (count + segment.items.length) = true
      · rw [page_stop stops.1 stops.2, batchesOf_cons stops.1, batchesOf_nil] at shape
        cases fewer with
        | nil => simpa using isOpen
        | cons head tail => simp at shape
      · rw [page_continue stops] at shape
        by_cases empty : segment.items = []
        · rw [batchesOf_skip empty, empty, List.length_nil, Nat.add_zero] at shape
          exact inductionHypothesis isOpen shape
        · rw [batchesOf_cons empty] at shape
          cases fewer with
          | nil => simpa using isOpen
          | cons head tail =>
              rw [List.cons_append, List.cons.injEq] at shape
              rw [List.flatten_cons, List.length_append, ← shape.1, ← Nat.add_assoc]
              exact inductionHypothesis (open_of_continue isOpen stops) shape.2

theorem reached_zero {limit : Option Nat} (positive : limit ≠ some 0) :
    reached limit 0 = false := by
  cases limit with
  | none => rfl
  | some bound =>
      have above : bound ≠ 0 := by
        intro zero
        rw [zero] at positive
        exact positive rfl
      simp [reached, above]

/-! ## Reading a page again -/

/-- Reading as many items as a page has gives the page without the skipped segments at its
end. -/
theorem page_again (limit : Option Nat) (count : Nat) (segments : List (Segment α))
    (present : itemsOf (page limit count segments) ≠ []) :
    ∃ skipped, page limit count segments =
        page (some (count + (itemsOf (page limit count segments)).length)) count segments ++
          skipped ∧
      (∀ segment ∈ skipped, segment.items = []) ∧
      ∃ before last,
        page (some (count + (itemsOf (page limit count segments)).length)) count segments =
          before ++ [last] ∧ last.items ≠ [] := by
  induction segments generalizing count with
  | nil => exact absurd rfl present
  | cons segment rest inductionHypothesis =>
      by_cases stops : segment.items ≠ [] ∧
          reached limit (count + segment.items.length) = true
      · have again : page (some (count + (itemsOf [segment]).length)) count (segment :: rest) =
            [segment] := page_stop stops.1 (by simp [reached]) rest
        rw [page_stop stops.1 stops.2, again]
        exact ⟨[], rfl, by simp, [], segment, rfl, stops.1⟩
      · rw [page_continue stops] at present ⊢
        rw [itemsOf_cons, List.length_append, ← Nat.add_assoc]
        by_cases more : itemsOf (page limit (count + segment.items.length) rest) = []
        · rw [more, List.length_nil, Nat.add_zero]
          rw [itemsOf_cons, more, List.append_nil] at present
          rw [page_stop present (by simp [reached])]
          refine ⟨page limit (count + segment.items.length) rest, rfl, ?_, [], segment, rfl,
            present⟩
          intro other listed
          rw [itemsOf, List.flatMap_eq_nil_iff] at more
          exact more other listed
        · have positive := List.length_pos_iff.mpr more
          have continues : ¬(segment.items ≠ [] ∧ reached
              (some (count + segment.items.length +
                (itemsOf (page limit (count + segment.items.length) rest)).length))
              (count + segment.items.length) = true) := by
            intro stopped
            have below := stopped.2
            simp only [reached, Option.any_some, decide_eq_true_eq] at below
            omega
          rw [page_continue continues]
          rcases inductionHypothesis (count + segment.items.length) more with
            ⟨skipped, split, empty, before, last, shape, ends⟩
          refine ⟨skipped, ?_, empty, segment :: before, last, ?_, ends⟩
          · rw [List.cons_append, ← split]
          · rw [shape, List.cons_append]

/-- The stream has as many items as the limit, or none of its segments is skipped after its
last items. -/
def EndsWithItems (limit : Option Nat) (segments : List (Segment α)) : Prop :=
  reached limit (itemsOf segments).length = true ∨
    ∀ last ∈ segments.getLast?, last.items ≠ []

theorem reached_mono {limit : Option Nat} {fewer more : Nat} (below : fewer ≤ more)
    (isReached : reached limit fewer = true) : reached limit more = true := by
  cases limit with
  | none => cases isReached
  | some bound =>
      simp only [reached, Option.any_some, decide_eq_true_eq] at isReached ⊢
      omega

theorem page_ends_iff {limit : Option Nat} (positive : limit ≠ some 0)
    (segments : List (Segment α)) :
    (∀ last ∈ (page limit 0 segments).getLast?, last.items ≠ []) ↔
      EndsWithItems limit segments := by
  rcases page_split (reached_zero positive) segments with ⟨rest, split, ends⟩
  rw [Nat.zero_add] at ends
  rcases ends with ⟨all, isOpen⟩ | ⟨isReached, before, last, shape, present⟩
  · rw [all, List.append_nil] at split
    rw [← split, EndsWithItems, isOpen]
    simp
  · constructor
    · intro _
      apply Or.inl
      rw [Nat.zero_add] at isReached
      refine reached_mono ?_ isReached
      have lengths := congrArg (fun segments => (itemsOf segments).length) split
      simp only [itemsOf_append, List.length_append] at lengths
      omega
    · intro _ other isLast
      rw [shape, List.getLast?_concat] at isLast
      injection isLast with isLast
      rw [← isLast]
      exact present

/-- A page has no items only when the stream has none. -/
theorem page_empty_iff {limit : Option Nat} (positive : limit ≠ some 0)
    (segments : List (Segment α)) :
    itemsOf (page limit 0 segments) = [] ↔ itemsOf segments = [] := by
  rcases page_split (reached_zero positive) segments with ⟨rest, split, ends⟩
  have items := congrArg itemsOf split
  rw [itemsOf_append] at items
  constructor
  · intro none
    rcases ends with ⟨all, _⟩ | ⟨_, before, last, shape, present⟩
    · rw [items, none, all]
      rfl
    · rw [shape, itemsOf_append, List.append_eq_nil_iff, itemsOf_cons,
        List.append_eq_nil_iff] at none
      exact absurd none.2.1 present
  · intro none
    rw [none, List.nil_eq, List.append_eq_nil_iff] at items
    exact items.1

theorem endsWithItems_of_present {segments : List (Segment α)}
    (present : ∀ segment ∈ segments, segment.items ≠ []) (limit : Option Nat) :
    EndsWithItems limit segments :=
  Or.inr fun last isLast => present last (List.mem_of_getLast? isLast)

/-- Reading again as many items as a page has ends at the same place exactly when the page
ends with items. -/
theorem totalWidth_again_iff {limit : Option Nat} (positive : limit ≠ some 0)
    {segments : List (Segment α)} (wide : ∀ segment ∈ segments, 0 < segment.width)
    (present : itemsOf (page limit 0 segments) ≠ []) :
    totalWidth (page (some (itemsOf (page limit 0 segments)).length) 0 segments) =
        totalWidth (page limit 0 segments) ↔ EndsWithItems limit segments := by
  rcases page_again limit 0 segments present with ⟨skipped, split, empty, before, last, shape, ends⟩
  rw [Nat.zero_add] at split shape
  rw [← page_ends_iff positive]
  rcases page_split (reached_zero positive) segments with ⟨rest, whole, _⟩
  cases skipped with
  | nil =>
      rw [List.append_nil] at split
      rw [← split]
      constructor
      · intro _ other isLast
        rw [split, shape, List.getLast?_concat] at isLast
        injection isLast with isLast
        rw [← isLast]
        exact ends
      · intro _
        rfl
  | cons segment others =>
      have wideSegment : 0 < segment.width := by
        apply wide
        rw [whole, split]
        simp
      constructor
      · intro same
        have widths := congrArg totalWidth split
        rw [totalWidth_append, totalWidth_cons] at widths
        omega
      · intro endsWithItems
        rcases List.eq_nil_or_concat (segment :: others) with none | ⟨front, final, isConcat⟩
        · cases none
        · have isLast : (page limit 0 segments).getLast? = some final := by
            rw [split, isConcat, List.concat_eq_append, ← List.append_assoc, List.getLast?_concat]
          have final_empty : final.items = [] := by
            apply empty
            rw [isConcat]
            simp
          exact absurd final_empty (endsWithItems final isLast)

section Map

variable {β : Type u} (f : List α → List β)

def mapItems (segment : Segment α) : Segment β := ⟨segment.width, f segment.items⟩

variable {f}

theorem totalWidth_mapItems (segments : List (Segment α)) :
    totalWidth (segments.map (mapItems f)) = totalWidth segments := by
  rw [totalWidth, List.map_map]
  rfl

/-- A change of the items that keeps their number keeps the pages. -/
theorem page_mapItems {segments : List (Segment α)}
    (same : ∀ segment ∈ segments, (f segment.items).length = segment.items.length)
    (limit : Option Nat) (count : Nat) :
    page limit count (segments.map (mapItems f)) =
      (page limit count segments).map (mapItems f) := by
  induction segments generalizing count with
  | nil => rfl
  | cons segment rest inductionHypothesis =>
      have sameHead := same segment List.mem_cons_self
      have others := inductionHypothesis
        (fun other listed => same other (List.mem_cons_of_mem _ listed))
      have samePresent : (mapItems f segment).items ≠ [] ↔ segment.items ≠ [] := by
        rw [← List.length_pos_iff, ← List.length_pos_iff, mapItems, sameHead]
      have sameLength : (mapItems f segment).items.length = segment.items.length := sameHead
      rw [List.map_cons]
      by_cases stops : segment.items ≠ [] ∧ reached limit (count + segment.items.length) = true
      · rw [page_stop stops.1 stops.2, page_stop (samePresent.mpr stops.1)
          (by rw [sameLength]; exact stops.2)]
        rfl
      · rw [page_continue stops, page_continue (by
          rw [samePresent, sameLength]
          exact stops), others, sameLength]
        rfl

theorem batchSizes_mapItems {segments : List (Segment α)}
    (same : ∀ segment ∈ segments, (f segment.items).length = segment.items.length) :
    (batchesOf (segments.map (mapItems f))).map List.length =
      (batchesOf segments).map List.length := by
  induction segments with
  | nil => rfl
  | cons segment rest inductionHypothesis =>
      have sameHead := same segment List.mem_cons_self
      have others := inductionHypothesis
        (fun other listed => same other (List.mem_cons_of_mem _ listed))
      rw [List.map_cons]
      by_cases empty : segment.items = []
      · have image : (mapItems f segment).items = [] := by
          rw [← List.length_eq_zero_iff, mapItems, sameHead, empty]
          rfl
        rw [batchesOf_skip empty, batchesOf_skip image, others]
      · have image : (mapItems f segment).items ≠ [] := by
          rw [← List.length_pos_iff, mapItems, sameHead]
          exact List.length_pos_iff.mpr empty
        rw [batchesOf_cons empty, batchesOf_cons image, List.map_cons, List.map_cons, others]
        exact congrArg (· :: _) sameHead

end Map

end Segment

end Foundation
