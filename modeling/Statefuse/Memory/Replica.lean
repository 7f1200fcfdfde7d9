import Statefuse.Reference
import Statefuse.Store.InMemoryPages
import Statefuse.Store.Jsonl
import Statefuse.Store.Sqlite

/-!
# Describing and exporting a stream

A replica first describes the next page of its stream by the ids and digests of its
operations, and then exports those of them that the peer asks for.  The export reads the
page again, with the number of its operations as the limit.  It finds the same page exactly
when no skipped lines stand at the end of the page (`isQuiet_iff`).
-/

namespace Statefuse

open Foundation

/-- Sizes that cover some operations. -/
abbrev Covering (sizes : List Nat) (count : Nat) : Prop :=
  (∀ size ∈ sizes, 1 ≤ size) ∧ sizes.sum = count

/-- Without sizes everything is one batch. -/
def sizesOr (sizes : List Nat) (count : Nat) : List Nat :=
  if sizes = [] ∧ count ≠ 0 then [count] else sizes

structure ReplicaManifest where
  senderReplicaId : String
  cursorBefore : Nat
  cursorAfter : Nat
  entries : List (String × String)
  batchSizes : List Nat
  covered : Covering batchSizes entries.length
  senderPresent : senderReplicaId ≠ ""
  ordered : cursorBefore ≤ cursorAfter
  entriesPresent : ∀ entry ∈ entries, entry.1 ≠ "" ∧ entry.2 ≠ ""

def ReplicaManifest.create (senderReplicaId : String) (cursorBefore cursorAfter : Nat)
    (entries : List (String × String)) (batchSizes : List Nat) : Result ReplicaManifest :=
  if covered : Covering (sizesOr batchSizes entries.length) entries.length then
    if senderPresent : senderReplicaId ≠ "" then
      if ordered : cursorBefore ≤ cursorAfter then
        if entriesPresent : ∀ entry ∈ entries, entry.1 ≠ "" ∧ entry.2 ≠ "" then
          .ok ⟨senderReplicaId, cursorBefore, cursorAfter, entries, _, covered, senderPresent,
            ordered, entriesPresent⟩
        else valueError "Replica manifest entries require operation IDs and digests."
      else valueError "ReplicaManifest cursors must form a non-negative range."
    else valueError "ReplicaManifest.sender_replica_id is required."
  else valueError "Replica batch sizes must cover every operation."

section Theory

variable [Runtime]

structure ReplicaDelta where
  senderReplicaId : String
  cursorBefore : Nat
  cursorAfter : Nat
  ops : List Op
  batchSizes : List Nat
  covered : Covering batchSizes ops.length
  senderPresent : senderReplicaId ≠ ""
  ordered : cursorBefore ≤ cursorAfter
  wide : ¬(cursorBefore = cursorAfter ∧ ops ≠ [])

namespace ReplicaDelta

def create (senderReplicaId : String) (cursorBefore cursorAfter : Nat) (ops : List Op)
    (batchSizes : List Nat) : Result ReplicaDelta :=
  if covered : Covering (sizesOr batchSizes ops.length) ops.length then
    if senderPresent : senderReplicaId ≠ "" then
      if ordered : cursorBefore ≤ cursorAfter then
        if zeroWidth : cursorBefore = cursorAfter ∧ ops ≠ [] then
          valueError "A zero-width replica delta cannot contain operations."
        else .ok ⟨senderReplicaId, cursorBefore, cursorAfter, ops, _, covered, senderPresent,
          ordered, zeroWidth⟩
      else valueError "ReplicaDelta cursors must form a non-negative range."
    else valueError "ReplicaDelta.sender_replica_id is required."
  else valueError "Replica batch sizes must cover every operation."

def batches (delta : ReplicaDelta) : List (List Op) := slices delta.batchSizes delta.ops

end ReplicaDelta

section Calls

variable (replicaId : String) (read : Nat → Option Nat → Result StoreDelta)

/-- The id of an operation with the digest of its text. -/
def entryOf (op : Op) : String × String := (op.opId, sha256Hexdigest op.toJson.toByteArray)

def readReplicaStoreDelta (afterCursor : Nat) (maxOps : Option Nat) : Result StoreDelta :=
  match maxOps with
  | none => read afterCursor none
  | some limit =>
      if limit < 1 then valueError "Replica delta max_ops must be a positive integer."
      else
        match read afterCursor (some limit) with
        | .error (.typeError _) => .error (.typeError
            "Bounded replica delta export requires a store with limited reads.")
        | outcome => outcome

def exportReplicaManifest (afterCursor : Nat) (maxOps : Option Nat) : Result ReplicaManifest := do
  let delta ← readReplicaStoreDelta read afterCursor maxOps
  ReplicaManifest.create replicaId afterCursor delta.cursor (delta.ops.map entryOf)
    delta.batchSizes

/-- The requested operations of each batch that has some. -/
def requested (opIds : List String) (batches : List (List Op)) : List (List Op) :=
  (batches.map fun batch => batch.filter fun op => op.opId ∈ opIds).filter
    fun batch => !batch.isEmpty

def exportManifestDelta (manifest : ReplicaManifest) (opIds : List String) :
    Result ReplicaDelta :=
  if manifest.senderReplicaId ≠ replicaId then
    valueError "Replica manifest sender does not match this replica."
  else if manifest.entries = [] then
    ReplicaDelta.create replicaId manifest.cursorBefore manifest.cursorAfter [] []
  else do
    let delta ← readReplicaStoreDelta read manifest.cursorBefore (some manifest.entries.length)
    if delta.cursor ≠ manifest.cursorAfter ∨ delta.ops.map entryOf ≠ manifest.entries then
      valueError "Replica stream changed while exporting a manifest payload."
    else
      let selected := requested opIds delta.batches
      ReplicaDelta.create replicaId manifest.cursorBefore manifest.cursorAfter selected.flatten
        (selected.map List.length)

/-- The page after a cursor can be described, and whatever is then asked of it is exported:
the requested operations in their order and in their batches, over the range of the
description. -/
def IsQuiet (cursor : Nat) (maxOps : Option Nat) : Prop :=
  ∃ page manifest, readReplicaStoreDelta read cursor maxOps = .ok page ∧
    exportReplicaManifest replicaId read cursor maxOps = .ok manifest ∧
    manifest.entries = page.ops.map entryOf ∧
    ∀ opIds, (∀ opId ∈ opIds, opId ∈ manifest.entries.map Prod.fst) →
      ∃ delta, exportManifestDelta replicaId read manifest opIds = .ok delta ∧
        delta.cursorBefore = manifest.cursorBefore ∧ delta.cursorAfter = manifest.cursorAfter ∧
        delta.ops = page.ops.filter (fun op => op.opId ∈ opIds) ∧
        delta.batches = requested opIds page.batches

end Calls

/-! ## What the checks of the records say -/

omit [Runtime] in
theorem sizesOr_lengths {α : Type} {batches : List (List α)}
    (present : ∀ batch ∈ batches, batch ≠ []) :
    sizesOr (batches.map List.length) batches.flatten.length = batches.map List.length ∧
      Covering (batches.map List.length) batches.flatten.length := by
  constructor
  · apply if_neg
    intro both
    apply both.2
    rw [List.map_eq_nil_iff.mp both.1]
    rfl
  · refine ⟨?_, by rw [List.length_flatten]⟩
    intro size listed
    rcases List.mem_map.mp listed with ⟨batch, isBatch, isSize⟩
    rw [← isSize]
    exact List.length_pos_iff.mpr (present batch isBatch)

theorem requested_ne_nil (opIds : List String) (batches : List (List Op)) :
    ∀ batch ∈ requested opIds batches, batch ≠ [] := by
  intro batch listed
  simpa using (List.mem_filter.mp listed).2

/-- The requested operations, batch by batch, are the requested operations. -/
theorem requested_flatten (opIds : List String) (batches : List (List Op)) :
    (requested opIds batches).flatten = batches.flatten.filter fun op => op.opId ∈ opIds := by
  induction batches with
  | nil => rfl
  | cons batch batches inductionHypothesis =>
      rw [List.flatten_cons, List.filter_append, ← inductionHypothesis, requested, requested,
        List.map_cons]
      by_cases none : (batch.filter fun op => op.opId ∈ opIds) = []
      · rw [List.filter_cons_of_neg (by simp [none]), none, List.nil_append]
      · rw [List.filter_cons_of_pos (by simpa using none), List.flatten_cons]

section Stream

variable {replicaId : String} {read : Nat → Option Nat → Result StoreDelta}
  {segments : List (Segment Op)} {cursor : Nat} {maxOps : Option Nat}

/-- The read of a replica is the read of its store. -/
theorem readReplica_page (streams : ReadsAs (read cursor) cursor segments)
    (positive : maxOps ≠ some 0) :
    ∃ page, readReplicaStoreDelta read cursor maxOps = .ok page ∧
      page.IsPage cursor maxOps segments := by
  rcases streams maxOps positive with ⟨page, run, isPage⟩
  refine ⟨page, ?_, isPage⟩
  cases maxOps with
  | none => exact run
  | some limit =>
      have above : ¬limit < 1 := by
        intro below
        apply positive
        rw [Nat.lt_one_iff.mp below]
      simp only [readReplicaStoreDelta, if_neg above, run]

/-- A page can be described unless the replica or one of its operations has no name. -/
theorem exportReplicaManifest_iff (digests : ∀ payload, Runtime.sha256 payload ≠ "")
    {page : StoreDelta} (run : readReplicaStoreDelta read cursor maxOps = .ok page)
    (isPage : page.IsPage cursor maxOps segments) (manifest : ReplicaManifest) :
    exportReplicaManifest replicaId read cursor maxOps = .ok manifest ↔
      (replicaId ≠ "" ∧ ∀ op ∈ page.ops, op.opId ≠ "") ∧
        manifest.senderReplicaId = replicaId ∧ manifest.cursorBefore = cursor ∧
        manifest.cursorAfter = page.cursor ∧ manifest.entries = page.ops.map entryOf ∧
        manifest.batchSizes = page.batchSizes := by
  have ordered : cursor ≤ page.cursor := by
    rw [isPage.cursor]
    exact Nat.le_add_right _ _
  have length : (page.ops.map entryOf).length = page.ops.length := List.length_map _
  have sizes : sizesOr page.batchSizes (page.ops.map entryOf).length = page.batchSizes := by
    apply if_neg
    intro both
    apply both.2
    rw [length, ← page.covered.2, both.1]
    rfl
  have covered : Covering (sizesOr page.batchSizes (page.ops.map entryOf).length)
      (page.ops.map entryOf).length := by
    rw [sizes, length]
    exact page.covered
  have named : (∀ entry ∈ page.ops.map entryOf, entry.1 ≠ "" ∧ entry.2 ≠ "") ↔
      ∀ op ∈ page.ops, op.opId ≠ "" := by
    constructor
    · intro each op listed
      exact (each (entryOf op) (List.mem_map_of_mem listed)).1
    · intro each entry listed
      rcases List.mem_map.mp listed with ⟨op, inPage, isEntry⟩
      rw [← isEntry]
      exact ⟨each op inPage, digests _⟩
  rw [exportReplicaManifest, bind_of_ok run, ReplicaManifest.create, dif_pos covered]
  by_cases senderPresent : replicaId ≠ ""
  · rw [dif_pos senderPresent, dif_pos ordered]
    by_cases entriesPresent : ∀ entry ∈ page.ops.map entryOf, entry.1 ≠ "" ∧ entry.2 ≠ ""
    · rw [dif_pos entriesPresent]
      constructor
      · intro created
        injection created with created
        rw [← created]
        exact ⟨⟨senderPresent, named.mp entriesPresent⟩, rfl, rfl, rfl, rfl, sizes⟩
      · intro described
        rcases described with ⟨_, isSender, isBefore, isAfter, isEntries, isSizes⟩
        rcases manifest with ⟨sender, before, after, entries, batchSizes⟩
        simp only at isSender isBefore isAfter isEntries isSizes
        subst isSender isBefore isAfter isEntries isSizes
        simp only [sizes]
    · rw [dif_neg entriesPresent]
      constructor
      · intro created
        cases created
      · intro described
        exact absurd (named.mpr described.1.2) entriesPresent
  · rw [dif_neg senderPresent]
    constructor
    · intro created
      cases created
    · intro described
      exact absurd described.1.1 senderPresent

/-- Operations in batches can be sent over a range that is not empty. -/
theorem ReplicaDelta.create_batches (senderPresent : replicaId ≠ "") {before after : Nat}
    (ordered : before ≤ after) {batches : List (List Op)}
    (present : ∀ batch ∈ batches, batch ≠ []) (wide : batches ≠ [] → before < after) :
    ∃ delta, ReplicaDelta.create replicaId before after batches.flatten
        (batches.map List.length) = .ok delta ∧ delta.cursorBefore = before ∧
      delta.cursorAfter = after ∧ delta.ops = batches.flatten ∧ delta.batches = batches := by
  rcases sizesOr_lengths present with ⟨sizes, covering⟩
  have covered : Covering (sizesOr (batches.map List.length) batches.flatten.length)
      batches.flatten.length := by
    rw [sizes]
    exact covering
  have zeroWidth : ¬(before = after ∧ batches.flatten ≠ []) := by
    intro both
    have some : batches ≠ [] := by
      intro none
      apply both.2
      rw [none]
      rfl
    have below := wide some
    omega
  rw [create, dif_pos covered, dif_pos senderPresent, dif_pos ordered, dif_neg zeroWidth]
  refine ⟨_, rfl, rfl, rfl, rfl, ?_⟩
  rw [ReplicaDelta.batches]
  simp only [sizes, slices_flatten]

/-- A page without operations is exported without another read. -/
theorem exportManifestDelta_empty {manifest : ReplicaManifest}
    (sender : manifest.senderReplicaId = replicaId) (none : manifest.entries = [])
    (opIds : List String) :
    ∃ delta, exportManifestDelta replicaId read manifest opIds = .ok delta ∧
      delta.cursorBefore = manifest.cursorBefore ∧ delta.cursorAfter = manifest.cursorAfter ∧
      delta.ops = [] ∧ delta.batches = [] := by
  rw [exportManifestDelta, if_neg (by rw [sender]; simp), if_pos none]
  have senderPresent := manifest.senderPresent
  rw [sender] at senderPresent
  have nothing : ∀ batch ∈ ([] : List (List Op)), batch ≠ [] := by simp
  exact ReplicaDelta.create_batches senderPresent manifest.ordered nothing (by simp)

/-- A page with operations is exported exactly when reading as many operations again ends at
the same place. -/
theorem exportManifestDelta_iff (streams : ReadsAs (read cursor) cursor segments)
    (positive : maxOps ≠ some 0) (wide : ∀ segment ∈ segments, 0 < segment.width)
    {page : StoreDelta} (isPage : page.IsPage cursor maxOps segments) (some : page.ops ≠ [])
    {manifest : ReplicaManifest} (sender : manifest.senderReplicaId = replicaId)
    (before : manifest.cursorBefore = cursor) (after : manifest.cursorAfter = page.cursor)
    (entries : manifest.entries = page.ops.map entryOf) (opIds : List String) :
    (∃ delta, exportManifestDelta replicaId read manifest opIds = .ok delta ∧
        delta.cursorBefore = manifest.cursorBefore ∧ delta.cursorAfter = manifest.cursorAfter ∧
        delta.ops = page.ops.filter (fun op => op.opId ∈ opIds) ∧
        delta.batches = requested opIds page.batches) ↔
      Segment.EndsWithItems maxOps segments := by
  have present : Segment.itemsOf (Segment.page maxOps 0 segments) ≠ [] := by
    rw [← isPage.ops]
    exact some
  have length : manifest.entries.length =
      (Segment.itemsOf (Segment.page maxOps 0 segments)).length := by
    rw [entries, List.length_map, isPage.ops]
  have positiveLength : (Option.some manifest.entries.length) ≠ Option.some 0 := by
    intro zero
    injection zero with zero
    rw [length] at zero
    exact present (List.length_eq_zero_iff.mp zero)
  have described : manifest.entries ≠ [] := by
    intro none
    apply positiveLength
    rw [none]
    rfl
  rcases readReplica_page streams positiveLength with ⟨again, run, isAgain⟩
  rcases Segment.page_again maxOps 0 segments present with ⟨skipped, split, empty, _⟩
  rw [Nat.zero_add, ← length] at split
  have nothing : Segment.itemsOf skipped = [] := by
    rw [Segment.itemsOf, List.flatMap_eq_nil_iff]
    exact empty
  have noBatch : Segment.batchesOf skipped = [] := by
    rw [Segment.batchesOf, List.filter_eq_nil_iff]
    intro batch listed
    rcases List.mem_map.mp listed with ⟨segment, isSkipped, isBatch⟩
    rw [← isBatch, empty segment isSkipped]
    simp
  have sameOps : again.ops = page.ops := by
    rw [isAgain.ops, isPage.ops, split, Segment.itemsOf_append, nothing, List.append_nil]
  have sameBatches : again.batches = page.batches := by
    rw [isAgain.batches, isPage.batches, split, Segment.batchesOf_append, noBatch,
      List.append_nil]
  have sameCursor : again.cursor = page.cursor ↔ Segment.EndsWithItems maxOps segments := by
    rw [isAgain.cursor, isPage.cursor, Nat.add_left_cancel_iff, length]
    exact Segment.totalWidth_again_iff positive wide present
  have sameEntries : again.ops.map entryOf = manifest.entries := by
    rw [sameOps, entries]
  rw [exportManifestDelta, if_neg (by rw [sender]; simp), if_neg described, before,
    bind_of_ok run, after]
  by_cases ends : again.cursor = page.cursor
  · have stays : ¬(again.cursor ≠ page.cursor ∨ again.ops.map entryOf ≠ manifest.entries) := by
      rw [sameEntries, ends]
      simp
    have senderPresent := manifest.senderPresent
    rw [sender] at senderPresent
    have below : cursor < page.cursor := by
      rw [isPage.cursor]
      rcases Segment.page_split (Segment.reached_zero positive) segments with ⟨rest, whole, _⟩
      cases shape : Segment.page maxOps 0 segments with
      | nil =>
          rw [shape] at present
          exact absurd rfl present
      | cons segment others =>
          have positiveWidth := wide segment (by rw [whole, shape]; simp)
          rw [Segment.totalWidth_cons]
          omega
    have batches : page.batches.flatten = page.ops := by
      rw [isPage.batches, isPage.ops, Segment.flatten_batchesOf]
    rw [if_neg stays, sameBatches]
    constructor
    · intro _
      exact sameCursor.mp ends
    · intro _
      rcases ReplicaDelta.create_batches senderPresent (le_of_lt below)
        (requested_ne_nil opIds page.batches) (fun _ => below) with
        ⟨delta, created, isBefore, isAfter, ops, isBatches⟩
      refine ⟨delta, created, isBefore, isAfter, ?_, isBatches⟩
      rw [ops, requested_flatten, batches]
  · rw [if_pos (Or.inl ends)]
    constructor
    · intro exported
      rcases exported with ⟨delta, failed, _⟩
      cases failed
    · intro endsWithItems
      exact absurd (sameCursor.mpr endsWithItems) ends

/-- The page after a cursor is exported as it was described exactly when the replica and the
operations of the page have names and no skipped segment ends the page. -/
theorem isQuiet_iff (digests : ∀ payload, Runtime.sha256 payload ≠ "")
    (streams : ReadsAs (read cursor) cursor segments) (positive : maxOps ≠ some 0)
    (wide : ∀ segment ∈ segments, 0 < segment.width) :
    IsQuiet replicaId read cursor maxOps ↔
      (replicaId ≠ "" ∧
        ∀ op ∈ Segment.itemsOf (Segment.page maxOps 0 segments), op.opId ≠ "") ∧
      (Segment.itemsOf (Segment.page maxOps 0 segments) = [] ∨
        Segment.EndsWithItems maxOps segments) := by
  rcases readReplica_page streams positive with ⟨page, run, isPage⟩
  rw [← isPage.ops]
  constructor
  · intro quiet
    rcases quiet with ⟨other, manifest, otherRun, exported, entries, answers⟩
    rw [run] at otherRun
    injection otherRun with isOther
    subst isOther
    rcases (exportReplicaManifest_iff digests run isPage manifest).mp exported with
      ⟨named, sender, before, after, _, _⟩
    refine ⟨named, ?_⟩
    by_cases none : page.ops = []
    · exact Or.inl none
    · apply Or.inr
      apply (exportManifestDelta_iff streams positive wide isPage none sender before after entries
        []).mp
      exact answers [] (by simp)
  · intro condition
    rcases condition with ⟨named, ends⟩
    have ordered : cursor ≤ page.cursor := by
      rw [isPage.cursor]
      exact Nat.le_add_right _ _
    have created : ∃ manifest : ReplicaManifest, manifest.senderReplicaId = replicaId ∧
        manifest.cursorBefore = cursor ∧ manifest.cursorAfter = page.cursor ∧
        manifest.entries = page.ops.map entryOf ∧ manifest.batchSizes = page.batchSizes := by
      refine ⟨⟨replicaId, cursor, page.cursor, page.ops.map entryOf, page.batchSizes, ?_, named.1,
        ordered, ?_⟩, rfl, rfl, rfl, rfl, rfl⟩
      · rw [List.length_map]
        exact page.covered
      · intro entry listed
        rcases List.mem_map.mp listed with ⟨op, inPage, isEntry⟩
        rw [← isEntry]
        exact ⟨named.2 op inPage, digests _⟩
    rcases created with ⟨manifest, sender, before, after, entries, sizes⟩
    refine ⟨page, manifest, run, (exportReplicaManifest_iff digests run isPage manifest).mpr
      ⟨named, sender, before, after, entries, sizes⟩, entries, ?_⟩
    intro opIds _
    by_cases none : page.ops = []
    · have noBatch : page.batches = [] := by
        rw [isPage.ops, ← Segment.flatten_batchesOf] at none
        rw [isPage.batches]
        cases shape : Segment.batchesOf (Segment.page maxOps 0 segments) with
        | nil => rfl
        | cons batch rest =>
            rw [shape, List.flatten_cons, List.append_eq_nil_iff] at none
            have listed : batch ∈ Segment.batchesOf (Segment.page maxOps 0 segments) := by
              rw [shape]
              exact List.mem_cons_self
            exact absurd none.1 (Segment.batchesOf_ne_nil listed)
      have described : manifest.entries = [] := by
        rw [entries, none]
        rfl
      rcases exportManifestDelta_empty sender described opIds with
        ⟨delta, exported, isBefore, isAfter, ops, batches⟩
      refine ⟨delta, exported, isBefore, isAfter, ?_, ?_⟩
      · rw [ops, none]
        rfl
      · rw [batches, noBatch]
        rfl
    · exact (exportManifestDelta_iff streams positive wide isPage none sender before after entries
        opIds).mpr (ends.resolve_left none)

/-- The replica and the operations of the next page have names. -/
def Named (replicaId : String) (maxOps : Option Nat) (segments : List (Segment Op)) : Prop :=
  replicaId ≠ "" ∧ ∀ op ∈ Segment.itemsOf (Segment.page maxOps 0 segments), op.opId ≠ ""

theorem isQuiet_iff_named (digests : ∀ payload, Runtime.sha256 payload ≠ "")
    (streams : ReadsAs (read cursor) cursor segments) (positive : maxOps ≠ some 0)
    (wide : ∀ segment ∈ segments, 0 < segment.width)
    (present : ∀ segment ∈ segments, segment.items ≠ []) :
    IsQuiet replicaId read cursor maxOps ↔ Named replicaId maxOps segments := by
  rw [isQuiet_iff digests streams positive wide]
  exact and_iff_left (Or.inr (Segment.endsWithItems_of_present present maxOps))

end Stream

/-- The terminated lines after a position have as many operations as are asked for, or they
have none, or their last one has some. -/
def JsonlStore.EndsWithOps (store : JsonlStore) (cursor : Nat) (maxOps : Option Nat) : Prop :=
  Segment.itemsOf (store.segmentsAfter cursor) = [] ∨
    Segment.EndsWithItems maxOps (store.segmentsAfter cursor)

/-- A stream that is not written to looks unchanged, provided that its replica and operations
have names and, in a file, that no skipped lines end the page. -/
theorem quiet_streams_iff (digests : ∀ payload, Runtime.sha256 payload ≠ "") (replicaId : String)
    (maxOps : Option Nat) (positive : maxOps ≠ some 0) :
    (∀ store : InMemoryStore, store.WellFormed → ∀ cursor, store.Boundary cursor →
      (IsQuiet replicaId store.readAfter cursor maxOps ↔
        Named replicaId maxOps (store.segmentsAfter cursor))) ∧
    (∀ store : SQLiteStore, store.WellFormed →
      ∀ cursor, cursor ≤ SQLiteStore.maximum store.rows →
      (IsQuiet replicaId store.readAfter cursor maxOps ↔
        Named replicaId maxOps (store.segmentsAfter cursor))) ∧
    ∀ store : JsonlStore, ∀ cursor, cursor ≤ (store.file.getD []).length →
      (IsQuiet replicaId store.readAfter cursor maxOps ↔
        Named replicaId maxOps (store.segmentsAfter cursor) ∧
          store.EndsWithOps cursor maxOps) := by
  refine ⟨?_, ?_, ?_⟩
  · intro store wellFormed cursor boundary
    have shapes := InMemoryStore.segmentsAfter_wide wellFormed cursor
    apply isQuiet_iff_named digests (InMemoryStore.readAfter_after wellFormed boundary) positive
    · intro segment listed
      exact (shapes segment listed).1
    · intro segment listed
      have positiveLength := (shapes segment listed).1
      rw [← (shapes segment listed).2] at positiveLength
      exact List.length_pos_iff.mp positiveLength
  · intro store wellFormed cursor within
    exact isQuiet_iff_named digests (SQLiteStore.readAfter_page wellFormed within) positive
      (SQLiteStore.segmentsAfter_wide wellFormed cursor)
      (SQLiteStore.segmentsAfter_present wellFormed cursor)
  · intro store cursor within
    rw [isQuiet_iff digests (JsonlStore.readAfter_page store within) positive
      (JsonlStore.segmentsAfter_wide store cursor), Segment.page_empty_iff positive]
    rfl

end Theory

section Example

attribute [local instance] Reference.shortRuntime

private def remark : Op :=
  .decisionAdded ⟨"o", "r", Reference.timestamp⟩ ⟨"d", "session", ∅, Reference.timestamp⟩

private theorem checksum_present (payload : ByteArray) : Runtime.sha256 payload ≠ "" := by
  intro empty
  have digits := congrArg String.toList empty
  change (Nat.repr _).toList = [] at digits
  rw [Nat.repr, String.toList_ofList] at digits
  exact Nat.toDigits_ne_nil digits

/-- A file with an operation. -/
private def remarkFile : JsonlStore := ⟨some (JsonlStore.batchBytes [remark] ++ 10 :: [])⟩

/-- A file with an operation and a blank line after it. -/
private def blankEnded : JsonlStore := ⟨some (JsonlStore.batchBytes [remark] ++ 10 :: [10])⟩

private theorem remark_line :
    JsonlStore.lineSegment (JsonlStore.batchBytes [remark] ++ [10]) =
      ⟨(JsonlStore.batchBytes [remark] ++ [10]).length, [remark.decoded]⟩ := by
  rw [JsonlStore.lineSegment, JsonlStore.lineBatch_batch (List.cons_ne_nil _ _)]
  rfl

private theorem remarkFile_segments : remarkFile.segmentsAfter 0 =
    [⟨(JsonlStore.batchBytes [remark] ++ [10]).length, [remark.decoded]⟩] := by
  rw [JsonlStore.segmentsAfter, remarkFile, Option.getD_some, List.drop_zero,
    splitAfter_line (JsonlStore.batchBytes_plain [remark]) rfl, List.map_cons, remark_line]
  rfl

private theorem blankEnded_segments : blankEnded.segmentsAfter 0 =
    [⟨(JsonlStore.batchBytes [remark] ++ [10]).length, [remark.decoded]⟩, ⟨1, []⟩] := by
  rw [JsonlStore.segmentsAfter, blankEnded, Option.getD_some, List.drop_zero,
    splitAfter_line (JsonlStore.batchBytes_plain [remark]) rfl, List.map_cons, remark_line]
  rfl

/-- Nothing is written to the file, and yet the export says that the stream changed. -/
theorem blank_line_looks_changed : ¬IsQuiet "r" blankEnded.readAfter 0 none := by
  have positive : (none : Option Nat) ≠ some 0 := by simp
  rw [isQuiet_iff checksum_present (JsonlStore.readAfter_page blankEnded (Nat.zero_le _)) positive
    (JsonlStore.segmentsAfter_wide blankEnded 0), blankEnded_segments]
  intro quiet
  rcases quiet.2 with none | isReached | present
  · cases none
  · cases isReached
  · exact present ⟨1, []⟩ rfl rfl

private def secondRemark : Op :=
  .decisionAdded ⟨"p", "r", Reference.timestamp⟩ ⟨"e", "session", ∅, Reference.timestamp⟩

private def remarkStore : InMemoryStore := InMemoryStore.empty.commit .empty [remark]

/-- A table with two operations of one batch and a gap between them. -/
private def remarkTable : SQLiteStore :=
  ⟨[⟨3, "o", remark.toJson, some "b"⟩, ⟨5, "p", secondRemark.toJson, some "b"⟩]⟩

private theorem remarkTable_wellFormed : remarkTable.WellFormed := by
  constructor
  · simp [remarkTable]
  · simp [remarkTable]
  · intro row listed
    rcases List.mem_pair.mp listed with isRow | isRow
    · rw [isRow]
      exact ⟨_, Op.fromJson_toJson remark⟩
    · rw [isRow]
      exact ⟨_, Op.fromJson_toJson secondRemark⟩

private theorem remarkTable_segments :
    remarkTable.segmentsAfter 0 = [⟨5, [remark.decoded, secondRemark.decoded]⟩] := by
  have ops : SQLiteStore.opsOf remarkTable.rows = [remark.decoded, secondRemark.decoded] := by
    simp [SQLiteStore.opsOf, SQLiteStore.opOf, remarkTable, Op.fromJson_toJson, Except.toOption]
  rw [← ops]
  rfl

/-- One operation in memory and in a file, and two in a table. -/
theorem quiet_streams_remark :
    IsQuiet "r" remarkStore.readAfter 0 none ∧ IsQuiet "r" remarkTable.readAfter 0 none ∧
      IsQuiet "r" remarkFile.readAfter 0 none := by
  have positive : (none : Option Nat) ≠ some 0 := by simp
  have streams := quiet_streams_iff checksum_present "r" none positive
  refine ⟨?_, ?_, ?_⟩
  · apply (streams.1 remarkStore (InMemoryStore.commit_wellFormed InMemoryStore.empty_wellFormed
      _ _) 0 List.mem_cons_self).mpr
    refine ⟨by decide, ?_⟩
    intro op listed
    have single : op ∈ [remark] := listed
    rw [List.mem_singleton.mp single]
    decide
  · apply (streams.2.1 remarkTable remarkTable_wellFormed 0 (Nat.zero_le _)).mpr
    rw [remarkTable_segments]
    refine ⟨by decide, ?_⟩
    intro op listed
    have pair : op ∈ [remark.decoded, secondRemark.decoded] := listed
    rcases List.mem_pair.mp pair with isOp | isOp
    · rw [isOp]
      decide
    · rw [isOp]
      decide
  · apply (streams.2.2 remarkFile 0 (Nat.zero_le _)).mpr
    rw [JsonlStore.EndsWithOps, remarkFile_segments]
    refine ⟨⟨by decide, ?_⟩, Or.inr (Or.inr ?_)⟩
    · intro op listed
      have single : op ∈ [remark.decoded] := listed
      rw [List.mem_singleton.mp single]
      decide
    · intro last isLast
      injection isLast with isLast
      rw [← isLast]
      exact List.cons_ne_nil _ _

end Example

end Statefuse
