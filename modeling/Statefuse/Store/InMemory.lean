import Statefuse.Merge

/-!
# The in-memory store

The store keeps its operations twice: as a log, which refuses a second binding of an
operation id, and in the order in which they were committed, with the position where
every committed batch ends.  A cursor is such a position; reading after it returns the
batches committed since.
-/

namespace Statefuse

open Foundation

variable [Runtime]

/-- The operations after a cursor, with the sizes of the batches they were committed in. -/
structure StoreDelta where
  cursor : Nat
  ops : List Op
  batchSizes : List Nat
  covered : (∀ size ∈ batchSizes, 1 ≤ size) ∧ batchSizes.sum = ops.length

/-- Without sizes every operation is a batch. -/
def StoreDelta.create (cursor : Nat) (ops : List Op) (batchSizes : List Nat) : Result StoreDelta :=
  let sizes := if batchSizes = [] then List.replicate ops.length 1 else batchSizes
  if covered : (∀ size ∈ sizes, 1 ≤ size) ∧ sizes.sum = ops.length then
    .ok ⟨cursor, ops, sizes, covered⟩
  else valueError "Store delta batch sizes must cover every operation."

structure MaterializationCheckpoint where
  version : String
  configToken : String
  cursor : Nat
  payload : String

structure InMemoryStore where
  oplog : OpLog
  appendOrder : List Op
  batchEnds : List Nat
  checkpoint : Option MaterializationCheckpoint

namespace InMemoryStore

def empty : InMemoryStore := ⟨.empty, [], [], none⟩

/-- Record the operations that a batch has added. -/
def commit (store : InMemoryStore) (oplog : OpLog) (added : List Op) : InMemoryStore :=
  if added = [] then { store with oplog := oplog }
  else { store with
    oplog := oplog
    appendOrder := store.appendOrder ++ added
    batchEnds := store.batchEnds ++ [(store.appendOrder ++ added).length] }

def append (store : InMemoryStore) (op : Op) : Result (InMemoryStore × Bool) := do
  let (oplog, added) ← store.oplog.add op
  return (store.commit oplog (if added then [op] else []), added)

def appendMany (store : InMemoryStore) (ops : List Op) : Result (InMemoryStore × List Bool) := do
  let (oplog, results) ← store.oplog.addMany ops
  let added := ((ops.zip results).filter Prod.snd).map Prod.fst
  return (store.commit oplog added, results)

/-- A copy of the log. -/
def loadOplog (store : InMemoryStore) : Result OpLog := OpLog.ofOps store.oplog.iterOps

/-- What a read has seen of the batch ends. -/
structure Reading where
  previous : Nat
  sizes : List Nat
  cursorAfter : Nat
  stopped : Bool

/-- One batch end of a read. -/
def readStep (cursor : Nat) (limit : Option Nat) (reading : Reading) (stop : Nat) :
    Result Reading :=
  if reading.stopped then .ok reading
  else if reading.previous < cursor ∧ cursor < stop then
    valueError "In-memory operation cursor splits a committed batch."
  else if cursor < stop then
    let sizes := reading.sizes ++ [stop - reading.previous]
    .ok ⟨stop, sizes, stop, limit.any fun limit => limit ≤ sizes.sum⟩
  else .ok { reading with previous := stop }

def readAfter (store : InMemoryStore) (cursor : Nat) (limit : Option Nat) : Result StoreDelta :=
  if store.appendOrder.length < cursor then valueError "Invalid in-memory operation cursor."
  else if limit = some 0 then valueError "Operation read limit must be positive."
  else do
    let reading ← store.batchEnds.foldlM (readStep cursor limit) ⟨0, [], cursor, false⟩
    StoreDelta.create reading.cursorAfter
      ((store.appendOrder.take reading.cursorAfter).drop cursor) reading.sizes

def saveMaterializationCheckpoint (store : InMemoryStore) (checkpoint : MaterializationCheckpoint) :
    InMemoryStore :=
  { store with checkpoint := some checkpoint }

/-- The batch ends rise from zero to the number of committed operations. -/
structure WellFormed (store : InMemoryStore) : Prop where
  rising : (0 :: store.batchEnds).Pairwise (· < ·)
  last : (0 :: store.batchEnds).getLast (List.cons_ne_nil _ _) = store.appendOrder.length

/-- A position between two batches. -/
def Boundary (store : InMemoryStore) (cursor : Nat) : Prop := cursor ∈ 0 :: store.batchEnds

/-- The positions of one store are positions of the other, which has committed no less. -/
structure Extends (first second : InMemoryStore) : Prop where
  boundary : ∀ cursor, first.Boundary cursor → second.Boundary cursor
  longer : first.appendOrder.length ≤ second.appendOrder.length
  checkpoint : second.checkpoint = first.checkpoint

variable {store : InMemoryStore}

theorem empty_wellFormed : WellFormed .empty :=
  ⟨List.pairwise_singleton _ _, rfl⟩

theorem WellFormed.le_length (wellFormed : store.WellFormed) {cursor : Nat}
    (boundary : store.Boundary cursor) : cursor ≤ store.appendOrder.length := by
  have rising := wellFormed.rising
  have member : cursor ∈ 0 :: store.batchEnds := boundary
  rw [← wellFormed.last]
  rw [← List.dropLast_append_getLast (List.cons_ne_nil 0 store.batchEnds)] at rising member
  rcases List.mem_append.mp member with earlier | last
  · exact le_of_lt ((List.pairwise_append.mp rising).2.2 cursor earlier _ (by simp))
  · rw [List.mem_singleton.mp last]

theorem commit_wellFormed (wellFormed : store.WellFormed) (oplog : OpLog) (added : List Op) :
    (store.commit oplog added).WellFormed := by
  unfold commit
  split
  · exact ⟨wellFormed.rising, wellFormed.last⟩
  · rename_i some
    refine ⟨?_, ?_⟩
    · change (0 :: (store.batchEnds ++ [_])).Pairwise _
      rw [← List.cons_append, List.pairwise_append]
      refine ⟨wellFormed.rising, List.pairwise_singleton _ _, ?_⟩
      intro cursor boundary stop member
      rw [List.mem_singleton.mp member, List.length_append]
      have below := wellFormed.le_length boundary
      have positive := List.length_pos_iff.mpr some
      omega
    · simp only [← List.cons_append, List.getLast_append_singleton]

theorem commit_extends (store : InMemoryStore) (oplog : OpLog) (added : List Op) :
    store.Extends (store.commit oplog added) := by
  unfold commit
  split
  · exact ⟨fun _ => id, le_rfl, rfl⟩
  · refine ⟨?_, ?_, rfl⟩
    · intro cursor boundary
      change cursor ∈ 0 :: (store.batchEnds ++ [_])
      rw [← List.cons_append]
      exact List.mem_append_left _ boundary
    · change _ ≤ (store.appendOrder ++ added).length
      rw [List.length_append]
      exact Nat.le_add_right _ _

/-! ## Reading -/

omit [Runtime] in
/-- Batches up to the cursor are passed over. -/
theorem read_before {cursor : Nat} {limit : Option Nat} (stops : List Nat) (previous : Nat)
    (passed : ∀ stop ∈ stops, stop ≤ cursor) :
    stops.foldlM (readStep cursor limit) ⟨previous, [], cursor, false⟩ =
      .ok ⟨stops.getLastD previous, [], cursor, false⟩ := by
  induction stops generalizing previous with
  | nil => rfl
  | cons head tail inductionHypothesis =>
      have below := passed head List.mem_cons_self
      have step : readStep cursor limit ⟨previous, [], cursor, false⟩ head =
          .ok ⟨head, [], cursor, false⟩ := by
        unfold readStep
        rw [if_neg (by simp), if_neg (by omega), if_neg (by omega)]
      rw [List.foldlM_cons, bind_of_ok step,
        inductionHypothesis head (fun stop member => passed stop (List.mem_cons_of_mem _ member))]
      cases tail <;> rfl

omit [Runtime] in
/-- Batches after the cursor are taken, one after the other. -/
private theorem read_after_cursor {cursor : Nat} (stops : List Nat) (previous : Nat)
    (sizes : List Nat) (rising : (previous :: stops).Pairwise (· < ·)) (reached : cursor ≤ previous)
    (sum : sizes.sum = previous - cursor) (positive : ∀ size ∈ sizes, 1 ≤ size) :
    ∃ taken, stops.foldlM (readStep cursor none) ⟨previous, sizes, previous, false⟩ =
        .ok ⟨stops.getLastD previous, taken, stops.getLastD previous, false⟩ ∧
      taken.sum = stops.getLastD previous - cursor ∧ (∀ size ∈ taken, 1 ≤ size) ∧
      (taken = [] → sizes = [] ∧ stops = []) := by
  induction stops generalizing previous sizes with
  | nil => exact ⟨sizes, rfl, sum, positive, fun same => ⟨same, rfl⟩⟩
  | cons head tail inductionHypothesis =>
      obtain ⟨above, tailRising⟩ := List.pairwise_cons.mp rising
      have below := above head List.mem_cons_self
      have step : readStep cursor none ⟨previous, sizes, previous, false⟩ head =
          .ok ⟨head, sizes ++ [head - previous], head, false⟩ := by
        unfold readStep
        rw [if_neg (by simp), if_neg (by dsimp only; omega), if_pos (by omega)]
        rfl
      obtain ⟨taken, run, takenSum, takenPositive, nonempty⟩ := inductionHypothesis head
        (sizes ++ [head - previous]) tailRising (by omega)
        (by rw [List.sum_append, sum, List.sum_singleton]; omega)
        (by
          intro size member
          rcases List.mem_append.mp member with earlier | last
          · exact positive size earlier
          · rw [List.mem_singleton.mp last]
            omega)
      have same : (head :: tail).getLastD previous = tail.getLastD head := by cases tail <;> rfl
      refine ⟨taken, ?_, ?_, takenPositive, ?_⟩
      · rw [List.foldlM_cons, bind_of_ok step, run, same]
      · rw [takenSum, same]
      · intro empty
        have impossible := (nonempty empty).1
        simp at impossible

/-- Reading from a boundary returns everything that was committed after it. -/
theorem readAfter_boundary (wellFormed : store.WellFormed) {cursor : Nat}
    (boundary : store.Boundary cursor) :
    ∃ delta, store.readAfter cursor none = .ok delta ∧
      delta.cursor = store.appendOrder.length ∧ delta.ops = store.appendOrder.drop cursor := by
  have within := wellFormed.le_length boundary
  obtain ⟨before, after, split⟩ := List.append_of_mem boundary
  have rising := wellFormed.rising
  rw [split, List.pairwise_append] at rising
  obtain ⟨_, afterRising, apart⟩ := rising
  have last : after.getLastD cursor = store.appendOrder.length := by
    rw [← wellFormed.last]
    simp only [split]
    cases after with
    | nil => simp
    | cons head tail => simp [List.getLastD_eq_getLast?, List.getLast?_eq_some_getLast]
  -- The batch ends up to the cursor, without the zero in front.
  have ends : ∃ passed, store.batchEnds = passed ++ after ∧ passed.getLastD 0 = cursor ∧
      ∀ stop ∈ passed, stop ≤ cursor := by
    cases before with
    | nil =>
        rw [List.nil_append, List.cons.injEq] at split
        exact ⟨[], by rw [split.2]; rfl, split.1, by simp⟩
    | cons head tail =>
        rw [List.cons_append, List.cons.injEq] at split
        refine ⟨tail ++ [cursor], by rw [split.2]; simp, by simp, ?_⟩
        intro stop member
        rcases List.mem_append.mp member with earlier | isCursor
        · exact le_of_lt (apart stop (List.mem_cons_of_mem _ earlier) cursor List.mem_cons_self)
        · rw [List.mem_singleton.mp isCursor]
  obtain ⟨passed, sameEnds, passedLast, passedBelow⟩ := ends
  obtain ⟨taken, run, sum, positive, nonempty⟩ :=
    read_after_cursor after cursor [] afterRising le_rfl (by simp) (by simp)
  have reading : store.batchEnds.foldlM (readStep cursor none) ⟨0, [], cursor, false⟩ =
      .ok ⟨store.appendOrder.length, taken, store.appendOrder.length, false⟩ := by
    rw [sameEnds, List.foldlM_append, bind_of_ok (read_before passed 0 passedBelow), passedLast,
      run, last]
  rw [last] at sum
  have whole : (store.appendOrder.take store.appendOrder.length).drop cursor =
      store.appendOrder.drop cursor := by rw [List.take_length]
  rw [readAfter, if_neg (by omega), if_neg (by simp), bind_of_ok reading]
  simp only [whole]
  unfold StoreDelta.create
  dsimp only
  by_cases none : taken = []
  · have done : store.appendOrder.drop cursor = [] := by
      rw [List.drop_eq_nil_iff, ← last, (nonempty none).2]
      exact le_rfl
    simp only [none, done, if_pos]
    exact ⟨_, dif_pos ⟨by simp, rfl⟩, rfl, rfl⟩
  · rw [if_neg none, dif_pos ⟨positive, by rw [sum, List.length_drop]⟩]
    exact ⟨_, rfl, rfl, rfl⟩

end InMemoryStore

end Statefuse
