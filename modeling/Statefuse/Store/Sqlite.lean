import Statefuse.Store.Paging

/-!
# The SQLite store

A table of operations in the order of their row ids.  The rows of one call carry the same
batch id; rows from before batches existed carry none and stand alone.  A cursor is a row id.
A call that meets a colliding operation is rolled back.
-/

namespace Statefuse

open Foundation

/-- A row of the table `ops`. -/
structure SqliteRow where
  rowid : Nat
  opId : String
  payload : String
  batchId : Option String

/-- The batch of a row; a row without a batch id is a batch of its own. -/
def SqliteRow.batch (row : SqliteRow) : String :=
  (truthy row.batchId).getD ("legacy:" ++ toString row.rowid)

variable [Runtime]

/-- The rows in the order of their ids. -/
structure SQLiteStore where
  rows : List SqliteRow

namespace SQLiteStore

def empty : SQLiteStore := ⟨[]⟩

/-- `COALESCE(MAX(rowid), 0)` -/
def maximum (rows : List SqliteRow) : Nat := rows.foldr (fun row largest => max row.rowid largest) 0

/-- One operation of a call: it is inserted unless its id is taken. -/
def insertOp (batchId : String) (state : List SqliteRow × List Bool) (op : Op) :
    Result (List SqliteRow × List Bool) :=
  match state.1.find? (fun row => row.opId = op.opId) with
  | none =>
      .ok (state.1 ++ [⟨maximum state.1 + 1, op.opId, op.toJson, some batchId⟩],
        state.2 ++ [true])
  | some row =>
      if row.payload = op.toJson then .ok (state.1, state.2 ++ [false])
      else .error (OpLog.collision op.opId)

def appendMany (store : SQLiteStore) (batchId : String) (ops : List Op) :
    Result (SQLiteStore × List Bool) := do
  let (rows, results) ← ops.foldlM (insertOp batchId) (store.rows, [])
  return (⟨rows⟩, results)

/-- What a read has selected. -/
structure Reading where
  selected : List SqliteRow
  batchSizes : List Nat
  previousBatch : Option String
  stopped : Bool

/-- Count one row more in the last batch. -/
def countRow : List Nat → List Nat
  | [] => []
  | [size] => [size + 1]
  | size :: next :: sizes => size :: countRow (next :: sizes)

def readRow (limit : Option Nat) (reading : Reading) (row : SqliteRow) : Reading :=
  if reading.stopped then reading
  else if some row.batch ≠ reading.previousBatch then
    if limit.any fun limit => limit ≤ reading.selected.length then
      { reading with stopped := true }
    else ⟨reading.selected ++ [row], countRow (reading.batchSizes ++ [0]), some row.batch, false⟩
  else { reading with
    selected := reading.selected ++ [row]
    batchSizes := countRow reading.batchSizes }

def readAfter (store : SQLiteStore) (cursor : Nat) (limit : Option Nat) : Result StoreDelta :=
  if limit = some 0 then valueError "Operation read limit must be positive."
  else if maximum store.rows < cursor then
    valueError "SQLite operation cursor is beyond the current log."
  else do
    let rows := store.rows.filter fun row => cursor < row.rowid
    let reading := rows.foldl (readRow limit) ⟨[], [], none, false⟩
    let ops ← reading.selected.mapM fun row => Op.fromJson row.payload
    StoreDelta.create ((reading.selected.getLast?.map SqliteRow.rowid).getD cursor) ops
      reading.batchSizes

/-- The row ids rise from one, and every payload is an operation. -/
structure WellFormed (store : SQLiteStore) : Prop where
  rising : store.rows.Pairwise fun first second => first.rowid < second.rowid
  positive : ∀ row ∈ store.rows, 0 < row.rowid
  readable : ∀ row ∈ store.rows, ∃ op, Op.fromJson row.payload = .ok op

def sameBatch (first second : SqliteRow) : Bool := first.batch = second.batch

/-- The neighbouring rows of the same batch. -/
def groups (rows : List SqliteRow) : List (List SqliteRow) := rows.splitBy sameBatch

def lastRowid (rows : List SqliteRow) (default : Nat) : Nat :=
  (rows.getLast?.map SqliteRow.rowid).getD default

/-- Groups of rows as segments, after a row id. -/
def groupSegments : Nat → List (List SqliteRow) → List (Segment SqliteRow)
  | _, [] => []
  | previous, group :: rest =>
      ⟨lastRowid group previous - previous, group⟩ :: groupSegments (lastRowid group previous) rest

def opOf (row : SqliteRow) : Option Op := (Op.fromJson row.payload).toOption

/-- The operations of some rows. -/
def opsOf (rows : List SqliteRow) : List Op := rows.filterMap opOf

def segmentsAfter (store : SQLiteStore) (cursor : Nat) : List (Segment Op) :=
  (groupSegments cursor (groups (store.rows.filter fun row => cursor < row.rowid))).map
    (Segment.mapItems opsOf)

/-- The batches of the table. -/
def batches (store : SQLiteStore) : List (List Op) := (groups store.rows).map opsOf

omit [Runtime] in
theorem countRow_concat (sizes : List Nat) (size : Nat) :
    countRow (sizes ++ [size]) = sizes ++ [size + 1] := by
  induction sizes with
  | nil => rfl
  | cons head tail inductionHypothesis =>
      cases tail with
      | nil => rfl
      | cons next tail =>
          rw [List.cons_append, List.cons_append, countRow, ← List.cons_append,
            inductionHypothesis]
          rfl

/-- All rows are of the batch. -/
def OfBatch (batch : String) (rows : List SqliteRow) : Prop := ∀ row ∈ rows, row.batch = batch

/-- A group: some rows of one batch. -/
def IsGroup (rows : List SqliteRow) : Prop :=
  ∃ row rest, rows = row :: rest ∧ OfBatch row.batch rest

/-- The groups that follow each other are of different batches. -/
def Apart (groups : List (List SqliteRow)) : Prop :=
  groups.IsChain fun first second => ∃ (some : first ≠ []) (others : second ≠ []),
    sameBatch (first.getLast some) (second.head others) = false

section Groups

omit [Runtime]

theorem ofBatch_of_chain (row : SqliteRow) (rest : List SqliteRow)
    (chain : (row :: rest).IsChain fun first second => sameBatch first second = true) :
    OfBatch row.batch rest := by
  induction rest generalizing row with
  | nil => simp [OfBatch]
  | cons next rest inductionHypothesis =>
      rw [List.isChain_cons_cons] at chain
      have same : row.batch = next.batch := by simpa [sameBatch] using chain.1
      intro other listed
      rcases List.mem_cons.mp listed with isNext | later
      · rw [isNext, same]
      · rw [same]
        exact inductionHypothesis next chain.2 other later

theorem groups_isGroup (rows : List SqliteRow) : ∀ group ∈ groups rows, IsGroup group := by
  intro group listed
  cases group with
  | nil => exact absurd listed (List.nil_notMem_splitBy _ _)
  | cons row rest =>
      exact ⟨row, rest, rfl, ofBatch_of_chain row rest (List.isChain_of_mem_splitBy listed)⟩

theorem groups_apart (rows : List SqliteRow) : Apart (groups rows) :=
  List.isChain_getLast_head_splitBy _ _

/-- The rows of some of the groups fall into these groups. -/
theorem groups_suffix {rows : List SqliteRow} {front rest : List (List SqliteRow)}
    (split : groups rows = front ++ rest) : groups rest.flatten = rest := by
  rcases List.splitBy_eq_iff.mp split with ⟨_, present, chains, apart⟩
  refine List.splitBy_flatten ?_ ?_ apart.right_of_append
  · intro listed
    exact present (List.mem_append_right _ listed)
  · intro group listed
    exact chains group (List.mem_append_right _ listed)

/-- The last row of a group is of its batch. -/
theorem getLast_batch {row : SqliteRow} {rest : List SqliteRow} (ofBatch : OfBatch row.batch rest)
    (some : row :: rest ≠ []) : ((row :: rest).getLast some).batch = row.batch := by
  rcases List.mem_cons.mp (List.getLast_mem some) with isRow | later
  · rw [isRow]
  · exact ofBatch _ later

/-! ### Row ids -/

theorem lastRowid_append (first second : List SqliteRow) (default : Nat) :
    lastRowid (first ++ second) default = lastRowid second (lastRowid first default) := by
  rw [lastRowid, lastRowid, lastRowid, List.getLast?_append]
  cases second.getLast? <;> rfl

/-- Rows with rising ids above a row id. -/
def Above (previous : Nat) (rows : List SqliteRow) : Prop :=
  rows.Pairwise (fun first second => first.rowid < second.rowid) ∧
    ∀ row ∈ rows, previous < row.rowid

theorem Above.append {previous : Nat} {first second : List SqliteRow}
    (above : Above previous (first ++ second)) :
    Above previous first ∧ Above (lastRowid first previous) second := by
  rcases above with ⟨rising, beyond⟩
  rcases List.pairwise_append.mp rising with ⟨firstRising, secondRising, apart⟩
  refine ⟨⟨firstRising, fun row listed => beyond row (List.mem_append_left _ listed)⟩,
    secondRising, ?_⟩
  intro row listed
  rw [lastRowid]
  cases shape : first.getLast? with
  | none => exact beyond row (List.mem_append_right _ listed)
  | some last => exact apart last (List.mem_of_getLast? shape) row listed

theorem lastRowid_ge {previous : Nat} {rows : List SqliteRow} (above : Above previous rows) :
    previous ≤ lastRowid rows previous ∧ (rows ≠ [] → previous < lastRowid rows previous) := by
  rw [lastRowid]
  cases shape : rows.getLast? with
  | none =>
      rw [List.getLast?_eq_none_iff] at shape
      exact ⟨le_rfl, fun some => absurd shape some⟩
  | some last =>
      have beyond := above.2 last (List.mem_of_getLast? shape)
      exact ⟨le_of_lt beyond, fun _ => beyond⟩

theorem itemsOf_groupSegments (previous : Nat) (groups : List (List SqliteRow)) :
    Segment.itemsOf (groupSegments previous groups) = groups.flatten := by
  induction groups generalizing previous with
  | nil => rfl
  | cons group rest inductionHypothesis =>
      rw [groupSegments, Segment.itemsOf_cons, inductionHypothesis, List.flatten_cons]

/-- A front part of the segments is a front part of the groups. -/
theorem groupSegments_split {previous : Nat} {groups : List (List SqliteRow)}
    {before after : List (Segment SqliteRow)}
    (split : groupSegments previous groups = before ++ after) :
    ∃ front rest, groups = front ++ rest ∧ before = groupSegments previous front ∧
      after = groupSegments (lastRowid front.flatten previous) rest := by
  induction before generalizing previous groups with
  | nil => exact ⟨[], groups, rfl, rfl, split.symm⟩
  | cons segment before inductionHypothesis =>
      cases groups with
      | nil => cases split
      | cons group groups =>
          rw [groupSegments, List.cons_append, List.cons.injEq] at split
          rcases inductionHypothesis split.2 with ⟨front, rest, isSplit, isBefore, isAfter⟩
          refine ⟨group :: front, rest, by rw [isSplit]; rfl, ?_, ?_⟩
          · rw [groupSegments, split.1, isBefore]
          · rw [isAfter, List.flatten_cons, lastRowid_append]

/-- Segments reach from a row id to the last one. -/
theorem groupSegments_width {previous : Nat} {groups : List (List SqliteRow)}
    (above : Above previous groups.flatten) :
    previous + Segment.totalWidth (groupSegments previous groups) =
      lastRowid groups.flatten previous := by
  induction groups generalizing previous with
  | nil => rfl
  | cons group rest inductionHypothesis =>
      rw [List.flatten_cons] at above ⊢
      have later := inductionHypothesis above.append.2
      have reaches := lastRowid_ge above.append.1
      rw [groupSegments, Segment.totalWidth_cons, lastRowid_append, ← later]
      simp only
      omega

theorem groupSegments_wide {previous : Nat} {groups : List (List SqliteRow)}
    (above : Above previous groups.flatten) (present : ∀ group ∈ groups, group ≠ []) :
    ∀ segment ∈ groupSegments previous groups, 0 < segment.width := by
  induction groups generalizing previous with
  | nil => simp [groupSegments]
  | cons group rest inductionHypothesis =>
      rw [List.flatten_cons] at above
      intro segment listed
      rw [groupSegments] at listed
      rcases List.mem_cons.mp listed with isFirst | later
      · have reaches := (lastRowid_ge above.append.1).2 (present group List.mem_cons_self)
        rw [isFirst]
        simp only
        omega
      · exact inductionHypothesis above.append.2
          (fun other listed => present other (List.mem_cons_of_mem _ listed)) segment later

theorem groupSegments_present {previous : Nat} {groups : List (List SqliteRow)}
    (present : ∀ group ∈ groups, group ≠ []) :
    ∀ segment ∈ groupSegments previous groups, segment.items ≠ [] := by
  induction groups generalizing previous with
  | nil => simp [groupSegments]
  | cons group rest inductionHypothesis =>
      intro segment listed
      rw [groupSegments] at listed
      rcases List.mem_cons.mp listed with isFirst | later
      · rw [isFirst]
        exact present group List.mem_cons_self
      · exact inductionHypothesis
          (fun other listed => present other (List.mem_cons_of_mem _ listed)) segment later

/-! ### One read -/

theorem read_rows_stopped {limit : Option Nat} {reading : Reading}
    (stopped : reading.stopped = true) (rows : List SqliteRow) :
    rows.foldl (readRow limit) reading = reading := by
  induction rows with
  | nil => rfl
  | cons row rows inductionHypothesis =>
      have step : readRow limit reading row = reading := by
        rw [readRow, if_pos stopped]
      rw [List.foldl_cons, step, inductionHypothesis]

/-- The rows of the batch that is being read are taken with it. -/
theorem read_batch {limit : Option Nat} {batch : String} {rows : List SqliteRow}
    (ofBatch : OfBatch batch rows) (selected : List SqliteRow) (sizes : List Nat) (size : Nat) :
    rows.foldl (readRow limit) ⟨selected, sizes ++ [size], some batch, false⟩ =
      ⟨selected ++ rows, sizes ++ [size + rows.length], some batch, false⟩ := by
  induction rows generalizing selected size with
  | nil => simp
  | cons row rows inductionHypothesis =>
      have same := ofBatch row List.mem_cons_self
      have step : readRow limit ⟨selected, sizes ++ [size], some batch, false⟩ row =
          ⟨selected ++ [row], sizes ++ [size + 1], some batch, false⟩ := by
        simp [readRow, same, countRow_concat]
      rw [List.foldl_cons, step,
        inductionHypothesis (fun other listed => ofBatch other (List.mem_cons_of_mem _ listed))]
      simp [Nat.add_assoc, Nat.add_comm 1]

/-- A read takes the groups of the next page, one after the other. -/
theorem read_groups (limit : Option Nat) (groups : List (List SqliteRow)) (cursor : Nat)
    (areGroups : ∀ group ∈ groups, IsGroup group) (apart : Apart groups)
    (selected : List SqliteRow) (sizes : List Nat) (previous : Option String)
    (isOpen : Segment.reached limit selected.length = false)
    (differs : ∀ group ∈ groups.head?, ∀ row ∈ group.head?, some row.batch ≠ previous) :
    ∃ last stopped, groups.flatten.foldl (readRow limit) ⟨selected, sizes, previous, false⟩ =
      ⟨selected ++ Segment.itemsOf
          (Segment.page limit selected.length (groupSegments cursor groups)),
        sizes ++ (Segment.batchesOf
          (Segment.page limit selected.length (groupSegments cursor groups))).map List.length,
        last, stopped⟩ := by
  induction groups generalizing cursor selected sizes previous with
  | nil =>
      refine ⟨previous, false, ?_⟩
      simp [groupSegments, Segment.page]
  | cons group groups inductionHypothesis =>
      rcases areGroups group List.mem_cons_self with ⟨row, rest, isGroup, ofBatch⟩
      have present : group ≠ [] := by
        rw [isGroup]
        exact List.cons_ne_nil _ _
      have starts : some row.batch ≠ previous := by
        apply differs group rfl
        rw [isGroup]
        rfl
      have step : readRow limit ⟨selected, sizes, previous, false⟩ row =
          ⟨selected ++ [row], sizes ++ [1], some row.batch, false⟩ := by
        rw [Segment.reached] at isOpen
        simp [readRow, starts, isOpen, countRow_concat]
      have taken : group.foldl (readRow limit) ⟨selected, sizes, previous, false⟩ =
          ⟨selected ++ group, sizes ++ [group.length], some row.batch, false⟩ := by
        rw [isGroup, List.foldl_cons, step, read_batch ofBatch]
        simp [Nat.add_comm 1]
      have nextDiffers : ∀ other ∈ groups.head?, ∀ next ∈ other.head?,
          some next.batch ≠ some row.batch := by
        intro other isHead next isNext same
        cases groups with
        | nil => cases isHead
        | cons second groups =>
            injection isHead with isHead
            rw [Apart, List.isChain_cons_cons] at apart
            rcases apart.1 with ⟨some, others, different⟩
            rw [← isHead, List.head?_eq_some_head others] at isNext
            injection isNext with isNext
            subst isGroup
            rw [sameBatch, getLast_batch ofBatch some, isNext, decide_eq_false_iff_not] at different
            injection same with same
            exact different same.symm
      rw [List.flatten_cons, List.foldl_append, taken, groupSegments]
      by_cases isReached : Segment.reached limit (selected.length + group.length) = true
      · rw [Segment.page_stop present isReached]
        have stays : ∃ last stopped, groups.flatten.foldl (readRow limit)
            ⟨selected ++ group, sizes ++ [group.length], some row.batch, false⟩ =
            ⟨selected ++ group, sizes ++ [group.length], last, stopped⟩ := by
          cases groups with
          | nil => exact ⟨some row.batch, false, rfl⟩
          | cons second groups =>
              rcases areGroups second (List.mem_cons_of_mem _ List.mem_cons_self) with
                ⟨next, others, isSecond, _⟩
              have different : some next.batch ≠ some row.batch := by
                apply nextDiffers second rfl
                rw [isSecond]
                rfl
              rw [← List.length_append, Segment.reached] at isReached
              have stop : readRow limit
                  ⟨selected ++ group, sizes ++ [group.length], some row.batch, false⟩ next =
                  ⟨selected ++ group, sizes ++ [group.length], some row.batch, true⟩ := by
                rw [readRow, if_neg (by simp), if_pos different, if_pos isReached]
              refine ⟨some row.batch, true, ?_⟩
              rw [List.flatten_cons, isSecond, List.cons_append, List.foldl_cons, stop,
                read_rows_stopped rfl]
        rcases stays with ⟨last, stopped, run⟩
        refine ⟨last, stopped, ?_⟩
        rw [run, Segment.batchesOf_cons present]
        simp
      · rw [Bool.not_eq_true] at isReached
        have passes : ¬(group ≠ [] ∧
            Segment.reached limit (selected.length + group.length) = true) := by
          rw [isReached]
          simp
        rw [Segment.page_continue passes]
        rcases inductionHypothesis (lastRowid group cursor)
          (fun other listed => areGroups other (List.mem_cons_of_mem _ listed)) apart.tail
          (selected ++ group) (sizes ++ [group.length]) (some row.batch)
          (by rw [List.length_append]; exact isReached) nextDiffers with ⟨last, stopped, run⟩
        refine ⟨last, stopped, ?_⟩
        rw [run, List.length_append, Segment.itemsOf_cons, Segment.batchesOf_cons present,
          List.map_cons, List.append_assoc, List.append_assoc]
        rfl

end Groups

section Store

variable {store : SQLiteStore}

omit [Runtime] in
theorem max_maximum {rows : List SqliteRow} {previous : Nat} (above : Above previous rows) :
    max previous (maximum rows) = lastRowid rows previous := by
  induction rows generalizing previous with
  | nil => simp [maximum, lastRowid]
  | cons row rest inductionHypothesis =>
      rcases List.pairwise_cons.mp above.1 with ⟨beyond, rising⟩
      have first := above.2 row List.mem_cons_self
      have later : max row.rowid (maximum rest) = lastRowid rest row.rowid :=
        inductionHypothesis ⟨rising, beyond⟩
      have aboveRest : Above row.rowid rest := ⟨rising, beyond⟩
      have reaches := (lastRowid_ge aboveRest).1
      have last : lastRowid (row :: rest) previous = lastRowid rest row.rowid :=
        lastRowid_append [row] rest previous
      change max previous (max row.rowid (maximum rest)) = _
      rw [later, last]
      exact max_eq_right (le_trans (le_of_lt first) reaches)

omit [Runtime] in
/-- The largest row id is the last one. -/
theorem maximum_eq {rows : List SqliteRow} (above : Above 0 rows) :
    maximum rows = lastRowid rows 0 := by
  rw [← max_maximum above, Nat.zero_max]

theorem WellFormed.above (wellFormed : store.WellFormed) : Above 0 store.rows :=
  ⟨wellFormed.rising, wellFormed.positive⟩

omit [Runtime] in
/-- The rows after a cursor lie above it. -/
theorem above_after {rows : List SqliteRow} (above : Above 0 rows) (cursor : Nat) :
    Above cursor (rows.filter fun row => cursor < row.rowid) := by
  refine ⟨above.1.filter _, ?_⟩
  intro row listed
  simpa using (List.mem_filter.mp listed).2

/-- Readable rows are read as as many operations. -/
theorem opsOf_of_readable {rows : List SqliteRow}
    (readable : ∀ row ∈ rows, ∃ op, Op.fromJson row.payload = .ok op) :
    (rows.mapM fun row => Op.fromJson row.payload) = .ok (opsOf rows) ∧
      (opsOf rows).length = rows.length := by
  have each : List.Forall₂ (fun (row : SqliteRow) op => Op.fromJson row.payload = .ok op) rows
      (opsOf rows) := by
    induction rows with
    | nil => exact .nil
    | cons row rows inductionHypothesis =>
        rcases readable row List.mem_cons_self with ⟨op, isOp⟩
        have isSome : opOf row = some op := by
          rw [opOf, isOp]
          rfl
        rw [opsOf, List.filterMap_cons_some isSome]
        exact .cons isOp
          (inductionHypothesis fun other listed => readable other (List.mem_cons_of_mem _ listed))
  exact ⟨mapM_ok_iff.mpr each, each.length_eq.symm⟩

/-- The segments of readable rows have as many operations as rows. -/
theorem opsOf_segments (wellFormed : store.WellFormed) (cursor : Nat) :
    ∀ segment ∈ groupSegments cursor (groups (store.rows.filter fun row => cursor < row.rowid)),
      (∀ row ∈ segment.items, ∃ op, Op.fromJson row.payload = .ok op) := by
  intro segment listed row inside
  apply wellFormed.readable
  have flattened : row ∈ Segment.itemsOf
      (groupSegments cursor (groups (store.rows.filter fun row => cursor < row.rowid))) :=
    List.mem_flatMap.mpr ⟨segment, listed, inside⟩
  rw [itemsOf_groupSegments, groups, List.flatten_splitBy] at flattened
  exact (List.mem_filter.mp flattened).1

theorem segmentsAfter_wide (wellFormed : store.WellFormed) (cursor : Nat) :
    ∀ segment ∈ store.segmentsAfter cursor, 0 < segment.width := by
  intro segment listed
  rcases List.mem_map.mp listed with ⟨rows, isRows, isSegment⟩
  rw [← isSegment]
  refine groupSegments_wide ?_ ?_ rows isRows
  · rw [groups, List.flatten_splitBy]
    exact above_after wellFormed.above cursor
  · intro group isGroup
    exact List.ne_nil_of_mem_splitBy isGroup

/-- Every group of the table has operations. -/
theorem segmentsAfter_present (wellFormed : store.WellFormed) (cursor : Nat) :
    ∀ segment ∈ store.segmentsAfter cursor, segment.items ≠ [] := by
  intro segment listed
  rcases List.mem_map.mp listed with ⟨rows, isRows, isSegment⟩
  have lengths := (opsOf_of_readable (opsOf_segments wellFormed cursor rows isRows)).2
  have present : rows.items ≠ [] := groupSegments_present (fun group isGroup =>
    List.ne_nil_of_mem_splitBy isGroup) rows isRows
  rw [← isSegment]
  intro none
  change opsOf rows.items = [] at none
  rw [none] at lengths
  exact present (List.length_eq_zero_iff.mp lengths.symm)

theorem itemsOf_mapItems (segments : List (Segment SqliteRow)) :
    Segment.itemsOf (segments.map (Segment.mapItems opsOf)) = opsOf (Segment.itemsOf segments) := by
  induction segments with
  | nil => rfl
  | cons segment rest inductionHypothesis =>
      rw [List.map_cons, Segment.itemsOf_cons, inductionHypothesis, Segment.itemsOf_cons]
      simp only [opsOf, Segment.mapItems, List.filterMap_append]

theorem batchesOf_groups {groups : List (List SqliteRow)}
    (present : ∀ group ∈ groups, opsOf group ≠ []) (previous : Nat) :
    Segment.batchesOf ((groupSegments previous groups).map (Segment.mapItems opsOf)) =
      groups.map opsOf := by
  induction groups generalizing previous with
  | nil => rfl
  | cons group rest inductionHypothesis =>
      have present' : (Segment.mapItems opsOf
          ⟨lastRowid group previous - previous, group⟩).items ≠ [] :=
        present group List.mem_cons_self
      rw [groupSegments, List.map_cons, Segment.batchesOf_cons present',
        inductionHypothesis (fun other listed => present other (List.mem_cons_of_mem _ listed))]
      rfl

/-- Reading after a row id returns the next page of the groups behind it. -/
theorem readAfter_page (wellFormed : store.WellFormed) {cursor : Nat}
    (within : cursor ≤ maximum store.rows) :
    ReadsAs (store.readAfter cursor) cursor (store.segmentsAfter cursor) := by
  intro limit positive
  have above : Above cursor (groups (store.rows.filter fun row => cursor < row.rowid)).flatten := by
    rw [groups, List.flatten_splitBy]
    exact above_after wellFormed.above cursor
  rcases read_groups limit (groups (store.rows.filter fun row => cursor < row.rowid)) cursor
    (groups_isGroup _) (groups_apart _) [] [] none (Segment.reached_zero positive) (by simp) with
    ⟨last, stopped, run⟩
  rw [groups, List.flatten_splitBy, ← groups, List.length_nil, List.nil_append,
    List.nil_append] at run
  rcases Segment.page_split (Segment.reached_zero positive) (groupSegments cursor
    (groups (store.rows.filter fun row => cursor < row.rowid))) with ⟨left, split, _⟩
  have samePage : Segment.page limit 0 (store.segmentsAfter cursor) =
      (Segment.page limit 0 (groupSegments cursor
        (groups (store.rows.filter fun row => cursor < row.rowid)))).map
        (Segment.mapItems opsOf) := by
    apply Segment.page_mapItems
    intro segment listed
    exact (opsOf_of_readable (opsOf_segments wellFormed cursor segment listed)).2
  rcases StoreDelta.create_page cursor (Segment.page limit 0 (store.segmentsAfter cursor)) with
    ⟨delta, created, isCursor, ops, batches⟩
  refine ⟨delta, ?_, isCursor, ops, batches⟩
  have readablePage : ∀ segment ∈ Segment.page limit 0 (groupSegments cursor
      (groups (store.rows.filter fun row => cursor < row.rowid))),
      ∀ row ∈ segment.items, ∃ op, Op.fromJson row.payload = .ok op := by
    intro segment listed
    apply opsOf_segments wellFormed cursor
    rw [split]
    exact List.mem_append_left _ listed
  have readable : ∀ row ∈ Segment.itemsOf (Segment.page limit 0 (groupSegments cursor
      (groups (store.rows.filter fun row => cursor < row.rowid)))),
      ∃ op, Op.fromJson row.payload = .ok op := by
    intro row listed
    rcases List.mem_flatMap.mp listed with ⟨segment, onPage, inside⟩
    exact readablePage segment onPage row inside
  -- The cursor of the page is the row id of the last row on it.
  have width : lastRowid (Segment.itemsOf (Segment.page limit 0 (groupSegments cursor
      (groups (store.rows.filter fun row => cursor < row.rowid))))) cursor =
      cursor + Segment.totalWidth (Segment.page limit 0 (groupSegments cursor
        (groups (store.rows.filter fun row => cursor < row.rowid)))) := by
    rcases groupSegments_split split with ⟨front, rest, isSplit, isPage, _⟩
    rw [isSplit, List.flatten_append] at above
    rw [isPage, itemsOf_groupSegments, groupSegments_width above.append.1]
  rw [← created, samePage, itemsOf_mapItems, Segment.totalWidth_mapItems,
    Segment.batchSizes_mapItems fun segment listed =>
      (opsOf_of_readable (readablePage segment listed)).2,
    ← width, readAfter, if_neg positive, if_neg (Nat.not_lt.mpr within)]
  simp only [run]
  rw [bind_of_ok (opsOf_of_readable readable).1]
  rfl

/-- After some segments come the others. -/
theorem segmentsAfter_split (wellFormed : store.WellFormed) {before after : List (Segment Op)}
    (split : store.segmentsAfter 0 = before ++ after) :
    store.segmentsAfter (Segment.totalWidth before) = after ∧
      Segment.totalWidth before ≤ maximum store.rows := by
  have all : (store.rows.filter fun row => 0 < row.rowid) = store.rows := by
    rw [List.filter_eq_self]
    intro row listed
    simpa using wellFormed.positive row listed
  rw [segmentsAfter, all] at split
  rcases List.map_eq_append_iff.mp split with ⟨passed, later, segments, isBefore, isAfter⟩
  rcases groupSegments_split segments with ⟨front, rest, isSplit, isPassed, isLater⟩
  have whole : front.flatten ++ rest.flatten = store.rows := by
    rw [← List.flatten_append, ← isSplit, groups, List.flatten_splitBy]
  have above := wellFormed.above
  rw [← whole] at above
  have width : Segment.totalWidth before = lastRowid front.flatten 0 := by
    rw [← isBefore, Segment.totalWidth_mapItems, isPassed, ← groupSegments_width above.append.1,
      Nat.zero_add]
  have behind : (store.rows.filter fun row => lastRowid front.flatten 0 < row.rowid) =
      rest.flatten := by
    rw [← whole, List.filter_append]
    have passedRows : (front.flatten.filter fun row => lastRowid front.flatten 0 < row.rowid) =
        [] := by
      rw [List.filter_eq_nil_iff]
      intro row listed
      rcases List.append_of_mem listed with ⟨earlier, others, rows⟩
      have aboveFront := above.append.1
      rw [rows, List.append_cons] at aboveFront
      have reaches := (lastRowid_ge aboveFront.append.2).1
      rw [← lastRowid_append, ← List.append_cons, ← rows] at reaches
      have isRow : lastRowid (earlier ++ [row]) 0 = row.rowid := by
        rw [lastRowid_append]
        rfl
      rw [isRow] at reaches
      simpa using reaches
    have laterRows : (rest.flatten.filter fun row => lastRowid front.flatten 0 < row.rowid) =
        rest.flatten := by
      rw [List.filter_eq_self]
      intro row listed
      simpa using above.append.2.2 row listed
    rw [passedRows, laterRows, List.nil_append]
  constructor
  · rw [segmentsAfter, width, behind, groups_suffix isSplit, ← isLater, isAfter]
  · rw [width, maximum_eq wellFormed.above, ← whole, lastRowid_append]
    exact (lastRowid_ge above.append.2).1

/-! ### What a call does to the table -/

omit [Runtime] in
theorem le_maximum {rows : List SqliteRow} {row : SqliteRow} (listed : row ∈ rows) :
    row.rowid ≤ maximum rows := by
  induction rows with
  | nil => cases listed
  | cons head rest inductionHypothesis =>
      change row.rowid ≤ max head.rowid (maximum rest)
      rcases List.mem_cons.mp listed with isHead | later
      · rw [isHead]
        exact le_max_left _ _
      · exact le_trans (inductionHypothesis later) (le_max_right _ _)

/-- The rows that a call has inserted so far. -/
structure Inserted (batchId : String) (rows : List SqliteRow) (done : List Op)
    (state : List SqliteRow × List Bool) (new : List SqliteRow) : Prop where
  rows : state.1 = rows ++ new
  batch : ∀ row ∈ new, row.batchId = some batchId
  ops : opsOf new = (addedOps done state.2).map Op.decoded
  counted : state.2.length = done.length
  wellFormed : WellFormed ⟨state.1⟩

theorem Inserted.step {batchId : String} {rows new : List SqliteRow} {done : List Op}
    {state next : List SqliteRow × List Bool} {op : Op}
    (inserted : Inserted batchId rows done state new)
    (run : insertOp batchId state op = .ok next) :
    ∃ new, Inserted batchId rows (done ++ [op]) next new := by
  unfold insertOp at run
  split at run
  · injection run with run
    have isOp : opOf ⟨maximum state.1 + 1, op.opId, op.toJson, some batchId⟩ =
        some op.decoded := by
      rw [opOf, op.fromJson_toJson]
      rfl
    refine ⟨new ++ [⟨maximum state.1 + 1, op.opId, op.toJson, some batchId⟩], ?_⟩
    rw [← run]
    exact {
      rows := by
        simp only
        rw [inserted.rows, List.append_assoc]
      batch := by
        intro row listed
        rcases List.mem_append.mp listed with earlier | isNew
        · exact inserted.batch row earlier
        · rw [List.mem_singleton.mp isNew]
      ops := by
        have earlier := inserted.ops
        rw [opsOf] at earlier
        rw [addedOps_concat inserted.counted, List.map_append, opsOf, List.filterMap_append,
          earlier, List.filterMap_cons_some isOp]
        rfl
      counted := by simp [inserted.counted]
      wellFormed := {
        rising := by
          apply List.pairwise_append.mpr
          refine ⟨inserted.wellFormed.rising, List.pairwise_singleton _ _, ?_⟩
          intro row listed other isNew
          rw [List.mem_singleton.mp isNew]
          exact Nat.lt_succ_of_le (le_maximum listed)
        positive := by
          intro row listed
          rcases List.mem_append.mp listed with earlier | isNew
          · exact inserted.wellFormed.positive row earlier
          · rw [List.mem_singleton.mp isNew]
            exact Nat.succ_pos _
        readable := by
          intro row listed
          rcases List.mem_append.mp listed with earlier | isNew
          · exact inserted.wellFormed.readable row earlier
          · rw [List.mem_singleton.mp isNew]
            exact ⟨op.decoded, op.fromJson_toJson⟩ } }
  · split at run
    · injection run with run
      refine ⟨new, ?_⟩
      rw [← run]
      exact {
        rows := inserted.rows
        batch := inserted.batch
        ops := by
          rw [addedOps_concat inserted.counted, if_neg (by simp), List.append_nil]
          exact inserted.ops
        counted := by simp [inserted.counted]
        wellFormed := inserted.wellFormed }
    · cases run

/-- A call adds its new operations as one group of rows. -/
theorem appendMany_batches {store' : SQLiteStore} {batchId : String} {ops : List Op}
    {results : List Bool} (wellFormed : store.WellFormed) (named : batchId ≠ "")
    (unused : ∀ row ∈ store.rows, row.batch ≠ batchId)
    (run : store.appendMany batchId ops = .ok (store', results)) :
    store'.WellFormed ∧ (∀ row ∈ store'.rows, row ∈ store.rows ∨ row.batch = batchId) ∧
      store'.batches = store.batches ++ (committedBatch ops results).map (·.map Op.decoded) := by
  unfold appendMany at run
  rcases bind_ok_iff.mp run with ⟨state, inserted, done⟩
  injection done with done
  injection done with isStore isResults
  have holds : ∃ new, Inserted batchId store.rows ops state new := by
    apply foldlM_invariant (fun done (state : List SqliteRow × List Bool) =>
      ∃ new, Inserted batchId store.rows done state new) _ _ _ inserted
    · exact ⟨[], (List.append_nil _).symm, by simp, rfl, rfl, wellFormed⟩
    · intro done op state next kept _ step
      rcases kept with ⟨new, kept⟩
      exact kept.step step
  rcases holds with ⟨new, kept⟩
  have holds := kept.batch
  have ofBatch : OfBatch batchId new := by
    intro row listed
    have kept : truthy (some batchId) = some batchId := by
      rw [truthy, Option.filter_some, if_pos (by simpa using named)]
    rw [SqliteRow.batch, holds row listed, kept]
    rfl
  have committed := kept.ops
  rw [isResults] at committed
  rw [← isStore]
  refine ⟨kept.wellFormed, ?_, ?_⟩
  · intro row listed
    simp only [kept.rows] at listed
    rcases List.mem_append.mp listed with earlier | isNew
    · exact Or.inl earlier
    · exact Or.inr (ofBatch row isNew)
  · by_cases none : new = []
    · have nothing : addedOps ops results = [] := by
        rw [none] at committed
        exact List.map_eq_nil_iff.mp committed.symm
      rw [committedBatch, if_pos nothing, batches, batches]
      simp only [kept.rows, none, List.append_nil, List.map_nil]
    · have added : addedOps ops results ≠ [] := by
        intro nothing
        have readable : ∀ row ∈ new, ∃ op, Op.fromJson row.payload = .ok op := by
          intro row listed
          apply kept.wellFormed.readable
          simp only [kept.rows]
          exact List.mem_append_right _ listed
        have lengths := (opsOf_of_readable readable).2
        rw [committed, nothing] at lengths
        exact none (List.length_eq_zero_iff.mp lengths.symm)
      have chain : new.IsChain fun first second => sameBatch first second = true := by
        apply List.Pairwise.isChain
        apply List.pairwise_of_forall_mem_list
        intro first firstListed second secondListed
        simp [sameBatch, ofBatch first firstListed, ofBatch second secondListed]
      have apart : ∀ last ∈ store.rows.getLast?, ∀ first ∈ new.head?,
          sameBatch last first = false := by
        intro last isLast first isFirst
        rw [sameBatch, ofBatch first (List.mem_of_mem_head? isFirst), decide_eq_false_iff_not]
        exact unused last (List.mem_of_getLast? isLast)
      have split : groups (store.rows ++ new) = groups store.rows ++ [new] := by
        rw [groups, List.splitBy_append apart, List.splitBy_of_isChain none chain]
        rfl
      rw [committedBatch, if_neg added, batches, batches]
      simp only [kept.rows, split, List.map_append, List.map_cons, List.map_nil, committed]

/-! ## Histories -/

/-- The batch ids of the calls are new and differ from each other. -/
structure Fresh (store : SQLiteStore) (calls : List (String × List Op)) : Prop where
  named : ∀ call ∈ calls, call.1 ≠ ""
  distinct : (calls.map Prod.fst).Nodup
  unused : ∀ call ∈ calls, ∀ row ∈ store.rows, row.batch ≠ call.1

/-- The store after some calls, each with its batch id, and the batches of the table at the
start with those committed since. -/
def after (start : SQLiteStore) (calls : List (String × List Op)) :
    SQLiteStore × List (List Op) :=
  runCalls Prod.snd (fun store call => store.appendMany call.1 call.2) calls
    (start, start.batches)

theorem after_readsBack (start : SQLiteStore) (calls : List (String × List Op))
    (wellFormed : start.WellFormed) (fresh : start.Fresh calls) :
    ReadsBack (after start calls).1.readAfter (maximum (after start calls).1.rows)
      (after start calls).2 := by
  have holds : (after start calls).1.WellFormed ∧ Fresh (after start calls).1 [] ∧
      Shows (after start calls).1.batches (after start calls).2 := by
    apply runCalls_invariant (fun later (state : SQLiteStore × List (List Op)) =>
      state.1.WellFormed ∧ state.1.Fresh later ∧ Shows state.1.batches state.2)
    · intro call later store committed store' results run kept
      rcases kept with ⟨wellFormed, fresh, shows⟩
      rcases appendMany_batches wellFormed (fresh.named call List.mem_cons_self)
        (fresh.unused call List.mem_cons_self) run with ⟨stays, rows, batches⟩
      have distinct := List.nodup_cons.mp fresh.distinct
      refine ⟨stays, ⟨fun other listed => fresh.named other (List.mem_cons_of_mem _ listed),
        distinct.2, ?_⟩, ?_⟩
      · intro other listed row isRow
        rcases rows row isRow with old | isNew
        · exact fresh.unused other (List.mem_cons_of_mem _ listed) row old
        · intro same
          apply distinct.1
          rw [← isNew, same]
          exact List.mem_map_of_mem listed
      · simp only
        rw [batches]
        exact shows.append (shows_decoded _)
    · intro call later state kept
      rcases kept with ⟨wellFormed, fresh, shows⟩
      exact ⟨wellFormed, ⟨fun other listed => fresh.named other (List.mem_cons_of_mem _ listed),
        (List.nodup_cons.mp fresh.distinct).2,
        fun other listed => fresh.unused other (List.mem_cons_of_mem _ listed)⟩, shows⟩
    · exact ⟨wellFormed, fresh, .refl _⟩
  rcases holds with ⟨wellFormed, _, shows⟩
  refine ⟨_, shows, ?_⟩
  have all : ((after start calls).1.rows.filter fun row => 0 < row.rowid) =
      (after start calls).1.rows := by
    rw [List.filter_eq_self]
    intro row listed
    simpa using wellFormed.positive row listed
  have width : Segment.totalWidth ((after start calls).1.segmentsAfter 0) =
      maximum (after start calls).1.rows := by
    have above := wellFormed.above
    rw [maximum_eq above, segmentsAfter, Segment.totalWidth_mapItems, all]
    have whole : (groups (after start calls).1.rows).flatten = (after start calls).1.rows :=
      List.flatten_splitBy _ _
    rw [← whole] at above
    have reaches := groupSegments_width above
    rw [whole, Nat.zero_add] at reaches
    exact reaches
  have batches : Segment.batchesOf ((after start calls).1.segmentsAfter 0) =
      (after start calls).1.batches := by
    rw [segmentsAfter, all]
    apply batchesOf_groups
    intro group listed
    cases group with
    | nil => exact absurd listed (List.nil_notMem_splitBy _ _)
    | cons row rest =>
        have inTable : ∀ other ∈ row :: rest, other ∈ (after start calls).1.rows := by
          intro other inside
          rw [← List.flatten_splitBy sameBatch (after start calls).1.rows]
          exact List.mem_flatten_of_mem listed inside
        have lengths := (opsOf_of_readable fun other inside =>
          wellFormed.readable other (inTable other inside)).2
        intro none
        rw [none] at lengths
        cases lengths
  rw [← width, ← batches]
  apply readsInPages_of_stream (segmentsAfter_wide wellFormed 0)
  intro before later split
  rcases segmentsAfter_split wellFormed split with ⟨rest, within⟩
  have page := readAfter_page wellFormed within
  rw [rest] at page
  exact page

end Store

end SQLiteStore

end Statefuse
