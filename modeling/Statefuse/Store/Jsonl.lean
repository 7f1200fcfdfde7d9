import Statefuse.Foundation.JsonBytes
import Statefuse.Foundation.Lines
import Statefuse.Store.Paging
import Statefuse.Text

/-!
# The JSONL store

A file of lines.  A line holds a batch of operations, or a single operation, and any other
line is skipped.  A cursor is a position in the file in bytes; reading after it looks at the
terminated lines that follow.  Appending decodes the whole file in text mode first, to find
out which operations are new.
-/

namespace Statefuse

open Foundation

variable [Runtime]

/-- One item of a batch. -/
def opOfItem (item : JSONValue) : Result Op :=
  match item.asObj? with
  | none => .error (.typeError "object is not subscriptable")
  | some payload => Op.fromDict payload

/-- `_decode_jsonl_batch`: a batch object, or else the object of one operation. -/
def decodeJsonlBatch (payload : List Char) : Result (List Op) := do
  let value ← canonicalJsonLoads (String.ofList payload)
  match value.asObj? with
  | none => valueError "A JSONL operation must be an object."
  | some members =>
      if (members["statefuse_batch"]?.bind JsonValue.asNumber?).any (fun number =>
          number.value = 1) then
        match (getOrNull members "ops").asArr? with
        | none => valueError "A JSONL batch must contain operations."
        | some items =>
            if items = [] then valueError "A JSONL batch must contain operations."
            else items.mapM opOfItem
      else do
        let op ← Op.fromDict members
        return [op]

/-- The bytes that `bytes.strip` removes. -/
def isSpaceByte (byte : UInt8) : Bool := byte = 32 ∨ (9 ≤ byte ∧ byte ≤ 13)

def stripBytes (line : List UInt8) : List UInt8 :=
  ((line.dropWhile isSpaceByte).reverse.dropWhile isSpaceByte).reverse

/-- The operations of a line, unless reading skips it. -/
def lineBatch (line : List UInt8) : Option (List Op) :=
  let payload := stripBytes line
  if payload = [] then none
  else (utf8Decode payload).bind fun text => (decodeJsonlBatch text).toOption

/-- The bytes of the file, if there is one. -/
structure JsonlStore where
  file : Option (List UInt8)

namespace JsonlStore

def isNewline (byte : UInt8) : Bool := byte = 10

/-- What a read has seen of the lines. -/
structure Reading where
  nextCursor : Nat
  ops : List Op
  batchSizes : List Nat
  stopped : Bool

/-- One terminated line of a read. -/
def readLine (limit : Option Nat) (reading : Reading) (line : List UInt8) : Reading :=
  if reading.stopped then reading
  else
    let nextCursor := reading.nextCursor + line.length
    match lineBatch line with
    | none => { reading with nextCursor := nextCursor }
    | some batch =>
        let ops := reading.ops ++ batch
        ⟨nextCursor, ops, reading.batchSizes ++ [batch.length],
          limit.any fun limit => limit ≤ ops.length⟩

def readAfter (store : JsonlStore) (cursor : Nat) (limit : Option Nat) : Result StoreDelta :=
  if limit = some 0 then valueError "Operation read limit must be positive."
  else
    match store.file with
    | none =>
        if cursor ≠ 0 then valueError "JSONL operation cursor is beyond the current file."
        else StoreDelta.create 0 [] []
    | some content =>
        if content.length < cursor then
          valueError "JSONL operation cursor is beyond the current file."
        else
          let reading := (splitAfter isNewline (content.drop cursor)).1.foldl (readLine limit)
            ⟨cursor, [], [], false⟩
          StoreDelta.create reading.nextCursor reading.ops reading.batchSizes

/-- The lines of a file in text mode; the last one need not be terminated. -/
def textLines (text : List Char) : List (List Char) :=
  let split := splitAfter (fun char => char = '\n') (universalNewlines text)
  if split.2 = [] then split.1 else split.1 ++ [split.2]

/-- One line of `iter_ops`. -/
def seeLine (seen : OpLog) (line : List Char) : Result OpLog :=
  let payload := strip line
  if payload = [] then .ok seen
  else
    match decodeJsonlBatch payload with
    | .error _ => .ok seen
    | .ok batch => batch.foldlM (fun seen op => (seen.add op).map Prod.fst) seen

def iterOps (store : JsonlStore) : Result OpLog :=
  match store.file with
  | none => .ok .empty
  | some content =>
      match utf8Decode content with
      | none => valueError "'utf-8' codec can't decode byte"
      | some text => (textLines text).foldlM seeLine .empty

/-- What `append_many` has found out about its operations. -/
structure Appending where
  existing : OpLog
  results : List Bool
  added : List Op

def appendStep (state : Appending) (op : Op) : Result Appending := do
  let (existing, isNew) ← state.existing.add op
  return ⟨existing, state.results ++ [isNew],
    if isNew then state.added ++ [op] else state.added⟩

def batchObject (added : List Op) : JSONObject :=
  objectOf [("statefuse_batch", .number (.int 1)),
    ("ops", .arr (added.map fun op => .obj op.toDict))]

/-- The line of a batch, in ASCII. -/
def batchLine (added : List Op) : List Char :=
  JsonValue.dumps true (.obj (batchObject added)) ++ ['\n']

/-- `_ensure_line_boundary` -/
def ensureLineBoundary (content : List UInt8) : List UInt8 :=
  if content.getLast?.any (fun byte => !isNewline byte) then content ++ [10] else content

def appendMany (store : JsonlStore) (ops : List Op) : Result (JsonlStore × List Bool) := do
  let existing ← store.iterOps
  let state ← ops.foldlM appendStep ⟨existing, [], []⟩
  let written :=
    if state.added = [] then store
    else ⟨some (ensureLineBoundary (store.file.getD []) ++ utf8Encode (batchLine state.added))⟩
  return (written, state.results)

/-! ## Segments -/

def lineSegment (line : List UInt8) : Segment Op := ⟨line.length, (lineBatch line).getD []⟩

/-- The terminated lines from a position on. -/
def segmentsAfter (store : JsonlStore) (cursor : Nat) : List (Segment Op) :=
  (splitAfter isNewline ((store.file.getD []).drop cursor)).1.map lineSegment

/-- The batches of the terminated lines. -/
def batches (store : JsonlStore) : List (List Op) :=
  (splitAfter isNewline (store.file.getD [])).1.filterMap lineBatch

/-- Every line of the file is terminated. -/
def Terminated (store : JsonlStore) : Prop :=
  (splitAfter isNewline (store.file.getD [])).2 = []

theorem decodeJsonlBatch_ne_nil {payload : List Char} {batch : List Op}
    (decoded : decodeJsonlBatch payload = .ok batch) : batch ≠ [] := by
  unfold decodeJsonlBatch at decoded
  rcases bind_ok_iff.mp decoded with ⟨value, _, read⟩
  split at read
  · cases read
  · split at read
    · split at read
      · cases read
      · split at read
        · cases read
        · rename_i present
          intro none
          rw [none] at read
          have each := mapM_ok_iff.mp read
          rw [List.forall₂_nil_right_iff] at each
          exact present each
    · rcases bind_ok_iff.mp read with ⟨op, _, isSingle⟩
      injection isSingle with isSingle
      rw [← isSingle]
      exact List.cons_ne_nil _ _

theorem lineBatch_ne_nil {line : List UInt8} {batch : List Op}
    (decoded : lineBatch line = some batch) : batch ≠ [] := by
  unfold lineBatch at decoded
  simp only at decoded
  split at decoded
  · cases decoded
  · rcases Option.bind_eq_some_iff.mp decoded with ⟨text, _, read⟩
    cases outcome : decodeJsonlBatch text with
    | error raised =>
        rw [outcome] at read
        cases read
    | ok found =>
        rw [outcome] at read
        injection read with read
        rw [← read]
        exact decodeJsonlBatch_ne_nil outcome

theorem segmentsAfter_wide (store : JsonlStore) (cursor : Nat) :
    ∀ segment ∈ store.segmentsAfter cursor, 0 < segment.width := by
  intro segment listed
  rcases List.mem_map.mp listed with ⟨line, isLine, isSegment⟩
  rw [← isSegment]
  exact List.length_pos_iff.mpr (splitAfter_ne_nil _ line isLine)

theorem batchesOf_lines (lines : List (List UInt8)) :
    Segment.batchesOf (lines.map lineSegment) = lines.filterMap lineBatch := by
  induction lines with
  | nil => rfl
  | cons line lines inductionHypothesis =>
      rw [List.map_cons]
      cases shape : lineBatch line with
      | none =>
          rw [Segment.batchesOf_skip (by simp [lineSegment, shape]), inductionHypothesis,
            List.filterMap_cons_none shape]
      | some batch =>
          have present : (lineSegment line).items ≠ [] := by
            simpa [lineSegment, shape] using lineBatch_ne_nil shape
          rw [Segment.batchesOf_cons present, inductionHypothesis,
            List.filterMap_cons_some shape]
          simp [lineSegment, shape]

theorem totalWidth_lines (lines : List (List UInt8)) :
    Segment.totalWidth (lines.map lineSegment) = lines.flatten.length := by
  induction lines with
  | nil => rfl
  | cons line lines inductionHypothesis =>
      rw [List.map_cons, Segment.totalWidth_cons, inductionHypothesis, List.flatten_cons,
        List.length_append]
      rfl

/-- After some segments come the others. -/
theorem segmentsAfter_split {store : JsonlStore} {before after : List (Segment Op)}
    (split : store.segmentsAfter 0 = before ++ after) :
    store.segmentsAfter (Segment.totalWidth before) = after := by
  rcases List.map_eq_append_iff.mp split with ⟨passed, later, lines, isBefore, isAfter⟩
  rw [List.drop_zero] at lines
  rw [← isBefore, totalWidth_lines, segmentsAfter, splitAfter_drop _ passed later lines, ← isAfter]

/-! ## One read -/

omit [Runtime] in
theorem read_lines_stopped [Runtime] {limit : Option Nat} {reading : Reading}
    (stopped : reading.stopped = true) (lines : List (List UInt8)) :
    lines.foldl (readLine limit) reading = reading := by
  induction lines with
  | nil => rfl
  | cons line lines inductionHypothesis =>
      have step : readLine limit reading line = reading := by
        rw [readLine, if_pos stopped]
      rw [List.foldl_cons, step, inductionHypothesis]

/-- A read takes the lines of the next page, one after the other. -/
theorem read_lines (limit : Option Nat) (lines : List (List UInt8)) (cursor : Nat)
    (ops : List Op) (sizes : List Nat) :
    ∃ stopped, lines.foldl (readLine limit) ⟨cursor, ops, sizes, false⟩ =
      ⟨cursor + Segment.totalWidth (Segment.page limit ops.length (lines.map lineSegment)),
        ops ++ Segment.itemsOf (Segment.page limit ops.length (lines.map lineSegment)),
        sizes ++ (Segment.batchesOf
          (Segment.page limit ops.length (lines.map lineSegment))).map List.length, stopped⟩ := by
  induction lines generalizing cursor ops sizes with
  | nil =>
      refine ⟨false, ?_⟩
      simp [Segment.page]
  | cons line lines inductionHypothesis =>
      rw [List.foldl_cons, List.map_cons]
      cases shape : lineBatch line with
      | none =>
          have empty : (lineSegment line).items = [] := by simp [lineSegment, shape]
          have step : readLine limit ⟨cursor, ops, sizes, false⟩ line =
              ⟨cursor + line.length, ops, sizes, false⟩ := by
            simp [readLine, shape]
          have passes : ¬((lineSegment line).items ≠ [] ∧
              Segment.reached limit (ops.length + (lineSegment line).items.length) = true) :=
            fun stops => stops.1 empty
          rw [step, Segment.page_continue passes, Segment.itemsOf_cons, Segment.totalWidth_cons,
            Segment.batchesOf_skip empty, empty, List.length_nil, Nat.add_zero, List.nil_append,
            ← Nat.add_assoc]
          exact inductionHypothesis (cursor + line.length) ops sizes
      | some batch =>
          have items : (lineSegment line).items = batch := by simp [lineSegment, shape]
          have present : (lineSegment line).items ≠ [] := by
            rw [items]
            exact lineBatch_ne_nil shape
          have step : readLine limit ⟨cursor, ops, sizes, false⟩ line =
              ⟨cursor + line.length, ops ++ batch, sizes ++ [batch.length],
                Segment.reached limit (ops ++ batch).length⟩ := by
            simp [readLine, shape, Segment.reached]
          rw [step]
          by_cases isReached : Segment.reached limit (ops ++ batch).length = true
          · refine ⟨true, ?_⟩
            rw [isReached, read_lines_stopped rfl, Segment.page_stop present (by
              rw [items, ← List.length_append]
              exact isReached)]
            simp [Segment.batchesOf_cons present, items]
            rfl
          · rw [Bool.not_eq_true] at isReached
            rcases inductionHypothesis (cursor + line.length) (ops ++ batch)
              (sizes ++ [batch.length]) with ⟨stopped, run⟩
            refine ⟨stopped, ?_⟩
            rw [isReached, run, Segment.page_continue (by
              rw [items, ← List.length_append, isReached]
              simp), Segment.itemsOf_cons, Segment.totalWidth_cons, Segment.batchesOf_cons present,
              items, List.length_append, List.map_cons, List.append_assoc, List.append_assoc,
              ← Nat.add_assoc]
            rfl

/-- Reading after any position in the file returns the next page of the lines behind it. -/
theorem readAfter_page (store : JsonlStore) {cursor : Nat}
    (within : cursor ≤ (store.file.getD []).length) :
    ReadsAs (store.readAfter cursor) cursor (store.segmentsAfter cursor) := by
  intro limit positive
  rcases StoreDelta.create_page cursor (Segment.page limit 0 (store.segmentsAfter cursor)) with
    ⟨delta, created, isCursor, ops, batches⟩
  refine ⟨delta, ?_, isCursor, ops, batches⟩
  rw [← created, readAfter, if_neg positive]
  cases shape : store.file with
  | none =>
      rw [shape] at within
      have atStart : cursor = 0 := Nat.le_zero.mp within
      simp [atStart, segmentsAfter, shape, splitAfter, Segment.page]
  | some content =>
      rw [shape, Option.getD_some] at within
      rcases read_lines limit (splitAfter isNewline (content.drop cursor)).1 cursor [] [] with
        ⟨stopped, run⟩
      rw [List.length_nil] at run
      simp only
      rw [if_neg (Nat.not_lt.mpr within), run]
      simp [segmentsAfter, shape]

/-! ## Reading back a line -/

theorem opOfItem_toDict (op : Op) : opOfItem (.obj op.toDict) = .ok op.decoded := by
  rw [opOfItem, JsonValue.asObj_obj]
  exact op.fromDict_toDict

/-- The object of a batch is read back as its operations. -/
theorem decode_batch {added : List Op} (present : added ≠ []) :
    decodeJsonlBatch (JsonValue.dumps true (.obj (batchObject added))) =
      .ok (added.map Op.decoded) := by
  have loaded : canonicalJsonLoads
      (String.ofList (JsonValue.dumps true (.obj (batchObject added)))) =
      .ok (.obj (batchObject added)) := by
    rw [canonicalJsonLoads, String.toList_ofList, loads_dumps]
  have version : (batchObject added)["statefuse_batch"]? = some (.number (.int 1)) :=
    (get_objectOf _ _).trans rfl
  have items : getOrNull (batchObject added) "ops" =
      .arr (added.map fun op => .obj op.toDict) := by
    simp [getOrNull, batchObject, get_objectOf]
  have each : (added.map fun op => JsonValue.obj op.toDict).mapM opOfItem =
      .ok (added.map Op.decoded) := by
    rw [mapM_ok_iff]
    rw [List.forall₂_map_left_iff, List.forall₂_map_right_iff]
    apply List.forall₂_same.mpr
    intro op _
    exact opOfItem_toDict op
  have one : (PyNumber.int 1).value = 1 := by simp [PyNumber.value]
  rw [decodeJsonlBatch, bind_of_ok loaded, JsonValue.asObj_obj]
  simp only [version, items, JsonValue.asArr_arr, Option.bind_some]
  rw [if_pos (by simp [JsonValue.asNumber?, JsonValue.number, one]),
    if_neg (by simpa using present)]
  exact each

omit [Runtime] in
/-- Stripping takes the newline from a line that neither starts nor ends with white space. -/
theorem stripBytes_line {first last : UInt8} (middle : List UInt8)
    (starts : isSpaceByte first = false) (ends : isSpaceByte last = false) :
    stripBytes (first :: (middle ++ [last]) ++ [10]) = first :: (middle ++ [last]) := by
  have newline : isSpaceByte 10 = true := by decide
  have front : (first :: (middle ++ [last]) ++ [10]).dropWhile isSpaceByte =
      first :: (middle ++ [last]) ++ [10] := by
    rw [List.cons_append, List.dropWhile_cons_of_neg (by rw [starts]; simp)]
  have back : (first :: (middle ++ [last]) ++ [10]).reverse =
      10 :: last :: (middle.reverse ++ [first]) := by simp
  rw [stripBytes, front, back, List.dropWhile_cons_of_pos newline,
    List.dropWhile_cons_of_neg (by rw [ends]; simp)]
  simp

/-- The bytes of a batch without the newline. -/
def batchBytes (added : List Op) : List UInt8 :=
  utf8Encode (JsonValue.dumps true (.obj (batchObject added)))

theorem utf8Encode_batchLine (added : List Op) :
    utf8Encode (batchLine added) = batchBytes added ++ [10] := by
  rw [batchLine, batchBytes, utf8Encode, List.flatMap_append]
  rfl

theorem batchBytes_eq (added : List Op) :
    batchBytes added =
      (JsonValue.dumps true (.obj (batchObject added))).map fun char => char.val.toUInt8 :=
  utf8Encode_printable (text_printable _)

/-- No byte of a batch is a newline. -/
theorem batchBytes_plain (added : List Op) :
    ∀ byte ∈ batchBytes added, isNewline byte = false := by
  intro byte listed
  rw [batchBytes_eq] at listed
  rcases List.mem_map.mp listed with ⟨char, written, isByte⟩
  rcases text_printable _ char written with ⟨above, below⟩
  have value : byte.toNat = char.toNat := by
    rw [← isByte]
    change char.toNat % 256 = char.toNat
    omega
  rw [isNewline, decide_eq_false_iff_not]
  intro newline
  rw [newline] at value
  change 10 = char.toNat at value
  omega

omit [Runtime] in
/-- The text of an object stands in braces. -/
theorem dumps_obj (members : JSONObject) :
    ∃ middle, JsonValue.dumps true (.obj members) = '{' :: (middle ++ ['}']) := by
  refine ⟨Json.membersText true (members.toList.map fun entry => (entry.1, entry.2.1)), ?_⟩
  change Json.text true (.obj _) = _
  rw [Json.text]

/-- The line of a batch is read back as its operations. -/
theorem lineBatch_batch {added : List Op} (present : added ≠ []) :
    lineBatch (batchBytes added ++ [10]) = some (added.map Op.decoded) := by
  have shape : ∃ middle, batchBytes added = 123 :: (middle ++ [125]) := by
    rcases dumps_obj (batchObject added) with ⟨middle, isText⟩
    rw [batchBytes_eq, isText, List.map_cons, List.map_append]
    exact ⟨middle.map fun char => char.val.toUInt8, rfl⟩
  have stripped : stripBytes (batchBytes added ++ [10]) = batchBytes added := by
    rcases shape with ⟨middle, isBytes⟩
    rw [isBytes]
    exact stripBytes_line middle (by decide) (by decide)
  have some : batchBytes added ≠ [] := by
    rcases shape with ⟨middle, isBytes⟩
    rw [isBytes]
    exact List.cons_ne_nil _ _
  rw [lineBatch]
  simp only [stripped]
  rw [if_neg some, batchBytes, utf8Decode_encode, Option.bind_some, decode_batch present]
  rfl

/-- The operations that a call adds are those whose results say so. -/
theorem append_added {ops : List Op} {existing : OpLog} {state : Appending}
    (run : ops.foldlM appendStep ⟨existing, [], []⟩ = .ok state) :
    state.added = addedOps ops state.results := by
  have kept : state.results.length = ops.length ∧ state.added = addedOps ops state.results := by
    apply foldlM_invariant (fun done (state : Appending) =>
      state.results.length = done.length ∧ state.added = addedOps done state.results) _ _ _ run
    · exact ⟨rfl, rfl⟩
    · intro done op state next kept _ step
      rcases kept with ⟨lengths, isAdded⟩
      rcases bind_ok_iff.mp step with ⟨outcome, _, done⟩
      injection done with done
      rw [← done]
      refine ⟨by simp [lengths], ?_⟩
      simp only [isAdded, addedOps, List.zip_append lengths.symm, List.filter_append,
        List.map_append]
      cases outcome.2 <;> simp
  exact kept.2

omit [Runtime] in
/-- A file of terminated lines needs no boundary. -/
theorem ensureLineBoundary_of_terminated {content : List UInt8}
    (terminated : (splitAfter isNewline content).2 = []) :
    ensureLineBoundary content = content := by
  have last := splitAfter_last content terminated
  rw [ensureLineBoundary]
  apply if_neg
  cases shape : content.getLast? with
  | none => simp
  | some byte => simp [last byte shape]

theorem appendMany_batches {store store' : JsonlStore} {ops : List Op} {results : List Bool}
    (terminated : store.Terminated) (run : store.appendMany ops = .ok (store', results)) :
    store'.Terminated ∧
      store'.batches = store.batches ++ (committedBatch ops results).map (·.map Op.decoded) := by
  unfold appendMany at run
  rcases bind_ok_iff.mp run with ⟨existing, _, run⟩
  rcases bind_ok_iff.mp run with ⟨state, appended, done⟩
  injection done with done
  injection done with isStore isResults
  have added := append_added appended
  rw [isResults] at added
  rw [← isStore, committedBatch, ← added]
  by_cases none : state.added = []
  · rw [if_pos none, if_pos none, List.map_nil, List.append_nil]
    exact ⟨terminated, rfl⟩
  · rw [if_neg none, if_neg none]
    have lines : splitAfter isNewline (ensureLineBoundary (store.file.getD []) ++
        utf8Encode (batchLine state.added)) =
        ((splitAfter isNewline (store.file.getD [])).1 ++ [batchBytes state.added ++ [10]],
          []) := by
      rw [ensureLineBoundary_of_terminated terminated, utf8Encode_batchLine,
        splitAfter_append _ _ terminated,
        splitAfter_line (batchBytes_plain state.added) (by decide) []]
      rfl
    rw [Terminated, JsonlStore.batches, JsonlStore.batches, Option.getD_some, lines]
    refine ⟨rfl, ?_⟩
    rw [List.filterMap_append, List.filterMap_cons_some (lineBatch_batch none)]
    rfl

/-- The store after some calls, with the batches of the file at the start and those committed
since. -/
def after (start : JsonlStore) (calls : List (List Op)) : JsonlStore × List (List Op) :=
  runCalls id appendMany calls (start, start.batches)

/-- Whatever terminated lines a file starts with and whatever calls append to it, reading it
page by page returns the batches of its lines and what the calls have committed. -/
theorem after_readsBack (start : JsonlStore) (calls : List (List Op))
    (terminated : start.Terminated) :
    ReadsBack (after start calls).1.readAfter ((after start calls).1.file.getD []).length
      (after start calls).2 := by
  have holds : (after start calls).1.Terminated ∧
      Shows (after start calls).1.batches (after start calls).2 := by
    apply runCalls_invariant (fun _ (state : JsonlStore × List (List Op)) =>
      state.1.Terminated ∧ Shows state.1.batches state.2)
    · intro call _ store committed store' results run kept
      rcases appendMany_batches kept.1 run with ⟨stays, batches⟩
      refine ⟨stays, ?_⟩
      simp only
      rw [batches]
      exact kept.2.append (shows_decoded _)
    · intro _ _ _ kept
      exact kept
    · exact ⟨terminated, .refl _⟩
  rcases holds with ⟨stays, shows⟩
  refine ⟨_, shows, ?_⟩
  have width : Segment.totalWidth ((after start calls).1.segmentsAfter 0) =
      ((after start calls).1.file.getD []).length := by
    have whole : (splitAfter isNewline ((after start calls).1.file.getD [])).1.flatten ++
        (splitAfter isNewline ((after start calls).1.file.getD [])).2 =
        (after start calls).1.file.getD [] := splitAfter_flatten _
    rw [stays, List.append_nil] at whole
    rw [segmentsAfter, List.drop_zero, totalWidth_lines, whole]
  have batches : Segment.batchesOf ((after start calls).1.segmentsAfter 0) =
      (after start calls).1.batches := by
    rw [segmentsAfter, List.drop_zero, batchesOf_lines]
    rfl
  rw [← width, ← batches]
  apply readsInPages_of_stream (segmentsAfter_wide _ 0)
  intro before later split
  have within : Segment.totalWidth before ≤ ((after start calls).1.file.getD []).length := by
    rw [← width, split, Segment.totalWidth_append]
    exact Nat.le_add_right _ _
  have page := readAfter_page (after start calls).1 within
  rw [segmentsAfter_split split] at page
  exact page

end JsonlStore

end Statefuse
