import Statefuse.Store.Books

/-!
# Positions of a log

A replica keeps its log in an in-memory store or in a SQLite store.  Either gives every
operation a position, and appending leaves the positions as they are.  A page holds what stands
at the positions that it spans.
-/

namespace Statefuse

open Foundation

variable [Runtime]

/-- The log of a replica. -/
inductive LogStore where
  | inMemory (store : InMemoryStore)
  | sqlite (store : SQLiteStore)

namespace LogStore

def readAfter : LogStore → Nat → Option Nat → Result StoreDelta
  | .inMemory store => store.readAfter
  | .sqlite store => store.readAfter

def append (batchId : String) (op : Op) : LogStore → Result (LogStore × Bool)
  | .inMemory store => do
      let (next, isNew) ← store.append op
      return (.inMemory next, isNew)
  | .sqlite store => do
      let (next, flags) ← store.appendMany batchId [op]
      return (.sqlite next, flags.headD false)

def appendMany (batchId : String) (ops : List Op) : LogStore → Result (LogStore × List Bool)
  | .inMemory store => do
      let (next, flags) ← store.appendMany ops
      return (.inMemory next, flags)
  | .sqlite store => do
      let (next, flags) ← store.appendMany batchId ops
      return (.sqlite next, flags)

/-- `find_ops` for one id. -/
def find (opId : String) : LogStore → Result (Option Op)
  | .inMemory store => .ok store.oplog.ops[opId]?
  | .sqlite store =>
      match store.rows.find? fun row => row.opId = opId with
      | none => .ok none
      | some row => (Op.fromJson row.payload).map some

/-- The operation stands at the position. -/
def At : LogStore → Nat → Op → Prop
  | .inMemory store, position, op => store.appendOrder[position]? = some op
  | .sqlite store, position, op =>
      ∃ row ∈ store.rows, row.rowid = position + 1 ∧ Op.fromJson row.payload = .ok op

/-- The end of the stream. -/
def stop : LogStore → Nat
  | .inMemory store => store.appendOrder.length
  | .sqlite store => SQLiteStore.maximum store.rows

/-- The operation is one of the log. -/
def Logged : LogStore → Op → Prop
  | .inMemory store, op => op ∈ store.oplog.iterOps
  | .sqlite store, op => ∃ row ∈ store.rows, Op.fromJson row.payload = .ok op

/-- The stream and the log of a store belong together. -/
def Sound : LogStore → Prop
  | .inMemory store => store.WellFormed ∧ ∀ op, op ∈ store.oplog.iterOps ↔ op ∈ store.appendOrder
  | .sqlite store => store.WellFormed

/-- The log holds an operation that equals this one. -/
def Holds (store : LogStore) (op : Op) : Prop := ∃ held, store.Logged held ∧ pyEq held op = true

/-- What appending to a store keeps. -/
structure Grows (store next : LogStore) : Prop where
  kept : ∀ position op, store.At position op → next.At position op
  settled : ∀ position op, position < store.stop → next.At position op → store.At position op
  longer : store.stop ≤ next.stop
  logged : ∀ op, store.Logged op → next.Logged op

/-- What appending some operations does. -/
structure Takes (store next : LogStore) (ops : List Op) : Prop where
  sound : next.Sound
  grows : store.Grows next
  holds : ∀ op ∈ ops, next.Holds op
  origin : ∀ op, next.Logged op → store.Logged op ∨ ∃ source ∈ ops, pyEq op source = true

theorem Grows.refl (store : LogStore) : store.Grows store :=
  ⟨fun _ _ here => here, fun _ _ _ here => here, le_refl _, fun _ here => here⟩

theorem Grows.holds {store next : LogStore} (grows : store.Grows next) {op : Op}
    (holds : store.Holds op) : next.Holds op := by
  rcases holds with ⟨held, logged, same⟩
  exact ⟨held, grows.logged held logged, same⟩

/-! ## The in-memory store -/

section Memory

variable {store : InMemoryStore}

/-- Committing new operations of a log that holds no others. -/
theorem commit_takes (sound : Sound (.inMemory store)) {oplog : OpLog} {added ops : List Op}
    (members : ∀ op, op ∈ oplog.iterOps ↔ op ∈ store.oplog.iterOps ∨ op ∈ added)
    (listed : ∀ op ∈ added, op ∈ ops)
    (held : ∀ op ∈ ops, ∃ stored ∈ oplog.iterOps, pyEq stored op = true) :
    Takes (.inMemory store) (.inMemory (store.commit oplog added)) ops := by
  have order : (store.commit oplog added).appendOrder = store.appendOrder ++ added := by
    unfold InMemoryStore.commit
    split
    · rename_i none
      rw [none, List.append_nil]
    · rfl
  have isLog := InMemoryStore.commit_oplog store oplog added
  refine ⟨⟨InMemoryStore.commit_wellFormed sound.1 oplog added, ?_⟩, ⟨?_, ?_, ?_, ?_⟩, ?_, ?_⟩
  · intro op
    rw [isLog, order, members op, sound.2 op, List.mem_append]
  · intro position op here
    change store.appendOrder[position]? = some op at here
    change (store.commit oplog added).appendOrder[position]? = some op
    have inside := (List.getElem?_eq_some_iff.mp here).1
    rw [order, List.getElem?_append_left inside]
    exact here
  · intro position op below here
    change (store.commit oplog added).appendOrder[position]? = some op at here
    change store.appendOrder[position]? = some op
    rw [order, List.getElem?_append_left below] at here
    exact here
  · change store.appendOrder.length ≤ (store.commit oplog added).appendOrder.length
    rw [order, List.length_append]
    exact Nat.le_add_right _ _
  · intro op here
    change op ∈ (store.commit oplog added).oplog.iterOps
    rw [isLog, members op]
    exact Or.inl here
  · intro op isOp
    rcases held op isOp with ⟨stored, isStored, same⟩
    refine ⟨stored, ?_, same⟩
    change stored ∈ (store.commit oplog added).oplog.iterOps
    rw [isLog]
    exact isStored
  · intro op here
    change op ∈ (store.commit oplog added).oplog.iterOps at here
    rw [isLog, members op] at here
    rcases here with old | isNew
    · exact Or.inl old
    · exact Or.inr ⟨op, listed op isNew, pyEq_refl op⟩

theorem memory_append_takes (sound : Sound (.inMemory store)) {op : Op} {next : InMemoryStore}
    {isNew : Bool} (run : store.append op = .ok (next, isNew)) :
    Takes (.inMemory store) (.inMemory next) [op] := by
  rw [InMemoryStore.append] at run
  rcases bind_ok_iff.mp run with ⟨outcome, isOutcome, done⟩
  injection done with done
  injection done with isNext _
  rw [← isNext]
  rw [OpLog.add] at isOutcome
  cases shape : store.oplog.ops[op.opId]? with
  | none =>
      rw [shape] at isOutcome
      injection isOutcome with isOutcome
      rw [← isOutcome]
      have members : ∀ other, other ∈ (store.oplog.insert op).iterOps ↔
          other ∈ store.oplog.iterOps ∨ other ∈ [op] := by
        intro other
        rw [OpLog.mem_insert shape other, List.mem_singleton]
      apply commit_takes sound members
      · intro other listed
        exact listed
      · intro other listed
        rw [List.mem_singleton.mp listed]
        exact ⟨op, (members op).mpr (Or.inr (List.mem_singleton_self op)), pyEq_refl op⟩
  | some existing =>
      rw [shape] at isOutcome
      by_cases equal : pyEq existing op = true
      · simp only [if_pos equal] at isOutcome
        injection isOutcome with isOutcome
        rw [← isOutcome]
        apply commit_takes sound
        · intro other
          simp
        · intro other listed
          cases listed
        · intro other listed
          rw [List.mem_singleton.mp listed]
          have isId := store.oplog.keyed op.opId existing shape
          refine ⟨existing, (store.oplog.mem_iterOps existing).mpr ?_, equal⟩
          rw [isId]
          exact shape
      · simp only [if_neg equal] at isOutcome
        cases isOutcome

/-- What `add_many` has found so far. -/
structure Pending (log : OpLog) (done : List Op) (state : OpLog × List Bool) : Prop where
  counted : state.2.length = done.length
  members : ∀ op, op ∈ state.1.iterOps ↔ op ∈ addedOps done state.2
  fresh : ∀ op ∈ state.1.iterOps, log.ops[op.opId]? = none
  held : ∀ op ∈ done, ∃ stored, (stored ∈ state.1.iterOps ∨ stored ∈ log.iterOps) ∧
    pyEq stored op = true

theorem Pending.step {log : OpLog} {done : List Op} {state next : OpLog × List Bool} {op : Op}
    (pending : Pending log done state) (run : log.addManyStep state op = .ok next) :
    Pending log (done ++ [op]) next := by
  unfold OpLog.addManyStep at run
  split at run
  · rename_i unknown
    injection run with run
    rcases Option.or_eq_none_iff.mp unknown with ⟨notPending, notLogged⟩
    rw [← run]
    have members : ∀ other, other ∈ (state.1.insert op).iterOps ↔
        other ∈ state.1.iterOps ∨ other = op := OpLog.mem_insert notPending
    refine ⟨by simp [pending.counted], ?_, ?_, ?_⟩
    · intro other
      rw [members other, addedOps_concat pending.counted, pending.members other]
      simp
    · intro other listed
      rcases (members other).mp listed with older | isOp
      · exact pending.fresh other older
      · rw [isOp]
        exact notLogged
    · intro other listed
      rcases List.mem_append.mp listed with earlier | isOp
      · rcases pending.held other earlier with ⟨stored, known, same⟩
        exact ⟨stored, known.imp_left fun older => (members stored).mpr (Or.inl older), same⟩
      · rw [List.mem_singleton.mp isOp]
        exact ⟨op, Or.inl ((members op).mpr (Or.inr rfl)), pyEq_refl op⟩
  · rename_i existing known
    split at run
    · rename_i equal
      injection run with run
      rw [← run]
      refine ⟨by simp [pending.counted], ?_, pending.fresh, ?_⟩
      · intro other
        rw [addedOps_concat pending.counted, pending.members other]
        simp
      · intro other listed
        rcases List.mem_append.mp listed with earlier | isOp
        · exact pending.held other earlier
        · rw [List.mem_singleton.mp isOp]
          refine ⟨existing, ?_, equal⟩
          rcases Option.or_eq_some_iff.mp known with found | ⟨_, found⟩
          · have isId := state.1.keyed op.opId existing found
            refine Or.inl ((state.1.mem_iterOps existing).mpr ?_)
            rw [isId]
            exact found
          · have isId := log.keyed op.opId existing found
            refine Or.inr ((log.mem_iterOps existing).mpr ?_)
            rw [isId]
            exact found
    · cases run

theorem memory_appendMany_takes (sound : Sound (.inMemory store)) {ops : List Op}
    {next : InMemoryStore} {flags : List Bool} (run : store.appendMany ops = .ok (next, flags)) :
    Takes (.inMemory store) (.inMemory next) ops := by
  rw [InMemoryStore.appendMany] at run
  rcases bind_ok_iff.mp run with ⟨outcome, isOutcome, done⟩
  injection done with done
  injection done with isNext _
  rw [← isNext]
  rw [OpLog.addMany] at isOutcome
  rcases bind_ok_iff.mp isOutcome with ⟨state, folded, done⟩
  injection done with done
  have start : Pending store.oplog [] (.empty, []) := by
    refine ⟨rfl, ?_, ?_, ?_⟩
    · intro op
      rw [OpLog.mem_iterOps]
      simp [OpLog.empty, addedOps]
    · intro op listed
      rw [OpLog.mem_iterOps] at listed
      simp [OpLog.empty] at listed
    · intro op listed
      cases listed
  have pending : Pending store.oplog ops state :=
    foldlM_invariant (Pending store.oplog) ops _ _ folded start
      fun _ _ _ _ pending _ stepped => pending.step stepped
  have members : ∀ op, op ∈ outcome.1.iterOps ↔
      op ∈ store.oplog.iterOps ∨ op ∈ addedOps ops outcome.2 := by
    intro op
    rw [← done, ← pending.members op, OpLog.mem_iterOps, OpLog.get_update, Option.or_eq_some_iff,
      ← OpLog.mem_iterOps, ← OpLog.mem_iterOps]
    constructor
    · rintro (isNew | ⟨_, older⟩)
      · exact Or.inr isNew
      · exact Or.inl older
    · rintro (older | isNew)
      · refine Or.inr ⟨?_, older⟩
        rw [Option.eq_none_iff_forall_ne_some]
        intro other found
        have isId := state.1.keyed op.opId other found
        have fresh := pending.fresh other ((state.1.mem_iterOps other).mpr (by rw [isId, found]))
        rw [isId, (store.oplog.mem_iterOps op).mp older] at fresh
        cases fresh
      · exact Or.inl isNew
  apply commit_takes sound members
  · intro op listed
    rcases List.mem_map.mp listed with ⟨entry, isEntry, isOp⟩
    rw [← isOp]
    exact (List.of_mem_zip (List.mem_filter.mp isEntry).1).1
  · intro op listed
    rcases pending.held op listed with ⟨stored, known, same⟩
    refine ⟨stored, (members stored).mpr ?_, same⟩
    rw [← done]
    rcases known with isNew | older
    · exact Or.inr ((pending.members stored).mp isNew)
    · exact Or.inl older

end Memory

/-! ## The SQLite store -/

section Sqlite

variable {store : SQLiteStore}

omit [Runtime] in
theorem maximum_le {rows : List SqliteRow} {bound : Nat}
    (within : ∀ row ∈ rows, row.rowid ≤ bound) : SQLiteStore.maximum rows ≤ bound := by
  induction rows with
  | nil => exact Nat.zero_le _
  | cons row rows inductionHypothesis =>
      change max row.rowid (SQLiteStore.maximum rows) ≤ bound
      exact max_le (within row List.mem_cons_self)
        (inductionHypothesis fun other listed => within other (List.mem_cons_of_mem _ listed))

/-- What a call has done to the table so far. -/
structure Written (rows : List SqliteRow) (done : List Op) (now : List SqliteRow) : Prop where
  kept : ∀ row ∈ rows, row ∈ now
  written : ∀ op ∈ done, ∃ row ∈ now, row.payload = op.toJson
  origin : ∀ row ∈ now, row ∈ rows ∨
    SQLiteStore.maximum rows < row.rowid ∧ ∃ op ∈ done, row.payload = op.toJson

theorem Written.step {batchId : String} {rows : List SqliteRow} {done : List Op}
    {state next : List SqliteRow × List Bool} {op : Op} (written : Written rows done state.1)
    (run : SQLiteStore.insertOp batchId state op = .ok next) :
    Written rows (done ++ [op]) next.1 := by
  have origin : ∀ row ∈ state.1, row ∈ rows ∨
      SQLiteStore.maximum rows < row.rowid ∧ ∃ other ∈ done ++ [op],
        row.payload = other.toJson := by
    intro row listed
    rcases written.origin row listed with older | ⟨beyond, other, isOther, text⟩
    · exact Or.inl older
    · exact Or.inr ⟨beyond, other, List.mem_append_left _ isOther, text⟩
  unfold SQLiteStore.insertOp at run
  split at run
  · injection run with run
    rw [← run]
    refine ⟨fun row listed => List.mem_append_left _ (written.kept row listed), ?_, ?_⟩
    · intro other listed
      rcases List.mem_append.mp listed with earlier | isOp
      · rcases written.written other earlier with ⟨row, isRow, text⟩
        exact ⟨row, List.mem_append_left _ isRow, text⟩
      · rw [List.mem_singleton.mp isOp]
        exact ⟨_, List.mem_append_right _ (List.mem_singleton_self _), rfl⟩
    · intro row listed
      rcases List.mem_append.mp listed with older | isNew
      · exact origin row older
      · rw [List.mem_singleton.mp isNew]
        refine Or.inr ⟨?_, op, by simp, rfl⟩
        apply Nat.lt_succ_of_le
        exact maximum_le fun row listed => SQLiteStore.le_maximum (written.kept row listed)
  · rename_i row found
    split at run
    · rename_i text
      injection run with run
      rw [← run]
      refine ⟨written.kept, ?_, origin⟩
      intro other listed
      rcases List.mem_append.mp listed with earlier | isOp
      · exact written.written other earlier
      · rw [List.mem_singleton.mp isOp]
        exact ⟨row, List.mem_of_find?_eq_some found, text⟩
    · cases run

theorem sqlite_appendMany_takes (sound : Sound (.sqlite store)) {batchId : String} {ops : List Op}
    {next : SQLiteStore} {flags : List Bool}
    (run : store.appendMany batchId ops = .ok (next, flags)) :
    Takes (.sqlite store) (.sqlite next) ops := by
  rw [SQLiteStore.appendMany] at run
  rcases bind_ok_iff.mp run with ⟨state, folded, done⟩
  injection done with done
  injection done with isNext _
  rw [← isNext]
  have inserted : ∃ new, SQLiteStore.Inserted batchId store.rows ops state new := by
    apply foldlM_invariant (fun done (state : List SqliteRow × List Bool) =>
      ∃ new, SQLiteStore.Inserted batchId store.rows done state new) _ _ _ folded
    · exact ⟨[], (List.append_nil _).symm, by simp, rfl, rfl, sound⟩
    · intro done op state next kept _ step
      rcases kept with ⟨new, kept⟩
      exact kept.step step
  rcases inserted with ⟨new, inserted⟩
  have written : Written store.rows ops state.1 := by
    apply foldlM_invariant (fun done (state : List SqliteRow × List Bool) =>
      Written store.rows done state.1) _ _ _ folded
    · exact ⟨fun _ listed => listed, by simp, fun _ listed => Or.inl listed⟩
    · intro done op state next written _ step
      exact written.step step
  refine ⟨inserted.wellFormed, ⟨?_, ?_, ?_, ?_⟩, ?_, ?_⟩
  · rintro position op ⟨row, listed, isPosition, read⟩
    exact ⟨row, written.kept row listed, isPosition, read⟩
  · rintro position op below ⟨row, listed, isPosition, read⟩
    rcases written.origin row listed with older | ⟨beyond, _⟩
    · exact ⟨row, older, isPosition, read⟩
    · have below : position < SQLiteStore.maximum store.rows := below
      omega
  · exact maximum_le fun row listed => SQLiteStore.le_maximum (written.kept row listed)
  · rintro op ⟨row, listed, read⟩
    exact ⟨row, written.kept row listed, read⟩
  · intro op listed
    rcases written.written op listed with ⟨row, isRow, text⟩
    exact ⟨op.decoded, ⟨row, isRow, by rw [text, op.fromJson_toJson]⟩, op.decoded_equal⟩
  · rintro op ⟨row, listed, read⟩
    rcases written.origin row listed with older | ⟨_, source, isSource, text⟩
    · exact Or.inl ⟨row, older, read⟩
    · rw [text, source.fromJson_toJson] at read
      injection read with read
      rw [← read]
      exact Or.inr ⟨source, isSource, source.decoded_equal⟩

end Sqlite

variable {store next : LogStore}

/-- Appending takes its operations. -/
theorem appendMany_takes (sound : store.Sound) {batchId : String} {ops : List Op}
    {flags : List Bool} (run : store.appendMany batchId ops = .ok (next, flags)) :
    store.Takes next ops := by
  cases store with
  | inMemory store =>
      rcases bind_ok_iff.mp run with ⟨outcome, isOutcome, done⟩
      injection done with done
      injection done with isNext _
      rw [← isNext]
      exact memory_appendMany_takes sound isOutcome
  | sqlite store =>
      rcases bind_ok_iff.mp run with ⟨outcome, isOutcome, done⟩
      injection done with done
      injection done with isNext _
      rw [← isNext]
      exact sqlite_appendMany_takes sound isOutcome

theorem append_takes (sound : store.Sound) {batchId : String} {op : Op} {isNew : Bool}
    (run : store.append batchId op = .ok (next, isNew)) : store.Takes next [op] := by
  cases store with
  | inMemory store =>
      rcases bind_ok_iff.mp run with ⟨outcome, isOutcome, done⟩
      injection done with done
      injection done with isNext _
      rw [← isNext]
      exact memory_append_takes sound isOutcome
  | sqlite store =>
      rcases bind_ok_iff.mp run with ⟨outcome, isOutcome, done⟩
      injection done with done
      injection done with isNext _
      rw [← isNext]
      exact sqlite_appendMany_takes sound isOutcome

/-- What is found is in the log. -/
theorem find_logged {opId : String} {op : Op} (found : store.find opId = .ok (some op)) :
    store.Logged op := by
  cases store with
  | inMemory store =>
      have found : store.oplog.ops[opId]? = some op := Except.ok.inj found
      have isId := store.oplog.keyed opId op found
      exact (store.oplog.mem_iterOps op).mpr (by rw [isId]; exact found)
  | sqlite store =>
      rw [find] at found
      cases shape : store.rows.find? fun row => row.opId = opId with
      | none =>
          rw [shape] at found
          cases found
      | some row =>
          rw [shape] at found
          rcases map_ok_iff.mp found with ⟨read, isRead, same⟩
          injection same with same
          exact ⟨row, List.mem_of_find?_eq_some shape, by rw [← same]; exact isRead⟩

/-- The log is what stands at the positions of the stream. -/
theorem logged_at (sound : store.Sound) {op : Op} (logged : store.Logged op) :
    ∃ position, position < store.stop ∧ store.At position op := by
  cases store with
  | inMemory store =>
      rcases List.mem_iff_getElem?.mp ((sound.2 op).mp logged) with ⟨position, here⟩
      exact ⟨position, (List.getElem?_eq_some_iff.mp here).1, here⟩
  | sqlite store =>
      rcases logged with ⟨row, listed, read⟩
      have positive := sound.positive row listed
      have within := SQLiteStore.le_maximum listed
      refine ⟨row.rowid - 1, ?_, row, listed, by omega, read⟩
      change row.rowid - 1 < SQLiteStore.maximum store.rows
      omega

/-! ## Pages -/

/-- A page holds what stands at its positions, and all of it is of the log. -/
structure Shows (store : LogStore) (cursor : Nat) (page : StoreDelta) : Prop where
  ordered : cursor ≤ page.cursor
  within : page.cursor ≤ store.stop
  items : ∀ position op, cursor ≤ position → position < page.cursor → store.At position op →
    op ∈ page.ops
  logged : ∀ op ∈ page.ops, store.Logged op

theorem create_fields {cursor : Nat} {ops : List Op} {sizes : List Nat} {page : StoreDelta}
    (created : StoreDelta.create cursor ops sizes = .ok page) :
    page.cursor = cursor ∧ page.ops = ops := by
  unfold StoreDelta.create at created
  simp only at created
  split at created
  · split at created
    · injection created with created
      rw [← created]
      exact ⟨rfl, rfl⟩
    · cases created
  · split at created
    · injection created with created
      rw [← created]
      exact ⟨rfl, rfl⟩
    · cases created

theorem memory_shows {store : InMemoryStore} (sound : Sound (.inMemory store)) {cursor : Nat}
    {limit : Option Nat} {page : StoreDelta} (run : store.readAfter cursor limit = .ok page) :
    Shows (.inMemory store) cursor page := by
  unfold InMemoryStore.readAfter at run
  split at run
  · cases run
  · rename_i within
    split at run
    · cases run
    · rcases bind_ok_iff.mp run with ⟨reading, folded, created⟩
      have bounds : cursor ≤ reading.cursorAfter ∧
          reading.cursorAfter ≤ store.appendOrder.length := by
        apply foldlM_invariant (fun _ (reading : InMemoryStore.Reading) =>
          cursor ≤ reading.cursorAfter ∧ reading.cursorAfter ≤ store.appendOrder.length) _ _ _
          folded
        · exact ⟨le_refl _, Nat.le_of_not_lt within⟩
        · intro _ stop reading next holds listed stepped
          have inside := sound.1.le_length (List.mem_cons_of_mem 0 listed)
          unfold InMemoryStore.readStep at stepped
          split at stepped
          · injection stepped with stepped
            rw [← stepped]
            exact holds
          · split at stepped
            · cases stepped
            · split at stepped
              · rename_i beyond
                injection stepped with stepped
                rw [← stepped]
                exact ⟨le_of_lt beyond, inside⟩
              · injection stepped with stepped
                rw [← stepped]
                exact holds
      rcases create_fields created with ⟨isCursor, isOps⟩
      refine ⟨by rw [isCursor]; exact bounds.1, by rw [isCursor]; exact bounds.2, ?_, ?_⟩
      · intro position op after before here
        have here : store.appendOrder[position]? = some op := here
        rw [isCursor] at before
        rw [isOps]
        apply List.mem_of_getElem? (i := position - cursor)
        rw [List.getElem?_drop, Nat.add_sub_cancel' after, List.getElem?_take_of_lt before]
        exact here
      · intro op listed
        rw [isOps] at listed
        exact (sound.2 op).mpr (List.mem_of_mem_take (List.mem_of_mem_drop listed))

omit [Runtime] in
/-- A read selects a first part of the rows. -/
theorem read_front (limit : Option Nat) (rows : List SqliteRow) (reading : SQLiteStore.Reading) :
    ∃ front back, rows = front ++ back ∧
      (rows.foldl (SQLiteStore.readRow limit) reading).selected = reading.selected ++ front := by
  induction rows generalizing reading with
  | nil => exact ⟨[], [], rfl, (List.append_nil _).symm⟩
  | cons row rows inductionHypothesis =>
      rw [List.foldl_cons]
      by_cases stopped : (SQLiteStore.readRow limit reading row).selected = reading.selected ∧
          (SQLiteStore.readRow limit reading row).stopped = true
      · rw [SQLiteStore.read_rows_stopped stopped.2]
        exact ⟨[], row :: rows, rfl, by rw [stopped.1, List.append_nil]⟩
      · have taken : (SQLiteStore.readRow limit reading row).selected =
            reading.selected ++ [row] := by
          unfold SQLiteStore.readRow at stopped ⊢
          split
          · rename_i already
            simp [already] at stopped
          · rename_i running
            split
            · rename_i other
              split
              · rename_i full
                simp [running, other, full] at stopped
              · rfl
            · rfl
        rcases inductionHypothesis (SQLiteStore.readRow limit reading row) with
          ⟨front, back, split, selected⟩
        refine ⟨row :: front, back, by rw [split]; rfl, ?_⟩
        rw [selected, taken, List.append_assoc]
        rfl

omit [Runtime] in
/-- The last row that is selected stands between the selected rows and the others. -/
theorem last_between {front back : List SqliteRow} {cursor : Nat}
    (rising : (front ++ back).Pairwise fun first second => first.rowid < second.rowid)
    (beyond : ∀ row ∈ front ++ back, cursor < row.rowid) :
    let last := (front.getLast?.map SqliteRow.rowid).getD cursor
    cursor ≤ last ∧ (∀ row ∈ back, last < row.rowid) ∧
      (last = cursor ∨ ∃ row ∈ front, last = row.rowid) := by
  rcases front.eq_nil_or_concat with none | ⟨init, row, isFront⟩
  · subst none
    exact ⟨le_refl _, beyond, Or.inl rfl⟩
  · rw [List.concat_eq_append] at isFront
    subst isFront
    have isLast : ((init ++ [row]).getLast?.map SqliteRow.rowid).getD cursor = row.rowid := by
      simp
    simp only [isLast]
    have here := beyond row (by simp)
    refine ⟨le_of_lt here, ?_, Or.inr ⟨row, by simp, rfl⟩⟩
    intro other listed
    exact (List.pairwise_append.mp rising).2.2 row (by simp) other listed

theorem sqlite_shows {store : SQLiteStore} (sound : Sound (.sqlite store)) {cursor : Nat}
    {limit : Option Nat} {page : StoreDelta} (run : store.readAfter cursor limit = .ok page) :
    Shows (.sqlite store) cursor page := by
  unfold SQLiteStore.readAfter at run
  split at run
  · cases run
  · split at run
    · cases run
    · rename_i within
      rcases bind_ok_iff.mp run with ⟨ops, isOps, created⟩
      rcases read_front limit (store.rows.filter fun row => cursor < row.rowid)
        ⟨[], [], none, false⟩ with ⟨front, back, isSplit, isFront⟩
      rw [List.nil_append] at isFront
      rw [isFront] at isOps created
      have listed : ∀ row ∈ front, row ∈ store.rows ∧ cursor < row.rowid := by
        intro row isRow
        have isRow : row ∈ store.rows.filter fun row => cursor < row.rowid := by
          rw [isSplit]
          exact List.mem_append_left _ isRow
        simpa using List.mem_filter.mp isRow
      have rising := sound.rising.filter (fun row => cursor < row.rowid)
      rw [isSplit] at rising
      have beyond : ∀ row ∈ front ++ back, cursor < row.rowid := by
        intro row isRow
        rw [← isSplit] at isRow
        simpa using (List.mem_filter.mp isRow).2
      have members := mem_mapM_ok isOps
      rcases create_fields created with ⟨isCursor, areOps⟩
      rcases last_between rising beyond with ⟨above, later, isLast⟩
      refine ⟨by rw [isCursor]; exact above, ?_, ?_, ?_⟩
      · change page.cursor ≤ SQLiteStore.maximum store.rows
        rw [isCursor]
        rcases isLast with isStart | ⟨row, isRow, isLast⟩
        · rw [isStart]
          exact Nat.le_of_not_lt within
        · rw [isLast]
          exact SQLiteStore.le_maximum (listed row isRow).1
      · rintro position op after before ⟨row, isRow, isPosition, read⟩
        rw [areOps, members op]
        refine ⟨row, ?_, read⟩
        have inRange : row ∈ store.rows.filter fun row => cursor < row.rowid := by
          rw [List.mem_filter]
          refine ⟨isRow, ?_⟩
          rw [isPosition]
          simpa using Nat.lt_succ_of_le after
        rw [isSplit] at inRange
        rcases List.mem_append.mp inRange with taken | left
        · exact taken
        · have away := later row left
          rw [← isCursor, isPosition] at away
          omega
      · intro op isOp
        rw [areOps] at isOp
        rcases (members op).mp isOp with ⟨row, isRow, read⟩
        exact ⟨row, (listed row isRow).1, read⟩

/-- A page shows what stands at its positions. -/
theorem readAfter_shows (sound : store.Sound) {cursor : Nat} {limit : Option Nat}
    {page : StoreDelta} (run : store.readAfter cursor limit = .ok page) :
    store.Shows cursor page := by
  cases store with
  | inMemory store => exact memory_shows sound run
  | sqlite store => exact sqlite_shows sound run

end LogStore

end Statefuse
