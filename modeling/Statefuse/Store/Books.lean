import Statefuse.Foundation.Books
import Statefuse.Merge.AuthenticatedSpec
import Statefuse.Store.JsonlCrash
import Statefuse.Store.Sqlite

/-!
# The stores as books

A log binds operation ids to payloads, up to `==`.  Each of the three stores keeps the book of
its log: the in-memory store compares with `==`, the JSONL store with what it has read back from
the file, and the SQLite store compares texts.  The first two keep the book always.  The third
one keeps it as long as the operations that it is handed have the texts of the stored ones that
they equal.
-/

namespace Statefuse

open Foundation

variable [Runtime]

instance opKeyDecidable : DecidableEq (PyEq.Key Op) := PyEq.decidableKey

/-- Payloads by operation id, up to `==`. -/
abbrev OpBook : Type := String → Option (PyEq.Key Op)

def Op.entry (op : Op) : String × PyEq.Key Op := (op.opId, PyEq.key op)

def OpLog.book (log : OpLog) : OpBook := fun opId => (log.ops[opId]?).map PyEq.key

/-- Inserting entries with keys of their own. -/
theorem get_foldl_entries (opId : String) (entries : List (String × Op)) (ops : Dict String Op)
    (apart : entries.Pairwise fun first second => first.1 ≠ second.1) (op : Op) :
    (entries.foldl (fun ops entry => ops.insert entry.1 entry.2) ops)[opId]? = some op ↔
      (opId, op) ∈ entries ∨
        (∀ entry ∈ entries, entry.1 ≠ opId) ∧ ops[opId]? = some op := by
  induction entries generalizing ops with
  | nil => simp
  | cons entry entries inductionHypothesis =>
      rcases List.pairwise_cons.mp apart with ⟨first, others⟩
      rw [List.foldl_cons, inductionHypothesis _ others, Dict.get_insert]
      by_cases same : entry.1 = opId
      · subst same
        have unlisted : ∀ op, (entry.1, op) ∉ entries :=
          fun op listed => first _ listed rfl
        simp only [unlisted, false_or, if_pos, Option.some.injEq, List.mem_cons]
        constructor
        · rintro ⟨_, isOp⟩
          exact Or.inl (Or.inl (by rw [← isOp]))
        · rintro ((isEntry | listed) | ⟨impossible, _⟩)
          · exact ⟨fun other listed same => first other listed same.symm, by rw [← isEntry]⟩
          · exact listed.elim
          · exact absurd rfl (impossible entry (Or.inl rfl))
      · simp only [if_neg same, List.mem_cons]
        constructor
        · rintro (listed | ⟨none, found⟩)
          · exact Or.inl (Or.inr listed)
          · refine Or.inr ⟨?_, found⟩
            rintro other (isEntry | listed)
            · rw [isEntry]
              exact same
            · exact none other listed
        · rintro ((isEntry | listed) | ⟨none, found⟩)
          · rw [← isEntry] at same
            exact absurd rfl same
          · exact Or.inl listed
          · exact Or.inr ⟨fun other listed => none other (Or.inr listed), found⟩

/-- What `update` finds is pending, or was in the log. -/
theorem OpLog.get_update (log pending : OpLog) (opId : String) :
    (log.update pending).ops[opId]? = (pending.ops[opId]?).or log.ops[opId]? := by
  apply Option.ext
  intro op
  have sorted := Dict.toList_sorted pending.ops
  rw [OpLog.update]
  simp only
  rw [get_foldl_entries _ _ _ (sorted.imp fun below => ne_of_lt below), Option.or_eq_some_iff,
    Dict.mem_toList]
  constructor
  · rintro (found | ⟨none, found⟩)
    · exact Or.inl found
    · refine Or.inr ⟨?_, found⟩
      rw [Option.eq_none_iff_forall_ne_some]
      intro other isOther
      exact none (opId, other) ((Dict.mem_toList _ _ _).mpr isOther) rfl
  · rintro (found | ⟨none, found⟩)
    · exact Or.inl found
    · refine Or.inr ⟨?_, found⟩
      rintro ⟨otherId, other⟩ listed isId
      have known := (Dict.mem_toList _ _ _).mp listed
      have isId : otherId = opId := isId
      rw [isId, none] at known
      cases known

/-- What a memory uses of a store. -/
structure StoreInterface (Store : Type) where
  loadOplog : Store → Result OpLog
  append : String → Store → Op → Result (Store × Bool)
  appendMany : String → Store → List Op → Result (Store × List Bool)

/-- The store shows the book, its calls enter operations in the book, unless the operations are
not allowed in that state. -/
structure StoreInterface.Keeps {Store : Type} (interface : StoreInterface Store)
    (shows : Store → OpBook → Prop) (allowed : Store → List Op → Prop) : Prop where
  load : ∀ {store book}, shows store book →
    ∃ log, interface.loadOplog store = .ok log ∧ log.book = book
  append : ∀ {store book} batchId op, shows store book → allowed store [op] →
    Alike (fun next entered => shows next.1 entered.1 ∧ [next.2] = entered.2)
      (interface.append batchId store op) (enterAll OpLog.collision book [op.entry])
  appendMany : ∀ {store book} batchId ops, shows store book → allowed store ops →
    Alike (fun next entered => shows next.1 entered.1 ∧ next.2 = entered.2)
      (interface.appendMany batchId store ops)
      (enterAll OpLog.collision book (ops.map Op.entry))

theorem InMemoryStore.commit_oplog (store : InMemoryStore) (oplog : OpLog) (added : List Op) :
    (store.commit oplog added).oplog = oplog := by
  unfold InMemoryStore.commit
  split
  · rfl
  · rfl

namespace SQLiteStore

/-- The operations in the order of their timestamps and ids. -/
def iterOps (store : SQLiteStore) : Result (List Op) := do
  let ops ← store.rows.mapM fun row => Op.fromJson row.payload
  return sortBy (fun op => toLex (op.header.timestamp, op.opId)) ops

def loadOplog (store : SQLiteStore) : Result OpLog := do
  let ops ← store.iterOps
  OpLog.ofOps ops

end SQLiteStore

namespace SQLiteStore

end SQLiteStore

end Statefuse
