import Statefuse.Ops

/-!
# Op-logs and their merge

A log binds each operation id to at most one operation.  Adding an operation
again is harmless, and adding a different one under the same id is refused.
-/

namespace Statefuse

open Foundation

variable [Runtime]

/-- A set of operations keyed by operation id. -/
structure OpLog where
  ops : Dict String Op
  keyed : ∀ (opId : String) (op : Op), ops[opId]? = some op → op.opId = opId

namespace OpLog

def empty : OpLog where
  ops := ∅
  keyed := by
    intro opId op found
    simp at found

theorem ext {first second : OpLog} (same : first.ops = second.ops) : first = second := by
  cases first
  cases second
  cases same
  rfl

def insert (log : OpLog) (op : Op) : OpLog where
  ops := log.ops.insert op.opId op
  keyed := by
    intro opId other found
    rw [Dict.get_insert] at found
    split at found
    · rename_i same
      injection found with found
      rw [← found, same]
    · exact log.keyed opId other found

def collision (opId : String) : PyError :=
  .valueError ("op_id collision with different payload: " ++ opId)

/-- Add one operation; the flag says whether it is new. -/
def add (log : OpLog) (op : Op) : Result (OpLog × Bool) :=
  match log.ops[op.opId]? with
  | none => .ok (log.insert op, true)
  | some existing => if pyEq existing op then .ok (log, false) else .error (collision op.opId)

/-- One step of `add_many`: the new operations so far, and the flags so far. -/
def addManyStep (log : OpLog) (state : OpLog × List Bool) (op : Op) : Result (OpLog × List Bool) :=
  match (state.1.ops[op.opId]?).or log.ops[op.opId]? with
  | none => .ok (state.1.insert op, state.2 ++ [true])
  | some existing =>
      if pyEq existing op then .ok (state.1, state.2 ++ [false])
      else .error (collision op.opId)

/-- Add the new operations to the log. -/
def update (log pending : OpLog) : OpLog where
  ops := pending.ops.toList.foldl (fun ops entry => ops.insert entry.1 entry.2) log.ops
  keyed := by
    have general : ∀ (entries : List (String × Op)) (ops : Dict String Op),
        (∀ entry ∈ entries, entry.2.opId = entry.1) →
        (∀ (opId : String) (op : Op), ops[opId]? = some op → op.opId = opId) →
        ∀ (opId : String) (op : Op),
          (entries.foldl (fun ops entry => ops.insert entry.1 entry.2) ops)[opId]? = some op →
            op.opId = opId := by
      intro entries
      induction entries with
      | nil =>
          intro ops _ keyed
          exact keyed
      | cons head tail inductionHypothesis =>
          intro ops entriesKeyed keyed
          apply inductionHypothesis _
            (fun entry member => entriesKeyed entry (List.mem_cons_of_mem _ member))
          intro opId op found
          rw [Dict.get_insert] at found
          split at found
          · rename_i same
            injection found with found
            rw [← found, ← same]
            exact entriesKeyed head List.mem_cons_self
          · exact keyed opId op found
    apply general _ _ _ log.keyed
    intro entry member
    exact pending.keyed entry.1 entry.2 ((Dict.mem_toList pending.ops _ _).mp member)

/-- Add several operations or none: a collision leaves the log as it was. -/
def addMany (log : OpLog) (ops : List Op) : Result (OpLog × List Bool) := do
  let (pending, results) ← ops.foldlM (addManyStep log) (empty, [])
  return (log.update pending, results)

/-- The operations in the order of their ids. -/
def iterOps (log : OpLog) : List Op := Dict.values log.ops

def ofOps (ops : List Op) : Result OpLog :=
  ops.foldlM (fun log op => (log.add op).map Prod.fst) empty

/-- Union over operation ids. -/
def merge (first second : OpLog) : Result OpLog := do
  let merged ← ofOps first.iterOps
  second.iterOps.foldlM (fun log op => (log.add op).map Prod.fst) merged

end OpLog

end Statefuse
