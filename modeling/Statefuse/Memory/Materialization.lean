import Statefuse.Materialize.Full
import Statefuse.Materialize.Incremental
import Statefuse.Store.InMemory

/-!
# Materialization of a memory

A memory over an in-memory store caches the state of its log.  A call advances the
cached state over the operations committed since, or rebuilds it when the predicate
registry has changed, and a bounded history of deltas answers what changed since an
earlier cursor.

A call returns its result and the memory after it: a call that raises may have changed
the memory before it raised.
-/

namespace Statefuse

open Foundation

variable [Runtime]

/-- How states are written to checkpoints and read back. -/
structure CheckpointCodec where
  encode : MemoryState → Result String
  decode : String → PredicateRegistry → Result MemoryState

def materializationCheckpointVersion : String := "4"

def checkpointIntervalOps : Nat := 100

/-- The longest history of deltas. -/
def historyLength : Nat := 1024

structure Memory where
  store : InMemoryStore
  predicateRegistry : PredicateRegistry
  registryRevision : Nat
  conflictDetectors : List ConflictDetector
  automaticMaterializationConfig : Bool
  materializationConfigToken : Option String
  materializedState : Option MemoryState
  materializedRegistryRevision : Option Nat
  materializationCursor : Nat
  materializationHistory : List MaterializationDelta
  opsSinceCheckpoint : Nat

namespace Memory

/-- A memory over a new store.  A registry is given with its revision. -/
def create (predicateRegistry : Option (PredicateRegistry × Nat))
    (conflictDetectors : List ConflictDetector) (configToken : Option String) : Memory :=
  let automatic := configToken.isNone && predicateRegistry.isNone && conflictDetectors.isEmpty
  { store := .empty
    predicateRegistry := (predicateRegistry.map Prod.fst).getD .empty
    registryRevision := (predicateRegistry.map Prod.snd).getD 0
    conflictDetectors := conflictDetectors
    automaticMaterializationConfig := automatic
    materializationConfigToken := configToken.or (if automatic then some "default" else none)
    materializedState := none
    materializedRegistryRevision := none
    materializationCursor := 0
    materializationHistory := []
    opsSinceCheckpoint := 0 }

def appendOp (memory : Memory) (op : Op) : Result Bool × Memory :=
  match memory.store.append op with
  | .error failure => (.error failure, memory)
  | .ok (store, added) => (.ok added, { memory with store := store })

def commitBatch (memory : Memory) (ops : List Op) : Result (List Bool) × Memory :=
  match memory.store.appendMany ops with
  | .error failure => (.error failure, memory)
  | .ok (store, added) => (.ok added, { memory with store := store })

def mergeFrom (memory : Memory) (other : OpLog) : Result OpLog × Memory :=
  match (do
    let own ← memory.store.loadOplog
    let merged ← OpLog.merge own other
    let (store, _) ← memory.store.appendMany merged.iterOps
    return (merged, store) : Result (OpLog × InMemoryStore)) with
  | .error failure => (.error failure, memory)
  | .ok (merged, store) => (.ok merged, { memory with store := store })

/-- `predicate_registry.register`. -/
def register (memory : Memory) (predicate : String) (rule : PredicateRule) : Memory :=
  { memory with
    predicateRegistry := memory.predicateRegistry.register predicate rule
    registryRevision := memory.registryRevision + 1 }

/-! ## The cached state -/

section Cache

variable (codec : CheckpointCodec)

def saveMaterializationCheckpoint (memory : Memory) : Result Unit × Memory :=
  match memory.materializationConfigToken, memory.materializedState with
  | some token, some state =>
      match codec.encode state with
      | .error failure => (.error failure, memory)
      | .ok payload =>
          (.ok (), { memory with
            store := memory.store.saveMaterializationCheckpoint
              ⟨materializationCheckpointVersion, token, memory.materializationCursor, payload⟩
            opsSinceCheckpoint := 0 })
  | _, _ => (.ok (), memory)

/-- Full materialization of the log takes the place of the cached state and clears the
history. -/
def rebuildMaterializedState (memory : Memory) : Result MemoryState × Memory :=
  match (do
    let delta ← memory.store.readAfter 0 none
    let log ← memory.store.loadOplog
    let state ← Statefuse.materialize log memory.predicateRegistry [] none ∅
    return (delta, state) : Result (StoreDelta × MemoryState)) with
  | .error failure => (.error failure, memory)
  | .ok (delta, state) =>
      let saved := saveMaterializationCheckpoint codec { memory with
        materializedState := some state
        materializationCursor := delta.cursor
        materializedRegistryRevision := some memory.registryRevision
        materializationHistory := [] }
      (saved.1.map fun _ => state, saved.2)

/-- A bounded history forgets its oldest delta. -/
def remember (history : List MaterializationDelta) (delta : MaterializationDelta) :
    List MaterializationDelta :=
  (history ++ [delta]).drop ((history ++ [delta]).length - historyLength)

/-- The memory with the state of its checkpoint, advanced to the end of the store. -/
def restore (memory : Memory) (checkpoint : MaterializationCheckpoint) :
    Result (MemoryState × Memory) := do
  let state ← codec.decode checkpoint.payload memory.predicateRegistry
  let read ← memory.store.readAfter checkpoint.cursor none
  let (state, delta) ← applyOperationsIncrementally state read.ops []
  let history :=
    if read.ops = [] then memory.materializationHistory
    else remember memory.materializationHistory
      { delta with cursorBefore := checkpoint.cursor, cursorAfter := read.cursor }
  return (state, { memory with
    materializedState := some state
    materializedRegistryRevision := some memory.registryRevision
    materializationCursor := read.cursor
    materializationHistory := history
    opsSinceCheckpoint := read.ops.length })

/-- The failures that lead from a checkpoint to a rebuild. -/
def isCheckpointFailure : PyError → Bool
  | .valueError _ => true
  | .typeError _ => true
  | .keyError _ => true
  | .overflowError _ => false
  | .indexError _ => false

def accepts (memory : Memory) (checkpoint : MaterializationCheckpoint) : Bool :=
  checkpoint.version == materializationCheckpointVersion &&
    memory.materializationConfigToken == some checkpoint.configToken

def restoreOrBuildMaterializedState (memory : Memory) : Result MemoryState × Memory :=
  match memory.store.checkpoint.filter memory.accepts with
  | none => rebuildMaterializedState codec memory
  | some checkpoint =>
      match memory.restore codec checkpoint with
      | .ok (state, next) => (.ok state, next)
      | .error failure =>
          if isCheckpointFailure failure then rebuildMaterializedState codec memory
          else (.error failure, memory)

/-- Advance the cached state over the operations committed since. -/
def advance (memory : Memory) (state : MemoryState) : Result MemoryState × Memory :=
  match memory.store.readAfter memory.materializationCursor none with
  | .error _ => rebuildMaterializedState codec memory
  | .ok read =>
      if read.ops = [] then (.ok state, memory)
      else
        match applyOperationsIncrementally state read.ops [] with
        | .error failure => (.error failure, memory)
        | .ok (next, delta) =>
            let advanced := { memory with
              materializedState := some next
              materializedRegistryRevision := some memory.registryRevision
              materializationCursor := read.cursor
              materializationHistory := remember memory.materializationHistory
                { delta with
                  cursorBefore := memory.materializationCursor
                  cursorAfter := read.cursor }
              opsSinceCheckpoint := memory.opsSinceCheckpoint + read.ops.length }
            if checkpointIntervalOps ≤ advanced.opsSinceCheckpoint then
              let saved := saveMaterializationCheckpoint codec advanced
              (saved.1.map fun _ => next, saved.2)
            else (.ok next, advanced)

/-- The automatic configuration is no configuration once the registry has changed. -/
def checkConfig (memory : Memory) : Memory :=
  if memory.automaticMaterializationConfig ∧ memory.registryRevision ≠ 0 then
    { memory with materializationConfigToken := none }
  else memory

/-- The cached state before it is advanced. -/
def currentState (memory : Memory) : Result MemoryState × Memory :=
  match memory.materializedState with
  | none => restoreOrBuildMaterializedState codec memory
  | some state =>
      if memory.materializedRegistryRevision = some memory.registryRevision then (.ok state, memory)
      else rebuildMaterializedState codec memory

def materializeCanonicalIncrementally (memory : Memory) : Result MemoryState × Memory :=
  match currentState codec memory.checkConfig with
  | (.error failure, next) => (.error failure, next)
  | (.ok state, next) => advance codec next state

/-- The arguments of `Memory.materialize`. -/
structure Arguments where
  predicateRegistry : Option PredicateRegistry
  conflictDetectors : Option (List ConflictDetector)
  validAt : Option String
  context : Option JSONObject

/-- No argument is given. -/
def Arguments.default : Arguments := ⟨none, none, none, none⟩

/-- The detectors of a call: its own, or those of the memory. -/
def detectors (memory : Memory) (arguments : Arguments) : List ConflictDetector :=
  arguments.conflictDetectors.getD memory.conflictDetectors

/-- The call asks for the state that the memory caches. -/
def isCanonical (memory : Memory) (arguments : Arguments) : Bool :=
  arguments.predicateRegistry.isNone && (memory.detectors arguments).isEmpty &&
    arguments.validAt.isNone && arguments.context.isNone

def materialize (memory : Memory) (arguments : Arguments) : Result MemoryState × Memory :=
  if memory.isCanonical arguments then materializeCanonicalIncrementally codec memory
  else
    (do
      let log ← memory.store.loadOplog
      Statefuse.materialize log (arguments.predicateRegistry.getD memory.predicateRegistry)
        (memory.detectors arguments) arguments.validAt (arguments.context.getD ∅), memory)

/-- One delta of the history, while the deltas since a cursor are collected. -/
def collectDelta (sinceCursor : Nat) (state : List MaterializationDelta × Nat)
    (delta : MaterializationDelta) : Option (List MaterializationDelta × Nat) :=
  if delta.cursorAfter ≤ sinceCursor then some state
  else if delta.cursorBefore ≠ state.2 then none
  else some (state.1 ++ [delta], delta.cursorAfter)

def combineMaterializationDeltas (deltas : List MaterializationDelta) : MaterializationDelta where
  processedOpIds := deltas.flatMap (·.processedOpIds)
  affectedKeys := sortedSet (deltas.flatMap (·.affectedKeys))
  affectedNamespaces := sortedSet (deltas.flatMap (·.affectedNamespaces))
  affectedClaimIds := sortedSet (deltas.flatMap (·.affectedClaimIds))
  previousConflictIds := sortedSet (deltas.flatMap (·.previousConflictIds))
  currentConflictIds := sortedSet (deltas.flatMap (·.currentConflictIds))
  affectedConflictRefs := sortedSet (deltas.flatMap (·.affectedConflictRefs))
  affectedResolutionIds := sortedSet (deltas.flatMap (·.affectedResolutionIds))
  cursorBefore := (deltas.head?.map (·.cursorBefore)).getD 0
  cursorAfter := (deltas.getLast?.map (·.cursorAfter)).getD 0
  fullRebuild := false
  conflictComparisons := (deltas.map (·.conflictComparisons)).sum

/-- The delta from a cursor to the cached state. -/
def deltaSince (memory : Memory) (sinceCursor : Option Nat) : MaterializationDelta :=
  let current := memory.materializationCursor
  match sinceCursor with
  | none => { MaterializationDelta.empty with cursorAfter := current, fullRebuild := true }
  | some since =>
      if since = current then
        { MaterializationDelta.empty with cursorBefore := current, cursorAfter := current }
      else
        let rebuilt := { MaterializationDelta.empty with
          cursorBefore := since, cursorAfter := current, fullRebuild := true }
        match memory.materializationHistory.foldlM (collectDelta since) ([], since) with
        | none => rebuilt
        | some (deltas, expected) =>
            if deltas = [] ∨ expected ≠ current then rebuilt
            else combineMaterializationDeltas deltas

def materializeWithDelta (memory : Memory) (sinceCursor : Option Nat) :
    Result (MemoryState × MaterializationDelta) × Memory :=
  if memory.conflictDetectors ≠ [] then
    let materialized := materialize codec memory .default
    (materialized.1.map fun state =>
      (state, { MaterializationDelta.empty with fullRebuild := true }), materialized.2)
  else
    let materialized := materializeCanonicalIncrementally codec memory
    (materialized.1.map fun state => (state, materialized.2.deltaSince sinceCursor),
      materialized.2)

/-- The calls of a run. -/
inductive Call where
  | append (op : Op)
  | commitBatch (ops : List Op)
  | mergeFrom (other : OpLog)
  | register (predicate : String) (rule : PredicateRule)
  | materialize (arguments : Arguments)
  | materializeWithDelta (sinceCursor : Option Nat)

/-- The memory after a call. -/
def after (memory : Memory) : Call → Memory
  | .append op => (memory.appendOp op).2
  | .commitBatch ops => (memory.commitBatch ops).2
  | .mergeFrom other => (memory.mergeFrom other).2
  | .register predicate rule => memory.register predicate rule
  | .materialize arguments => (memory.materialize codec arguments).2
  | .materializeWithDelta sinceCursor => (memory.materializeWithDelta codec sinceCursor).2

/-- The memory after a sequence of calls. -/
def run (memory : Memory) (calls : List Call) : Memory := calls.foldl (after codec) memory

/-- A call returns a state that the memory caches. -/
def Returns (memory : Memory) (call : Call) (state : MemoryState) : Prop :=
  match call with
  | .materialize arguments =>
      memory.isCanonical arguments = true ∧ (memory.materialize codec arguments).1 = .ok state
  | .materializeWithDelta sinceCursor =>
      ∃ delta, (memory.materializeWithDelta codec sinceCursor).1 = .ok (state, delta)
  | _ => False

end Cache

end Memory

end Statefuse
