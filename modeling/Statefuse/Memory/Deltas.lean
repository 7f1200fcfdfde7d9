import Statefuse.Materialize.Affected
import Statefuse.Memory.Materialization
import Statefuse.Reference

/-!
# What a memory says has changed

The invariant of a run relates every state that a call returned to the cached state:
deltas of the history that lead from the cursor of the one to the cursor of the other
account for their difference.  It survives every call, except a rebuild for a changed
registry that finds no new operation: then the cursor stays, and the delta since that
cursor is empty although the state may be another one.
-/

namespace Statefuse

open Foundation

section Runs

variable [Runtime]

/-- The deltas lead from one cursor to another. -/
def Path : Nat → List MaterializationDelta → Nat → Prop
  | start, [], stop => start = stop
  | start, delta :: rest, stop => delta.cursorBefore = start ∧ Path delta.cursorAfter rest stop

omit [Runtime] in
theorem path_append (start stop : Nat) (deltas : List MaterializationDelta)
    (delta : MaterializationDelta) :
    Path start (deltas ++ [delta]) stop ↔
      Path start deltas delta.cursorBefore ∧ delta.cursorAfter = stop := by
  induction deltas generalizing start with
  | nil =>
      rw [List.nil_append, Path, Path, Path]
      exact and_congr_left' eq_comm
  | cons head tail inductionHypothesis =>
      rw [List.cons_append, Path, Path, inductionHypothesis, and_assoc]

omit [Runtime] in
theorem Memory.remember_sublist (history : List MaterializationDelta)
    (delta : MaterializationDelta) :
    (Memory.remember history delta).Sublist (history ++ [delta]) :=
  List.drop_sublist _ _

omit [Runtime] in
/-- What is collected from a history is a path in it. -/
private theorem collect_path {since : Nat} (history : List MaterializationDelta)
    (state : List MaterializationDelta × Nat) {deltas : List MaterializationDelta} {expected : Nat}
    (path : Path since state.1 state.2)
    (run : history.foldlM (Memory.collectDelta since) state = some (deltas, expected)) :
    Path since deltas expected ∧ ∃ taken, deltas = state.1 ++ taken ∧ taken.Sublist history := by
  induction history generalizing state with
  | nil =>
      rw [List.foldlM_nil] at run
      injection run with run
      subst run
      exact ⟨path, [], (List.append_nil _).symm, List.Sublist.refl _⟩
  | cons head tail inductionHypothesis =>
      rw [List.foldlM_cons] at run
      unfold Memory.collectDelta at run
      split at run
      · obtain ⟨after, taken, same, among⟩ := inductionHypothesis state path run
        exact ⟨after, taken, same, among.cons head⟩
      · split at run
        · cases run
        · rename_i continues
          rw [not_not] at continues
          obtain ⟨after, taken, same, among⟩ := inductionHypothesis
            (state.1 ++ [head], head.cursorAfter)
            ((path_append _ _ _ _).mpr ⟨by rw [continues]; exact path, rfl⟩) run
          exact ⟨after, head :: taken, by rw [same, List.append_assoc]; rfl, among.cons_cons head⟩

omit [Runtime] in
/-- A path of deltas that lead forward is empty or leads forward. -/
private theorem path_forward {deltas : List MaterializationDelta} {start stop : Nat}
    (forward : ∀ delta ∈ deltas, delta.cursorBefore < delta.cursorAfter)
    (path : Path start deltas stop) : deltas = [] ∨ start < stop := by
  induction deltas generalizing start with
  | nil => exact Or.inl rfl
  | cons head tail inductionHypothesis =>
      obtain ⟨here, rest⟩ := path
      have step := forward head List.mem_cons_self
      rcases inductionHypothesis (fun delta member => forward delta (List.mem_cons_of_mem _ member))
        rest with none | further
      · rw [none, Path] at rest
        exact Or.inr (by omega)
      · exact Or.inr (by omega)

omit [Runtime] in
/-- A path that reaches a new delta's cursor ends with it. -/
private theorem path_through {history deltas : List MaterializationDelta}
    {delta : MaterializationDelta} {start current : Nat}
    (entries : ∀ entry ∈ history, entry.cursorAfter ≤ current) (below : start ≤ current)
    (beyond : current < delta.cursorAfter) (among : deltas.Sublist (history ++ [delta]))
    (path : Path start deltas delta.cursorAfter) :
    ∃ earlier, deltas = earlier ++ [delta] ∧ earlier.Sublist history ∧
      Path start earlier delta.cursorBefore := by
  obtain ⟨earlier, last, split, earlierAmong, lastAmong⟩ := List.sublist_append_iff.mp among
  rcases List.sublist_singleton.mp lastAmong with none | isDelta
  · exfalso
    rw [none, List.append_nil] at split
    rw [split] at path
    cases found : earlier.getLast? with
    | none =>
        rw [List.getLast?_eq_none_iff.mp found, Path] at path
        omega
    | some entry =>
        obtain ⟨before, listed⟩ := List.getLast?_eq_some_iff.mp found
        rw [listed, path_append] at path
        have bound := entries entry (earlierAmong.mem (by rw [listed]; simp))
        omega
  · rw [isDelta] at split
    rw [split, path_append] at path
    exact ⟨earlier, split, earlierAmong, path.1⟩

/-- The combination of deltas accounts for what they account for together. -/
private theorem combine_accounts {deltas : List MaterializationDelta} {first second : MemoryState}
    (together : AccountTogether deltas first second)
    (incremental : ∀ delta ∈ deltas, delta.fullRebuild = false) :
    (Memory.combineMaterializationDeltas deltas).Accounts first second := by
  have outside : ∀ {α : Type} [LinearOrder α] (field : MaterializationDelta → List α) {item : α},
      item ∉ sortedSet (deltas.flatMap field) → ∀ delta ∈ deltas, item ∉ field delta := by
    intro α _ field item absent delta member listed
    exact absent (mem_sortedSet.mpr (List.mem_flatMap.mpr ⟨delta, member, listed⟩))
  have inside : ∀ {α : Type} [LinearOrder α] (field : MaterializationDelta → List α) {item : α}
      {delta : MaterializationDelta}, delta ∈ deltas → item ∈ field delta →
      item ∈ sortedSet (deltas.flatMap field) := by
    intro α _ field item delta member listed
    exact mem_sortedSet.mpr (List.mem_flatMap.mpr ⟨delta, member, listed⟩)
  have reported : ∀ {conflictId : String}, (∃ delta ∈ deltas,
      conflictId ∈ delta.previousConflictIds ∨ conflictId ∈ delta.currentConflictIds) →
      conflictId ∈ (Memory.combineMaterializationDeltas deltas).previousConflictIds ∨
        conflictId ∈ (Memory.combineMaterializationDeltas deltas).currentConflictIds := by
    rintro conflictId ⟨delta, member, previous | current⟩
    · exact Or.inl (inside (·.previousConflictIds) member previous)
    · exact Or.inr (inside (·.currentConflictIds) member current)
  refine ⟨?_, ?_, ?_, ?_, ?_, ?_⟩
  · exact fun key unmarked => together.active key (outside (·.affectedKeys) unmarked)
  · exact fun key unmarked => together.conflicts key (outside (·.affectedKeys) unmarked)
  · exact fun conflictId present absent => reported (together.lost conflictId present absent)
  · exact fun conflictId present absent => reported (together.gained conflictId present absent)
  · exact fun lane unmarked => together.statuses lane (outside (·.affectedConflictRefs) unmarked)
  · intro isEmpty
    apply together.empty
    intro delta member
    simp only [MaterializationDelta.isEmpty, Memory.combineMaterializationDeltas,
      Bool.and_eq_true, List.isEmpty_iff, List.flatMap_eq_nil_iff] at isEmpty
    simp [MaterializationDelta.isEmpty, isEmpty.1 delta member, incremental delta member]

omit [Runtime] in
theorem combine_isUnion (deltas : List MaterializationDelta) (delta : MaterializationDelta) :
    (Memory.combineMaterializationDeltas (deltas ++ [delta])).IsUnion
      (Memory.combineMaterializationDeltas deltas) delta := by
  constructor <;> simp [Memory.combineMaterializationDeltas, List.flatMap_append]

/-- The combination of no deltas leaves everything out. -/
theorem combine_nil_traces (state : MemoryState) :
    (Memory.combineMaterializationDeltas []).Traces state state where
  statuses := fun _ _ => rfl
  bound := fun _ _ => id
  claims := fun _ _ => ⟨rfl, Iff.rfl⟩
  unmarked := fun _ _ => rfl
  previous := by simp [Memory.combineMaterializationDeltas]
  current := by simp [Memory.combineMaterializationDeltas]
  resolved := fun _ _ => id
  resolutions := fun _ known _ =>
    ⟨known, by simp [Memory.combineMaterializationDeltas], fun _ _ => rfl⟩

/-! ## The invariant of a run -/

namespace Memory

/-- The history of a memory connects the states that calls have returned, each at its
cursor, to the cached state. -/
structure Holds (memory : Memory) (detectors : List ConflictDetector)
    (seen : MemoryState → Nat → Prop) : Prop where
  sameDetectors : memory.conflictDetectors = detectors
  store : memory.store.WellFormed
  boundary : memory.store.Boundary memory.materializationCursor
  unbuilt : memory.materializedState = none →
    memory.store.checkpoint = none ∧ ∀ state cursor, ¬seen state cursor
  traceable : ∀ state, memory.materializedState = some state → state.Traceable
  entries : ∀ delta ∈ memory.materializationHistory,
    delta.cursorBefore < delta.cursorAfter ∧
      delta.cursorAfter ≤ memory.materializationCursor ∧ delta.fullRebuild = false
  below : ∀ state cursor, seen state cursor → cursor ≤ memory.materializationCursor
  connected : ∀ earlier cursor, seen earlier cursor → ∀ state,
    memory.materializedState = some state → ∀ deltas : List MaterializationDelta,
    deltas.Sublist memory.materializationHistory →
    Path cursor deltas memory.materializationCursor → AccountTogether deltas earlier state
  traced : ∀ earlier cursor, seen earlier cursor → earlier.Traceable ∧ ∀ state,
    memory.materializedState = some state → ∀ deltas : List MaterializationDelta,
    deltas.Sublist memory.materializationHistory →
    Path cursor deltas memory.materializationCursor →
    (combineMaterializationDeltas deltas).Traces earlier state

/-- A materialization that finds the registry changed finds new operations as well. -/
def Steady (memory : Memory) : Prop :=
  memory.materializedState ≠ none →
    memory.materializedRegistryRevision ≠ some memory.registryRevision →
    memory.materializationCursor < memory.store.appendOrder.length

variable {codec : CheckpointCodec} {memory : Memory} {detectors : List ConflictDetector}
  {seen : MemoryState → Nat → Prop}

theorem create_holds (predicateRegistry : Option (PredicateRegistry × Nat))
    (conflictDetectors : List ConflictDetector) (configToken : Option String) :
    (create predicateRegistry conflictDetectors configToken).Holds conflictDetectors
      (fun _ _ => False) where
  sameDetectors := rfl
  store := InMemoryStore.empty_wellFormed
  boundary := List.mem_cons_self
  unbuilt := fun _ => ⟨rfl, fun _ _ => id⟩
  traceable := fun _ impossible => by cases impossible
  entries := fun _ impossible => by cases impossible
  below := fun _ _ impossible => impossible.elim
  connected := fun _ _ impossible => impossible.elim
  traced := fun _ _ impossible => impossible.elim

/-- What only concerns checkpoints is not part of the invariant. -/
theorem Holds.congr {next : Memory} (holds : memory.Holds detectors seen)
    (store : next.store.WellFormed) (extension : memory.store.Extends next.store)
    (sameDetectors : next.conflictDetectors = memory.conflictDetectors)
    (state : next.materializedState = memory.materializedState)
    (cursor : next.materializationCursor = memory.materializationCursor)
    (history : next.materializationHistory = memory.materializationHistory) :
    next.Holds detectors seen where
  sameDetectors := sameDetectors.trans holds.sameDetectors
  store := store
  boundary := by
    rw [cursor]
    exact extension.boundary _ holds.boundary
  unbuilt := by
    rw [state, extension.checkpoint]
    exact holds.unbuilt
  traceable := by
    rw [state]
    exact holds.traceable
  entries := by
    rw [history, cursor]
    exact holds.entries
  below := by
    rw [cursor]
    exact holds.below
  connected := by
    rw [state, history, cursor]
    exact holds.connected
  traced := by
    rw [state, history, cursor]
    exact holds.traced

theorem saveCheckpoint_holds (holds : memory.Holds detectors seen)
    (built : memory.materializedState ≠ none) :
    (saveMaterializationCheckpoint codec memory).2.Holds detectors seen ∧
      (saveMaterializationCheckpoint codec memory).2.materializedState =
        memory.materializedState := by
  unfold saveMaterializationCheckpoint
  split
  · split
    · exact ⟨holds, rfl⟩
    · refine ⟨?_, rfl⟩
      exact {
        sameDetectors := holds.sameDetectors
        store := ⟨holds.store.rising, holds.store.last⟩
        boundary := holds.boundary
        unbuilt := fun absent => absurd absent built
        traceable := holds.traceable
        entries := holds.entries
        below := holds.below
        connected := holds.connected
        traced := holds.traced }
  · exact ⟨holds, rfl⟩

/-- A rebuild that finds new operations, or that is the first one. -/
theorem rebuild_holds (collisionFree : CollisionFree) (holds : memory.Holds detectors seen)
    (ahead : ∀ state cursor, seen state cursor → cursor < memory.store.appendOrder.length) :
    (rebuildMaterializedState codec memory).2.Holds detectors seen ∧
      ∀ state, (rebuildMaterializedState codec memory).1 = .ok state →
        (rebuildMaterializedState codec memory).2.materializedState = some state := by
  unfold rebuildMaterializedState
  split
  · exact ⟨holds, fun _ impossible => by cases impossible⟩
  · rename_i delta state computed
    simp only [bind_ok_iff, pure_ok_iff, Prod.mk.injEq] at computed
    obtain ⟨read, reading, log, _, state', materialized, sameRead, sameState⟩ := computed
    subst sameRead sameState
    obtain ⟨read', reading', cursor, _⟩ :=
      InMemoryStore.readAfter_boundary holds.store (List.mem_cons_self : 0 ∈ 0 :: _)
    rw [reading, Except.ok.injEq] at reading'
    subst reading'
    have lastBoundary : memory.store.Boundary read.cursor := by
      rw [cursor, ← holds.store.last]
      exact List.getLast_mem _
    have built : Holds { memory with
        materializedState := some state'
        materializationCursor := read.cursor
        materializedRegistryRevision := some memory.registryRevision
        materializationHistory := [] } detectors seen := {
      sameDetectors := holds.sameDetectors
      store := holds.store
      boundary := lastBoundary
      unbuilt := fun impossible => by cases impossible
      traceable := by
        intro other same
        injection same with same
        rw [← same]
        exact materialize_traceable collisionFree materialized
      entries := fun _ impossible => by cases impossible
      below := by
        intro earlier place isSeen
        have before := ahead earlier place isSeen
        rw [← cursor] at before
        exact le_of_lt before
      connected := by
        intro earlier place isSeen other _ deltas among path
        have before := ahead earlier place isSeen
        rw [List.sublist_nil.mp among, Path] at path
        change place = read.cursor at path
        omega
      traced := by
        intro earlier place isSeen
        refine ⟨(holds.traced earlier place isSeen).1, ?_⟩
        intro other _ deltas among path
        have before := ahead earlier place isSeen
        rw [List.sublist_nil.mp among, Path] at path
        change place = read.cursor at path
        omega }
    obtain ⟨saved, kept⟩ := @saveCheckpoint_holds _ codec _ _ _ built (by simp)
    refine ⟨saved, ?_⟩
    intro other same
    rw [kept]
    obtain ⟨_, _, isState⟩ := map_ok_iff.mp same
    rw [isState]

/-- Advancing over new operations appends one delta to the history. -/
theorem advance_holds (collisionFree : CollisionFree) (holds : memory.Holds detectors seen)
    {state : MemoryState} (built : memory.materializedState = some state) :
    (advance codec memory state).2.Holds detectors seen ∧
      ∀ next, (advance codec memory state).1 = .ok next →
        (advance codec memory state).2.materializedState = some next := by
  obtain ⟨read, reading, cursor, ops⟩ :=
    InMemoryStore.readAfter_boundary holds.store holds.boundary
  unfold advance
  rw [reading]
  dsimp only
  by_cases idle : read.ops = []
  · rw [if_pos idle]
    refine ⟨holds, ?_⟩
    intro next same
    injection same with same
    rw [← same]
    exact built
  · rw [if_neg idle]
    cases applied : applyOperationsIncrementally state read.ops [] with
    | error failure => exact ⟨holds, fun _ impossible => by cases impossible⟩
    | ok result =>
        obtain ⟨next, delta⟩ := result
        have before := holds.traceable state built
        have accounts := (applyOperations_accounts collisionFree before.coherent applied).2
        obtain ⟨traceable, traces⟩ := applyOperations_traces collisionFree before applied
        have incremental := incremental_of_run applied
        have grows : memory.materializationCursor < read.cursor := by
          rw [ops, List.drop_eq_nil_iff] at idle
          omega
        have lastBoundary : memory.store.Boundary read.cursor := by
          rw [cursor, ← holds.store.last]
          exact List.getLast_mem _
        dsimp only
        -- Of the new history only this is used: it forgets deltas at its old end.
        generalize remembered : remember memory.materializationHistory { delta with
            cursorBefore := memory.materializationCursor
            cursorAfter := read.cursor } = history
        have forgets : history.Sublist (memory.materializationHistory ++ [{ delta with
            cursorBefore := memory.materializationCursor
            cursorAfter := read.cursor }]) := by
          rw [← remembered]
          exact remember_sublist _ _
        have advanced : Holds { memory with
            materializedState := some next
            materializedRegistryRevision := some memory.registryRevision
            materializationCursor := read.cursor
            materializationHistory := history
            opsSinceCheckpoint := memory.opsSinceCheckpoint + read.ops.length } detectors seen := {
          sameDetectors := holds.sameDetectors
          store := holds.store
          boundary := lastBoundary
          unbuilt := fun impossible => by cases impossible
          traceable := by
            intro other same
            injection same with same
            rw [← same]
            exact traceable
          entries := by
            intro entry member
            rcases List.mem_append.mp (forgets.mem member) with earlier | last
            · obtain ⟨forward, bound, isIncremental⟩ := holds.entries entry earlier
              exact ⟨forward, le_of_lt (lt_of_le_of_lt bound grows), isIncremental⟩
            · rw [List.mem_singleton.mp last]
              exact ⟨grows, le_rfl, incremental⟩
          below := fun earlier place isSeen =>
            le_of_lt (lt_of_le_of_lt (holds.below earlier place isSeen) grows)
          connected := by
            intro earlier place isSeen other same deltas among path
            injection same with same
            subst same
            obtain ⟨before, split, beforeAmong, beforePath⟩ := path_through
              (fun entry member => (holds.entries entry member).2.1)
              (holds.below earlier place isSeen) grows
              (among.trans forgets) path
            rw [split]
            refine (holds.connected earlier place isSeen state built before beforeAmong
              beforePath).append ?_
            exact ⟨accounts.active, accounts.conflicts, accounts.lost, accounts.gained,
              accounts.statuses, accounts.empty⟩
          traced := by
            intro earlier place isSeen
            refine ⟨(holds.traced earlier place isSeen).1, ?_⟩
            intro other same deltas among path
            injection same with same
            subst same
            obtain ⟨before, split, beforeAmong, beforePath⟩ := path_through
              (fun entry member => (holds.entries entry member).2.1)
              (holds.below earlier place isSeen) grows
              (among.trans forgets) path
            rw [split]
            refine .trans (combine_isUnion _ _) ((holds.traced earlier place isSeen).2 state built
              before beforeAmong beforePath) ?_
            exact ⟨traces.statuses, traces.bound, traces.claims, traces.unmarked, traces.previous,
              traces.current, traces.resolved, traces.resolutions⟩ }
        split
        · obtain ⟨saved, kept⟩ := @saveCheckpoint_holds _ codec _ _ _ advanced (by simp)
          refine ⟨saved, ?_⟩
          intro other same
          rw [kept]
          obtain ⟨_, _, isNext⟩ := map_ok_iff.mp same
          rw [isNext]
        · refine ⟨advanced, ?_⟩
          intro other same
          exact congrArg some (Except.ok.inj same)

/-- One more state is seen: the cached one, at the current cursor. -/
theorem Holds.see (holds : memory.Holds detectors seen) {state : MemoryState}
    (built : memory.materializedState = some state) :
    memory.Holds detectors (fun earlier cursor => seen earlier cursor ∨
      (earlier = state ∧ cursor = memory.materializationCursor)) where
  sameDetectors := holds.sameDetectors
  store := holds.store
  boundary := holds.boundary
  unbuilt := by
    intro absent
    rw [built] at absent
    cases absent
  traceable := holds.traceable
  entries := holds.entries
  below := by
    rintro earlier cursor (isSeen | ⟨_, here⟩)
    · exact holds.below earlier cursor isSeen
    · exact le_of_eq here
  connected := by
    rintro earlier cursor (isSeen | ⟨same, here⟩) other isCached deltas among path
    · exact holds.connected earlier cursor isSeen other isCached deltas among path
    · rw [built, Option.some.injEq] at isCached
      subst same isCached here
      -- Every delta leads forward, so a path from the cursor to itself is empty.
      rcases path_forward (fun entry member => (holds.entries entry (among.mem member)).1)
        path with none | impossible
      · rw [none]
        exact .nil earlier
      · exact absurd impossible (lt_irrefl _)
  traced := by
    rintro earlier cursor (isSeen | ⟨same, here⟩)
    · exact holds.traced earlier cursor isSeen
    · subst same here
      refine ⟨holds.traceable earlier built, ?_⟩
      intro other isCached deltas among path
      rw [built, Option.some.injEq] at isCached
      subst isCached
      rcases path_forward (fun entry member => (holds.entries entry (among.mem member)).1)
        path with none | impossible
      · rw [none]
        exact combine_nil_traces earlier
      · exact absurd impossible (lt_irrefl _)

theorem checkConfig_holds (holds : memory.Holds detectors seen) :
    memory.checkConfig.Holds detectors seen := by
  unfold checkConfig
  split
  · exact {
      sameDetectors := holds.sameDetectors
      store := holds.store
      boundary := holds.boundary
      unbuilt := holds.unbuilt
      traceable := holds.traceable
      entries := holds.entries
      below := holds.below
      connected := holds.connected
      traced := holds.traced }
  · exact holds

/-- A canonical materialization keeps the invariant, and caches what it returns. -/
theorem canonical_holds (collisionFree : CollisionFree) (holds : memory.Holds detectors seen)
    (steady : memory.Steady) :
    (materializeCanonicalIncrementally codec memory).2.Holds detectors seen ∧
      ∀ state, (materializeCanonicalIncrementally codec memory).1 = .ok state →
        (materializeCanonicalIncrementally codec memory).2.materializedState = some state := by
  have configured := checkConfig_holds holds
  have steady' : memory.checkConfig.Steady := by
    unfold checkConfig
    split
    · exact steady
    · exact steady
  unfold materializeCanonicalIncrementally
  generalize memory.checkConfig = checked at configured steady'
  -- Before it is advanced, the cached state is current, rebuilt, or built for the first time.
  have current : (currentState codec checked).2.Holds detectors seen ∧
      ∀ state, (currentState codec checked).1 = .ok state →
        (currentState codec checked).2.materializedState = some state := by
    unfold currentState
    split
    · rename_i absent
      obtain ⟨noCheckpoint, unseen⟩ := configured.unbuilt absent
      unfold restoreOrBuildMaterializedState
      rw [noCheckpoint]
      exact rebuild_holds collisionFree configured
        (fun state cursor isSeen => absurd isSeen (unseen state cursor))
    · rename_i state present
      split
      · exact ⟨configured, fun other same => by rw [present, Except.ok.inj same]⟩
      · rename_i changed
        have ahead := steady' (by rw [present]; simp) changed
        exact rebuild_holds collisionFree configured (fun earlier cursor isSeen =>
          lt_of_le_of_lt (configured.below earlier cursor isSeen) ahead)
  split
  · rename_i failure next computed
    rw [computed] at current
    exact ⟨current.1, fun _ impossible => by cases impossible⟩
  · rename_i state next computed
    rw [computed] at current
    exact advance_holds collisionFree current.1 (current.2 state rfl)

/-! ## The calls of a run -/

/-- A call that may rebuild the cached state finds the memory steady. -/
def SteadyCall (memory : Memory) : Call → Prop
  | .materialize arguments => memory.isCanonical arguments = true → memory.Steady
  | .materializeWithDelta _ => memory.conflictDetectors = [] → memory.Steady
  | _ => True

/-- Every call of a run finds the memory steady. -/
def SteadyRun (codec : CheckpointCodec) (memory : Memory) : List Call → Prop
  | [] => True
  | call :: rest => memory.SteadyCall call ∧ SteadyRun codec (memory.after codec call) rest

theorem steadyRun_append (memory : Memory) (first second : List Call) :
    memory.SteadyRun codec (first ++ second) ↔
      memory.SteadyRun codec first ∧ (memory.run codec first).SteadyRun codec second := by
  induction first generalizing memory with
  | nil => exact ⟨fun steady => ⟨True.intro, steady⟩, And.right⟩
  | cons head tail inductionHypothesis =>
      rw [List.cons_append, SteadyRun, SteadyRun, inductionHypothesis, and_assoc]
      rfl

/-- A commit keeps the invariant. -/
private theorem commit_holds (holds : memory.Holds detectors seen) (oplog : OpLog)
    (added : List Op) :
    Holds { memory with store := memory.store.commit oplog added } detectors seen :=
  holds.congr (InMemoryStore.commit_wellFormed holds.store oplog added)
    (InMemoryStore.commit_extends memory.store oplog added) rfl rfl rfl rfl

theorem append_commits {store next : InMemoryStore} {op : Op} {added : Bool}
    (run : store.append op = .ok (next, added)) :
    ∃ oplog ops, next = store.commit oplog ops := by
  obtain ⟨⟨oplog, isNew⟩, _, same⟩ := bind_ok_iff.mp run
  injection same with same
  injection same with same
  exact ⟨_, _, same.symm⟩

theorem appendMany_commits {store next : InMemoryStore} {ops : List Op}
    {results : List Bool} (run : store.appendMany ops = .ok (next, results)) :
    ∃ oplog added, next = store.commit oplog added := by
  obtain ⟨⟨oplog, flags⟩, _, same⟩ := bind_ok_iff.mp run
  injection same with same
  injection same with same
  exact ⟨_, _, same.symm⟩

/-- Every call of a steady run keeps the invariant. -/
theorem after_holds (collisionFree : CollisionFree) (holds : memory.Holds detectors seen)
    {call : Call} (steady : memory.SteadyCall call) :
    (memory.after codec call).Holds detectors seen := by
  cases call with
  | append op =>
      change (memory.appendOp op).2.Holds detectors seen
      unfold appendOp
      split
      · exact holds
      · rename_i next isNew appended
        obtain ⟨oplog, added, same⟩ := append_commits appended
        dsimp only
        rw [same]
        exact commit_holds holds oplog added
  | commitBatch ops =>
      change (memory.commitBatch ops).2.Holds detectors seen
      unfold commitBatch
      split
      · exact holds
      · rename_i next results appended
        obtain ⟨oplog, added, same⟩ := appendMany_commits appended
        dsimp only
        rw [same]
        exact commit_holds holds oplog added
  | mergeFrom other =>
      change (memory.mergeFrom other).2.Holds detectors seen
      unfold mergeFrom
      split
      · exact holds
      · rename_i merged store computed
        simp only [bind_ok_iff, pure_ok_iff, Prod.mk.injEq] at computed
        obtain ⟨own, _, merged', _, ⟨store', results⟩, appended, _, sameStore⟩ := computed
        obtain ⟨oplog, added, same⟩ := appendMany_commits appended
        dsimp only
        rw [← sameStore, same]
        exact commit_holds holds oplog added
  | register predicate rule =>
      exact {
        sameDetectors := holds.sameDetectors
        store := holds.store
        boundary := holds.boundary
        unbuilt := holds.unbuilt
        traceable := holds.traceable
        entries := holds.entries
        below := holds.below
        connected := holds.connected
        traced := holds.traced }
  | materialize arguments =>
      change (memory.materialize codec arguments).2.Holds detectors seen
      unfold Memory.materialize
      split
      · rename_i canonical
        exact (canonical_holds collisionFree holds (steady canonical)).1
      · exact holds
  | materializeWithDelta sinceCursor =>
      change (memory.materializeWithDelta codec sinceCursor).2.Holds detectors seen
      unfold materializeWithDelta
      split
      · rename_i some
        unfold Memory.materialize
        rw [if_neg]
        · exact holds
        · simp [isCanonical, Memory.detectors, Arguments.default, some]
      · rename_i none
        rw [not_not] at none
        exact (canonical_holds collisionFree holds (steady none)).1

theorem run_holds (collisionFree : CollisionFree) (calls : List Call)
    (holds : memory.Holds detectors seen) (steady : memory.SteadyRun codec calls) :
    (memory.run codec calls).Holds detectors seen := by
  induction calls generalizing memory with
  | nil => exact holds
  | cons head tail inductionHypothesis =>
      exact inductionHypothesis (after_holds collisionFree holds steady.1) steady.2

/-- Without detectors a returned state is the one that the memory caches. -/
theorem cached_of_returns (collisionFree : CollisionFree) (holds : memory.Holds [] seen)
    {call : Call} (steady : memory.SteadyCall call) {state : MemoryState}
    (returned : memory.Returns codec call state) :
    (memory.after codec call).materializedState = some state := by
  cases call with
  | append op => exact returned.elim
  | commitBatch ops => exact returned.elim
  | mergeFrom other => exact returned.elim
  | register predicate rule => exact returned.elim
  | materialize arguments =>
      obtain ⟨canonical, result⟩ := returned
      change (memory.materialize codec arguments).2.materializedState = some state
      unfold Memory.materialize at result ⊢
      rw [if_pos canonical] at result ⊢
      exact (canonical_holds collisionFree holds (steady canonical)).2 state result
  | materializeWithDelta sinceCursor =>
      obtain ⟨delta, result⟩ := returned
      change (memory.materializeWithDelta codec sinceCursor).2.materializedState = some state
      unfold materializeWithDelta at result ⊢
      rw [if_neg (by rw [holds.sameDetectors]; simp)] at result ⊢
      obtain ⟨cached, computed, same⟩ := map_ok_iff.mp result
      injection same with same
      rw [← same]
      exact (canonical_holds collisionFree holds (steady holds.sameDetectors)).2 cached computed

/-- A delta since the cursor of a returned state is a rebuild or accounts for what changed. -/
theorem deltaSince_accounts (holds : memory.Holds detectors seen)
    {first state : MemoryState}
    (built : memory.materializedState = some state) {cursor : Nat} (isSeen : seen first cursor) :
    (memory.deltaSince (some cursor)).fullRebuild = true ∨
      (memory.deltaSince (some cursor)).Accounts first state := by
  unfold deltaSince
  dsimp only
  by_cases here : cursor = memory.materializationCursor
  · rw [if_pos here]
    have together := holds.connected first cursor isSeen state built [] (List.nil_sublist _) here
    have same : first = state := together.empty (by simp)
    rw [same]
    exact Or.inr ⟨fun _ _ => rfl, fun _ _ => rfl, fun _ present absent => absurd present absent,
      fun _ present absent => absurd present absent, fun _ _ => rfl, fun _ => rfl⟩
  · rw [if_neg here]
    cases collected : memory.materializationHistory.foldlM (collectDelta cursor) ([], cursor) with
    | none => exact Or.inl rfl
    | some result =>
        obtain ⟨deltas, expected⟩ := result
        dsimp only
        by_cases broken : deltas = [] ∨ expected ≠ memory.materializationCursor
        · rw [if_pos broken]
          exact Or.inl rfl
        · rw [if_neg broken]
          obtain ⟨_, reaches⟩ := not_or.mp broken
          rw [not_not] at reaches
          obtain ⟨path, taken, same, among⟩ := collect_path _ ([], cursor) rfl collected
          rw [List.nil_append] at same
          rw [← same] at among
          rw [reaches] at path
          exact Or.inr (combine_accounts
            (holds.connected first cursor isSeen state built deltas among path)
            (fun delta member => (holds.entries delta (among.mem member)).2.2))

omit [Runtime] in
private theorem path_last {deltas : List MaterializationDelta} {start stop : Nat}
    (path : Path start deltas stop) (some : deltas ≠ []) :
    (deltas.getLast?.map (·.cursorAfter)).getD 0 = stop := by
  rw [← List.dropLast_concat_getLast some, path_append] at path
  rw [List.getLast?_eq_some_getLast some]
  exact path.2

/-- A delta leads to the cursor of the cached state. -/
theorem deltaSince_cursorAfter (memory : Memory) (sinceCursor : Option Nat) :
    (memory.deltaSince sinceCursor).cursorAfter = memory.materializationCursor := by
  cases sinceCursor with
  | none => rfl
  | some since =>
      unfold deltaSince
      dsimp only
      split
      · rfl
      · cases collected : memory.materializationHistory.foldlM (collectDelta since) ([], since) with
        | none => rfl
        | some result =>
            obtain ⟨deltas, expected⟩ := result
            dsimp only
            split
            · rfl
            · rename_i unbroken
              obtain ⟨some, reaches⟩ := not_or.mp unbroken
              rw [not_not] at reaches
              obtain ⟨path, taken, same, _⟩ := collect_path _ ([], since) rfl collected
              rw [reaches] at path
              exact path_last path some

/-- A delta since the cursor of a returned state is a rebuild or traces what changed. -/
theorem deltaSince_traces (holds : memory.Holds detectors seen) {first state : MemoryState}
    (built : memory.materializedState = some state) {cursor : Nat} (isSeen : seen first cursor) :
    (memory.deltaSince (some cursor)).fullRebuild = true ∨
      (memory.deltaSince (some cursor)).fullRebuild = false ∧
        (memory.deltaSince (some cursor)).Traces first state := by
  obtain ⟨_, traced⟩ := holds.traced first cursor isSeen
  unfold deltaSince
  dsimp only
  by_cases here : cursor = memory.materializationCursor
  · rw [if_pos here]
    have traces := traced state built [] (List.nil_sublist _) here
    exact Or.inr ⟨rfl, traces.statuses, traces.bound, traces.claims, traces.unmarked,
      traces.previous, traces.current, traces.resolved, traces.resolutions⟩
  · rw [if_neg here]
    cases collected : memory.materializationHistory.foldlM (collectDelta cursor) ([], cursor) with
    | none => exact Or.inl rfl
    | some result =>
        obtain ⟨deltas, expected⟩ := result
        dsimp only
        by_cases broken : deltas = [] ∨ expected ≠ memory.materializationCursor
        · rw [if_pos broken]
          exact Or.inl rfl
        · rw [if_neg broken]
          obtain ⟨_, reaches⟩ := not_or.mp broken
          rw [not_not] at reaches
          obtain ⟨path, taken, same, among⟩ := collect_path _ ([], cursor) rfl collected
          rw [List.nil_append] at same
          rw [← same] at among
          rw [reaches] at path
          exact Or.inr ⟨rfl, traced state built deltas among path⟩

/-- Fewer states are seen. -/
theorem Holds.forget {fewer : MemoryState → Nat → Prop} (holds : memory.Holds detectors seen)
    (among : ∀ state cursor, fewer state cursor → seen state cursor) :
    memory.Holds detectors fewer where
  sameDetectors := holds.sameDetectors
  store := holds.store
  boundary := holds.boundary
  unbuilt := fun absent => ⟨(holds.unbuilt absent).1, fun state cursor isSeen =>
    (holds.unbuilt absent).2 state cursor (among state cursor isSeen)⟩
  traceable := holds.traceable
  entries := holds.entries
  below := fun state cursor isSeen => holds.below state cursor (among state cursor isSeen)
  connected := fun state cursor isSeen => holds.connected state cursor (among state cursor isSeen)
  traced := fun state cursor isSeen => holds.traced state cursor (among state cursor isSeen)

/-! ## A registry that does not change -/

/-- The cached state has been materialized with the current registry. -/
def Registered (memory : Memory) : Prop :=
  memory.materializedState ≠ none →
    memory.materializedRegistryRevision = some memory.registryRevision

theorem Registered.steady (registered : memory.Registered) : memory.Steady :=
  fun built changed => absurd (registered built) changed

theorem create_registered (predicateRegistry : Option (PredicateRegistry × Nat))
    (conflictDetectors : List ConflictDetector) (configToken : Option String) :
    (create predicateRegistry conflictDetectors configToken).Registered :=
  fun built => absurd rfl built

theorem saveCheckpoint_registered (registered : memory.Registered) :
    (saveMaterializationCheckpoint codec memory).2.Registered := by
  unfold saveMaterializationCheckpoint
  split
  · split
    · exact registered
    · exact registered
  · exact registered

theorem rebuild_registered (registered : memory.Registered) :
    (rebuildMaterializedState codec memory).2.Registered := by
  unfold rebuildMaterializedState
  split
  · exact registered
  · exact saveCheckpoint_registered fun _ => rfl

theorem advance_registered (registered : memory.Registered) (state : MemoryState) :
    (advance codec memory state).2.Registered := by
  unfold advance
  split
  · exact rebuild_registered registered
  · split
    · exact registered
    · split
      · exact registered
      · dsimp only
        split
        · exact saveCheckpoint_registered fun _ => rfl
        · exact fun _ => rfl

theorem currentState_registered (registered : memory.Registered) :
    (currentState codec memory).2.Registered := by
  unfold currentState
  split
  · unfold restoreOrBuildMaterializedState
    split
    · exact rebuild_registered registered
    · split
      · rename_i restored
        obtain ⟨decoded, _, restored⟩ := bind_ok_iff.mp restored
        obtain ⟨read, _, restored⟩ := bind_ok_iff.mp restored
        obtain ⟨⟨reached, delta⟩, _, restored⟩ := bind_ok_iff.mp restored
        injection pure_ok_iff.mp restored with _ same
        rw [← same]
        exact fun _ => rfl
      · split
        · exact rebuild_registered registered
        · exact registered
  · split
    · exact registered
    · exact rebuild_registered registered

theorem canonical_registered (registered : memory.Registered) :
    (materializeCanonicalIncrementally codec memory).2.Registered := by
  have configured : memory.checkConfig.Registered := by
    unfold checkConfig
    split
    · exact registered
    · exact registered
  have current := @currentState_registered _ codec _ configured
  unfold materializeCanonicalIncrementally
  split
  · rename_i computed
    rw [computed] at current
    exact current
  · rename_i computed
    rw [computed] at current
    exact advance_registered current _

/-- The call registers no predicate. -/
def Call.KeepsRegistry : Call → Prop
  | .register _ _ => False
  | _ => True

theorem after_registered (registered : memory.Registered) {call : Call}
    (keeps : call.KeepsRegistry) : (memory.after codec call).Registered := by
  cases call with
  | append op =>
      change (memory.appendOp op).2.Registered
      unfold appendOp
      split
      · exact registered
      · exact registered
  | commitBatch ops =>
      change (memory.commitBatch ops).2.Registered
      unfold commitBatch
      split
      · exact registered
      · exact registered
  | mergeFrom other =>
      change (memory.mergeFrom other).2.Registered
      unfold mergeFrom
      split
      · exact registered
      · exact registered
  | register predicate rule => exact keeps.elim
  | materialize arguments =>
      change (memory.materialize codec arguments).2.Registered
      unfold Memory.materialize
      split
      · exact canonical_registered registered
      · exact registered
  | materializeWithDelta sinceCursor =>
      change (memory.materializeWithDelta codec sinceCursor).2.Registered
      unfold materializeWithDelta
      split
      · unfold Memory.materialize
        split
        · exact canonical_registered registered
        · exact registered
      · exact canonical_registered registered

theorem Registered.steadyCall (registered : memory.Registered) (call : Call) :
    memory.SteadyCall call := by
  cases call with
  | materialize arguments => exact fun _ => registered.steady
  | materializeWithDelta sinceCursor => exact fun _ => registered.steady
  | append op => exact True.intro
  | commitBatch ops => exact True.intro
  | mergeFrom other => exact True.intro
  | register predicate rule => exact True.intro

/-- In a run that stays steady, `materialize_with_delta` since the cursor of a returned
state hides no change. -/
theorem materializeWithDelta_accounts (collisionFree : CollisionFree) (codec : CheckpointCodec)
    (predicateRegistry : Option (PredicateRegistry × Nat)) (detectors : List ConflictDetector)
    (configToken : Option String) (before : List Call) (call : Call) (between : List Call)
    {start earlier reached later : Memory} {first second : MemoryState}
    {delta : MaterializationDelta}
    (created : start = create predicateRegistry detectors configToken)
    (ranBefore : earlier = start.run codec before) (called : reached = earlier.after codec call)
    (ranBetween : later = reached.run codec between)
    (steady : start.SteadyRun codec
      (before ++ call :: between ++ [.materializeWithDelta (some reached.materializationCursor)]))
    (returned : earlier.Returns codec call first)
    (asked : (later.materializeWithDelta codec (some reached.materializationCursor)).1 =
      .ok (second, delta)) :
    delta.fullRebuild = true ∨ delta.Accounts first second := by
  subst created ranBefore called ranBetween
  rw [List.append_assoc, List.cons_append, steadyRun_append, SteadyRun, steadyRun_append,
    SteadyRun] at steady
  obtain ⟨steadyBefore, steadyCall, steadyBetween, steadyLast, _⟩ := steady
  have initially := create_holds predicateRegistry detectors configToken
  have holdsBefore := run_holds collisionFree before initially steadyBefore
  have holdsCall := @after_holds _ codec _ _ _ collisionFree holdsBefore call steadyCall
  by_cases some : detectors = []
  · subst some
    have cached := cached_of_returns collisionFree holdsBefore steadyCall returned
    have holdsBetween := run_holds collisionFree between (holdsCall.see cached) steadyBetween
    unfold materializeWithDelta at asked
    rw [if_neg (by rw [holdsBetween.sameDetectors]; simp)] at asked
    obtain ⟨state, computed, same⟩ := map_ok_iff.mp asked
    injection same with sameState sameDelta
    obtain ⟨holdsLast, caches⟩ := @canonical_holds _ codec _ _ _ collisionFree holdsBetween
      (steadyLast holdsBetween.sameDetectors)
    rw [← sameState, ← sameDelta]
    exact deltaSince_accounts holdsLast (caches state computed) (Or.inr ⟨rfl, rfl⟩)
  · have holdsBetween := run_holds collisionFree between holdsCall steadyBetween
    unfold materializeWithDelta at asked
    rw [if_pos (by rw [holdsBetween.sameDetectors]; exact some)] at asked
    obtain ⟨state, _, same⟩ := map_ok_iff.mp asked
    injection same with _ sameDelta
    rw [← sameDelta]
    exact Or.inl rfl

end Memory

end Runs

/-! ## A memory with two claims of one key -/

section Example

attribute [local instance] Reference.runtime

namespace Memory

/-- Checkpoints are not read in the examples. -/
def blankCodec : CheckpointCodec where
  encode _ := .ok ""
  decode _ _ := valueError "Unsupported materialization checkpoint."

/-- A memory whose registry is given: it writes no checkpoints. -/
def exampleStart : Memory := create (some (.empty, 0)) [] none

private def claimOne : Op :=
  .claimAdded ⟨"op-a", "r", "t"⟩ (Reference.fact "a" Reference.key (.str "x") [])

private def claimTwo : Op :=
  .claimAdded ⟨"op-b", "r", "t"⟩ (Reference.fact "b" Reference.key (.str "y") [])

/-- Both claims are appended before the first materialization. -/
def withBoth : Memory := exampleStart.run blankCodec [.append claimOne, .append claimTwo]

/-- Only one claim is. -/
def withOne : Memory := exampleStart.run blankCodec [.append claimOne]

/-- The predicate of the claims may have several values. -/
def severalValues : Call := .register "p" ⟨true, none, none, false⟩

/-- What is compared of two materializations and the delta between them. -/
def comparison (codec : CheckpointCodec) (earlier : Memory) (between : List Call) :
    Option (Nat × Nat × Bool × Bool) := do
  let called := earlier.materializeWithDelta codec none
  let (first, _) ← called.1.toOption
  let asked := (called.2.run codec between).materializeWithDelta codec
    (some called.2.materializationCursor)
  let (second, delta) ← asked.1.toOption
  return (first.conflicts.length, second.conflicts.length, delta.isEmpty, delta.fullRebuild)

private theorem comparison_eq {codec : CheckpointCodec} {earlier : Memory} {between : List Call}
    {before after : Nat} {isEmpty rebuilt : Bool}
    (computed : comparison codec earlier between = some (before, after, isEmpty, rebuilt)) :
    ∃ first second given delta,
      (earlier.materializeWithDelta codec none).1 = .ok (first, given) ∧
      (((earlier.after codec (.materializeWithDelta none)).run codec between).materializeWithDelta
        codec (some (earlier.after codec (.materializeWithDelta none)).materializationCursor)).1 =
          .ok (second, delta) ∧
      first.conflicts.length = before ∧ second.conflicts.length = after ∧
      delta.isEmpty = isEmpty ∧ delta.fullRebuild = rebuilt := by
  unfold comparison at computed
  change Option.bind (earlier.materializeWithDelta codec none).1.toOption _ = _ at computed
  rcases Option.bind_eq_some_iff.mp computed with ⟨⟨first, given⟩, called, rest⟩
  rcases Option.bind_eq_some_iff.mp rest with ⟨⟨second, delta⟩, asked, same⟩
  injection same with same
  simp only [Prod.mk.injEq] at same
  have ok : ∀ {α : Type} {result : Result α} {value : α},
      result.toOption = some value → result = .ok value := by
    intro α result value isSome
    cases result with
    | error failure => cases isSome
    | ok found => exact congrArg Except.ok (Option.some.inj isSome)
  exact ⟨first, second, given, delta, ok called, ok asked, same⟩

/-- Registering a rule between two calls changes the conflicts, and the delta is empty. -/
theorem register_hides_change :
    ∃ first second given delta,
      (withBoth.materializeWithDelta blankCodec none).1 = .ok (first, given) ∧
      (((withBoth.after blankCodec (.materializeWithDelta none)).run blankCodec
        [severalValues]).materializeWithDelta blankCodec
          (some (withBoth.after blankCodec (.materializeWithDelta none)).materializationCursor)).1 =
        .ok (second, delta) ∧
      delta.fullRebuild = false ∧ delta.isEmpty = true ∧ first ≠ second ∧
      ¬delta.Accounts first second := by
  have computed : comparison blankCodec withBoth [severalValues] = some (1, 0, true, false) := by
    decide +kernel
  rcases comparison_eq computed with
    ⟨first, second, given, delta, called, asked, before, after, isEmpty, incremental⟩
  have different : first ≠ second := by
    intro same
    rw [same, after] at before
    cases before
  exact ⟨first, second, given, delta, called, asked, incremental, isEmpty, different,
    fun accounts => different (accounts.empty isEmpty)⟩

/-- A second claim between two calls is in the delta. -/
theorem materializeWithDelta_accounts_appended :
    ∃ first second given delta,
      (withOne.materializeWithDelta blankCodec none).1 = .ok (first, given) ∧
      (((withOne.after blankCodec (.materializeWithDelta none)).run blankCodec
        [.append claimTwo]).materializeWithDelta blankCodec
          (some (withOne.after blankCodec (.materializeWithDelta none)).materializationCursor)).1 =
        .ok (second, delta) ∧
      second.conflicts.length = 1 ∧ delta.fullRebuild = false ∧ delta.Accounts first second := by
  have computed : comparison blankCodec withOne [.append claimTwo] = some (0, 1, false, false) := by
    decide +kernel
  rcases comparison_eq computed with
    ⟨first, second, given, delta, called, asked, before, after, _, incremental⟩
  have steady : exampleStart.SteadyRun blankCodec
      ([.append claimOne] ++ .materializeWithDelta none :: [.append claimTwo] ++
        [.materializeWithDelta
          (some (withOne.after blankCodec
            (.materializeWithDelta none)).materializationCursor)]) := by
    have unbuilt : withOne.materializedState.isNone = true := by decide +kernel
    let last := (withOne.after blankCodec (.materializeWithDelta none)).after blankCodec
      (.append claimTwo)
    have unchanged : last.materializedRegistryRevision = some last.registryRevision := by
      decide +kernel
    refine ⟨True.intro, ?_, True.intro, ?_, True.intro⟩
    · exact fun _ built => absurd (Option.isNone_iff_eq_none.mp unbuilt) built
    · exact fun _ _ changed => absurd unchanged changed
  rcases materializeWithDelta_accounts Reference.collisionFree blankCodec (some (.empty, 0)) []
    none [.append claimOne] (.materializeWithDelta none) [.append claimTwo] rfl rfl rfl rfl
    steady ⟨given, called⟩ asked with rebuilt | accounts
  · rw [incremental] at rebuilt
    cases rebuilt
  · exact ⟨first, second, given, delta, called, asked, after, incremental, accounts⟩

end Memory

end Example

end Statefuse
