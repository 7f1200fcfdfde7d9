import Statefuse.Materialize.CheckpointSpec
import Statefuse.Materialize.Refinement
import Statefuse.Memory.Deltas
import Statefuse.Merge.AuthenticatedSpec
import Statefuse.Store.Positions

/-!
# Memories that come back

A memory saves its cached state to its store from time to time; a new memory over the
same store starts from the checkpoint and reads the operations committed since.  Whatever
is written in whatever sessions, a call of `materialize` returns what full
materialization makes of the log (`sessions_materialize`): neither the cache nor the
checkpoints can be told from a rebuild.
-/

namespace Statefuse

open Foundation

section Sessions

variable [Runtime]

/-- The order in which a process lists the tables of a state. -/
structure Listing where
  records : MemoryState → CheckpointRecords
  lists : ∀ state, (records state).Of state

/-- The checkpoints that a process writes and reads. -/
def Listing.codec (listing : Listing) : CheckpointCodec where
  encode state := .ok (listing.records state).text
  decode := memoryStateFromCheckpoint

namespace Memory

/-- The calls that one process makes. -/
structure Session where
  listing : Listing
  calls : List Call

/-- A new memory over the store of an earlier one, made with the same arguments. -/
def reopen (start memory : Memory) : Memory := { start with store := memory.store }

/-- The memory of the last of several sessions, each over the store of the one before. -/
def throughSessions (start : Memory) (sessions : List Session) : Memory :=
  sessions.foldl (fun memory session =>
    (start.reopen memory).run session.listing.codec session.calls) start

/-- The call leaves the predicate registry alone. -/
def KeepsRegistry : Call → Prop
  | .register _ _ => False
  | _ => True

/-- What a call of `materialize` returns when nothing is cached. -/
def materializeFully (memory : Memory) (arguments : Arguments) : Result MemoryState := do
  let log ← memory.store.loadOplog
  Statefuse.materialize log (arguments.predicateRegistry.getD memory.predicateRegistry)
    (memory.detectors arguments) arguments.validAt (arguments.context.getD ∅)

end Memory

/-! ## What a position of a store amounts to -/

/-- The operations have been read before, and records that `==` identifies are one. -/
structure Legible (ops : List Op) : Prop where
  comparable : (Contents.of (· ∈ ops)).Comparable
  decoded : ∀ op ∈ ops, op.decoded = op

theorem Legible.mono {fewer more : List Op} (legible : Legible more)
    (among : ∀ op ∈ fewer, op ∈ more) : Legible fewer :=
  ⟨legible.comparable.mono among, fun op listed => legible.decoded op (among op listed)⟩

namespace InMemoryStore

/-- The state is what the operations up to a cursor amount to. -/
def Amounts (store : InMemoryStore) (registry : PredicateRegistry) (cursor : Nat)
    (state : MemoryState) : Prop :=
  Legible store.appendOrder →
    materializeAll registry (store.appendOrder.take cursor) = .ok state

variable {store : InMemoryStore} {registry : PredicateRegistry} {cursor : Nat}
  {state : MemoryState}

theorem commit_appendOrder (store : InMemoryStore) (oplog : OpLog) (added : List Op) :
    (store.commit oplog added).appendOrder = store.appendOrder ++ added := by
  unfold commit
  split
  · rename_i none
    rw [none, List.append_nil]
  · rfl

theorem Amounts.commit (amounts : store.Amounts registry cursor state)
    (within : cursor ≤ store.appendOrder.length) (oplog : OpLog) (added : List Op) :
    (store.commit oplog added).Amounts registry cursor state := by
  intro legible
  rw [commit_appendOrder] at legible ⊢
  rw [List.take_append_of_le_length within]
  exact amounts (legible.mono (fun op => List.mem_append_left _))

theorem bound_of_sound (sound : LogStore.Sound (.inMemory store)) :
    IdsBound store.appendOrder := by
  intro first firstListed second secondListed same
  have firstFound := (OpLog.mem_iterOps _ _).mp ((sound.2 first).mpr firstListed)
  have secondFound := (OpLog.mem_iterOps _ _).mp ((sound.2 second).mpr secondListed)
  rw [same, secondFound, Option.some.injEq] at firstFound
  exact firstFound.symm

/-- Full materialization of the committed operations is that of the log. -/
theorem materializeAll_appendOrder (sound : LogStore.Sound (.inMemory store)) :
    materializeAll registry store.appendOrder = materialize store.oplog registry [] none ∅ := by
  obtain ⟨log, built, members⟩ := OpLog.ofOps_ok (bound_of_sound sound)
  have same : log = store.oplog := by
    apply OpLog.ext
    apply Dict.ext
    intro opId
    apply Option.ext
    intro op
    have listed : op ∈ log.iterOps ↔ op ∈ store.oplog.iterOps :=
      (members op).trans (sound.2 op).symm
    rw [OpLog.mem_iterOps, OpLog.mem_iterOps] at listed
    constructor
    · intro found
      have own := log.keyed opId op found
      rw [← own] at found ⊢
      exact listed.mp found
    · intro found
      have own := store.oplog.keyed opId op found
      rw [← own] at found ⊢
      exact listed.mpr found
  rw [materializeAll, bind_of_ok built, same]

/-- Advancing a state over the operations after its cursor is full materialization. -/
theorem Amounts.advance_iff (collisionFree : CollisionFree)
    (sound : LogStore.Sound (.inMemory store)) (legible : Legible store.appendOrder)
    (amounts : store.Amounts registry cursor state) (next : MemoryState) :
    (applyOperationsIncrementally state (store.appendOrder.drop cursor) []).map Prod.fst =
        .ok next ↔
      materializeAll registry store.appendOrder = .ok next := by
  have bound := bound_of_sound sound
  have comparable := legible.comparable
  rw [← List.take_append_drop cursor store.appendOrder] at bound comparable
  rw [applyChunk_iff collisionFree bound comparable (amounts legible), List.take_append_drop]

/-- The state of a position is read back from a checkpoint of it. -/
theorem Amounts.decode (sound : LogStore.Sound (.inMemory store))
    (legible : Legible store.appendOrder) (amounts : store.Amounts registry cursor state)
    {records : CheckpointRecords} (listed : records.Of state) :
    memoryStateFromCheckpoint records.text registry = .ok state := by
  have among : ∀ op ∈ store.appendOrder.take cursor, op ∈ store.appendOrder :=
    fun op => List.mem_of_mem_take
  have bound : IdsBound (store.appendOrder.take cursor) := fun first left second right =>
    bound_of_sound sound first (among first left) second (among second right)
  obtain ⟨log, built, members⟩ := OpLog.ofOps_ok bound
  have run := amounts legible
  rw [materializeAll, bind_of_ok built] at run
  have plain := (legible.comparable.mono among).plain bound
  have contents : Contents.of (· ∈ log.iterOps) =
      Contents.of (· ∈ store.appendOrder.take cursor) := by
    congr 1
    funext op
    exact propext (members op)
  rw [← contents] at plain
  exact checkpoint_round_trip plain
    (fun op listed => legible.decoded op (among op ((members op).mp listed)))
    (fun _ impossible => absurd impossible List.not_mem_nil) run listed

end InMemoryStore

/-! ## The invariant of a session -/

namespace Memory

/-- The cached state and the checkpoint are what their positions amount to. -/
structure Sound (memory : Memory) (registry : PredicateRegistry) : Prop where
  sameRegistry : memory.predicateRegistry = registry
  current : memory.materializedState ≠ none →
    memory.materializedRegistryRevision = some memory.registryRevision
  store : LogStore.Sound (.inMemory memory.store)
  boundary : memory.store.Boundary memory.materializationCursor
  cached : ∀ state, memory.materializedState = some state →
    memory.store.Amounts registry memory.materializationCursor state
  saved : ∀ checkpoint, memory.store.checkpoint = some checkpoint →
    memory.store.Boundary checkpoint.cursor ∧ ∃ state records,
      CheckpointRecords.Of records state ∧ checkpoint.payload = records.text ∧
      memory.store.Amounts registry checkpoint.cursor state

/-- The answers of a computation are those of full materialization, if the log can be
written and read. -/
def Answers (memory : Memory) (registry : PredicateRegistry) (result : Result MemoryState) :
    Prop :=
  Legible memory.store.appendOrder → ∀ state, result = .ok state ↔
    materializeAll registry memory.store.appendOrder = .ok state

variable {memory : Memory} {registry : PredicateRegistry} {listing : Listing}

theorem create_sound (predicateRegistry : Option (PredicateRegistry × Nat))
    (detectors : List ConflictDetector) (configToken : Option String) :
    (create predicateRegistry detectors configToken).Sound
      ((predicateRegistry.map Prod.fst).getD .empty) where
  sameRegistry := rfl
  current := fun built => absurd rfl built
  store := ⟨InMemoryStore.empty_wellFormed, by
    simp [create, InMemoryStore.empty, OpLog.mem_iterOps, OpLog.empty]⟩
  boundary := List.mem_cons_self
  cached := fun _ impossible => by cases impossible
  saved := fun _ impossible => by cases impossible

/-- A new memory over the same store has nothing cached. -/
theorem reopen_sound (predicateRegistry : Option (PredicateRegistry × Nat))
    (detectors : List ConflictDetector) (configToken : Option String)
    (sound : memory.Sound ((predicateRegistry.map Prod.fst).getD .empty)) :
    ((create predicateRegistry detectors configToken).reopen memory).Sound
      ((predicateRegistry.map Prod.fst).getD .empty) where
  sameRegistry := rfl
  current := fun built => absurd rfl built
  store := sound.store
  boundary := List.mem_cons_self
  cached := fun _ impossible => by cases impossible
  saved := sound.saved

theorem checkConfig_sound (sound : memory.Sound registry) : memory.checkConfig.Sound registry := by
  unfold checkConfig
  split
  · exact ⟨sound.sameRegistry, sound.current, sound.store, sound.boundary, sound.cached,
      sound.saved⟩
  · exact sound

/-- Saving a checkpoint succeeds, and the checkpoint is what its position amounts to. -/
theorem save_sound (sound : memory.Sound registry) :
    (saveMaterializationCheckpoint listing.codec memory).1 = .ok () ∧
      (saveMaterializationCheckpoint listing.codec memory).2.Sound registry ∧
      (saveMaterializationCheckpoint listing.codec memory).2.materializedState =
        memory.materializedState ∧
      (saveMaterializationCheckpoint listing.codec memory).2.store.appendOrder =
        memory.store.appendOrder := by
  unfold saveMaterializationCheckpoint
  split
  · rename_i token state isToken isState
    refine ⟨rfl, ?_, rfl, rfl⟩
    exact {
      sameRegistry := sound.sameRegistry
      current := sound.current
      store := ⟨⟨sound.store.1.rising, sound.store.1.last⟩, sound.store.2⟩
      boundary := sound.boundary
      cached := sound.cached
      saved := by
        intro checkpoint same
        injection same with same
        rw [← same]
        exact ⟨sound.boundary, state, listing.records state, listing.lists state, rfl,
          sound.cached state isState⟩ }
  · exact ⟨rfl, sound, rfl, rfl⟩

/-- The memory with a state for all operations of its store. -/
theorem built_sound (sound : memory.Sound registry) {next : Memory} {state : MemoryState}
    (answers : memory.Answers registry (.ok state)) (store : next.store = memory.store)
    (sameRegistry : next.predicateRegistry = memory.predicateRegistry)
    (current : next.materializedRegistryRevision = some next.registryRevision)
    (cached : next.materializedState = some state)
    (cursor : next.materializationCursor = memory.store.appendOrder.length) :
    next.Sound registry where
  sameRegistry := sameRegistry.trans sound.sameRegistry
  current := fun _ => current
  store := by
    rw [store]
    exact sound.store
  boundary := by
    rw [store, cursor, ← sound.store.1.last]
    exact List.getLast_mem _
  cached := by
    intro other same legible
    rw [cached, Option.some.injEq] at same
    rw [store] at legible ⊢
    rw [cursor, List.take_length, ← same]
    exact (answers legible state).mp rfl
  saved := by
    rw [store]
    exact sound.saved

/-- What a computation of the cached state does: its answer is that of full
materialization, the memory that it leaves is sound, and the answer is cached there. -/
structure Computes (memory : Memory) (registry : PredicateRegistry)
    (computed : Result MemoryState × Memory) : Prop where
  answers : memory.Answers registry computed.1
  sound : computed.2.Sound registry
  order : computed.2.store.appendOrder = memory.store.appendOrder
  caches : ∀ state, computed.1 = .ok state → computed.2.materializedState = some state

/-- A failed computation leaves the memory as it was. -/
theorem computes_error (sound : memory.Sound registry) {failure : PyError}
    (fails : Legible memory.store.appendOrder → ∀ state,
      materializeAll registry memory.store.appendOrder ≠ .ok state) :
    memory.Computes registry (.error failure, memory) where
  answers := by
    intro legible state
    exact ⟨fun impossible => (by cases impossible), fun full => absurd full (fails legible state)⟩
  sound := sound
  order := rfl
  caches := fun _ impossible => by cases impossible

/-- A state for all operations is cached and saved. -/
theorem computes_saved (sound : memory.Sound registry) {next : Memory} {state : MemoryState}
    (answers : memory.Answers registry (.ok state)) (store : next.store = memory.store)
    (sameRegistry : next.predicateRegistry = memory.predicateRegistry)
    (current : next.materializedRegistryRevision = some next.registryRevision)
    (cached : next.materializedState = some state)
    (cursor : next.materializationCursor = memory.store.appendOrder.length) :
    memory.Computes registry
      ((saveMaterializationCheckpoint listing.codec next).1.map fun _ => state,
        (saveMaterializationCheckpoint listing.codec next).2) := by
  obtain ⟨saves, saved, kept, order⟩ := @save_sound _ _ _ listing
    (built_sound sound answers store sameRegistry current cached cursor)
  have result : ((saveMaterializationCheckpoint listing.codec next).1.map fun _ => state) =
      .ok state := by
    rw [saves]
    rfl
  refine ⟨?_, saved, ?_, ?_⟩
  · rw [result]
    exact answers
  · rw [order, store]
  · intro other same
    rw [kept, cached, Except.ok.inj (result.symm.trans same)]

/-- A rebuild answers with full materialization. -/
theorem rebuild_computes (sound : memory.Sound registry) :
    memory.Computes registry (rebuildMaterializedState listing.codec memory) := by
  obtain ⟨read, reading, cursor, _⟩ :=
    InMemoryStore.readAfter_boundary sound.store.1 (List.mem_cons_self : 0 ∈ 0 :: _)
  have log : memory.store.loadOplog = .ok memory.store.oplog := OpLog.ofOps_iterOps _
  have full : materializeAll memory.predicateRegistry memory.store.appendOrder =
      Statefuse.materialize memory.store.oplog memory.predicateRegistry [] none ∅ :=
    InMemoryStore.materializeAll_appendOrder sound.store
  unfold rebuildMaterializedState
  rw [bind_of_ok reading, bind_of_ok log, ← full]
  cases run : materializeAll memory.predicateRegistry memory.store.appendOrder with
  | error failure =>
      refine computes_error sound ?_
      intro _ state impossible
      rw [← sound.sameRegistry, run] at impossible
      cases impossible
  | ok state =>
      refine computes_saved sound ?_ rfl rfl rfl rfl cursor
      intro _ other
      rw [← sound.sameRegistry, run]

/-- Advancing the cached state answers with full materialization. -/
theorem advance_computes (collisionFree : CollisionFree) (sound : memory.Sound registry)
    {state : MemoryState} (cached : memory.materializedState = some state) :
    memory.Computes registry (advance listing.codec memory state) := by
  obtain ⟨read, reading, cursor, ops⟩ :=
    InMemoryStore.readAfter_boundary sound.store.1 sound.boundary
  have advances : Legible memory.store.appendOrder → ∀ next,
      (applyOperationsIncrementally state read.ops []).map Prod.fst = .ok next ↔
        materializeAll registry memory.store.appendOrder = .ok next := by
    intro legible next
    rw [ops]
    exact (sound.cached state cached).advance_iff collisionFree sound.store legible next
  unfold advance
  rw [reading]
  dsimp only
  by_cases idle : read.ops = []
  · rw [if_pos idle]
    rw [idle] at advances
    exact ⟨advances, sound, rfl, fun other same => by rw [cached, Except.ok.inj same]⟩
  · rw [if_neg idle]
    cases applied : applyOperationsIncrementally state read.ops [] with
    | error failure =>
        rw [applied] at advances
        refine computes_error sound ?_
        intro legible next full
        cases (advances legible next).mpr full
    | ok result =>
        obtain ⟨next, delta⟩ := result
        rw [applied] at advances
        have answers : memory.Answers registry (.ok next) := advances
        dsimp only
        split
        · exact computes_saved sound answers rfl rfl rfl rfl cursor
        · exact ⟨answers, built_sound sound answers rfl rfl rfl rfl cursor, rfl,
            fun other same => congrArg some (Except.ok.inj same)⟩

/-- A checkpoint is restored exactly when full materialization succeeds, and to its answer. -/
theorem restore_answers (collisionFree : CollisionFree) (sound : memory.Sound registry)
    {checkpoint : MaterializationCheckpoint}
    (saved : memory.store.checkpoint = some checkpoint) :
    memory.Answers registry ((memory.restore listing.codec checkpoint).map Prod.fst) ∧
      ∀ state next, memory.restore listing.codec checkpoint = .ok (state, next) →
        next.Sound registry ∧ next.store = memory.store ∧
          next.materializedState = some state := by
  obtain ⟨boundary, state, records, listed, payload, amounts⟩ := sound.saved checkpoint saved
  obtain ⟨read, reading, cursor, ops⟩ :=
    InMemoryStore.readAfter_boundary sound.store.1 boundary
  have answers : memory.Answers registry
      ((memory.restore listing.codec checkpoint).map Prod.fst) := by
    intro legible other
    have decoded : listing.codec.decode checkpoint.payload memory.predicateRegistry =
        .ok state := by
      rw [payload, sound.sameRegistry]
      exact amounts.decode sound.store legible listed
    have advances := amounts.advance_iff collisionFree sound.store legible other
    rw [← ops] at advances
    rw [← advances, restore, bind_of_ok decoded, bind_of_ok reading]
    cases applyOperationsIncrementally state read.ops [] with
    | error failure => exact Iff.rfl
    | ok result => exact Iff.rfl
  refine ⟨answers, ?_⟩
  intro restored next run
  rw [run] at answers
  rw [restore, bind_ok_iff] at run
  obtain ⟨decoded, _, run⟩ := run
  rw [bind_of_ok reading, bind_ok_iff] at run
  obtain ⟨⟨reached, delta⟩, _, same⟩ := run
  rw [pure_ok_iff] at same
  injection same with sameState sameNext
  subst sameState sameNext
  exact ⟨built_sound sound answers rfl rfl rfl rfl cursor, rfl, rfl⟩

/-- The cached state, the restored one or a new one answers with full materialization, or
has at least been that at its position. -/
theorem restoreOrBuild_computes (collisionFree : CollisionFree) (sound : memory.Sound registry) :
    memory.Computes registry (restoreOrBuildMaterializedState listing.codec memory) := by
  unfold restoreOrBuildMaterializedState
  cases found : memory.store.checkpoint.filter memory.accepts with
  | none => exact rebuild_computes sound
  | some checkpoint =>
      have saved := (Option.filter_eq_some_iff.mp found).1
      obtain ⟨answers, restores⟩ := @restore_answers _ _ _ listing collisionFree sound _ saved
      cases run : memory.restore listing.codec checkpoint with
      | ok result =>
          obtain ⟨state, next⟩ := result
          rw [run] at answers
          obtain ⟨isSound, store, cached⟩ := restores state next run
          simp only [run]
          exact ⟨answers, isSound, by rw [store],
            fun other same => by rw [cached, Except.ok.inj same]⟩
      | error failure =>
          simp only [run]
          split
          · exact rebuild_computes sound
          · rw [run] at answers
            refine computes_error sound ?_
            intro legible state full
            cases (answers legible state).mpr full

/-- Only the committed operations matter to an answer. -/
theorem Computes.of_order {next : Memory} {computed : Result MemoryState × Memory}
    (computes : next.Computes registry computed)
    (order : next.store.appendOrder = memory.store.appendOrder) :
    memory.Computes registry computed where
  answers := by
    intro legible
    rw [← order] at legible ⊢
    exact computes.answers legible
  sound := computes.sound
  order := computes.order.trans order
  caches := computes.caches

/-- A canonical materialization answers with full materialization. -/
theorem canonical_computes (collisionFree : CollisionFree) (sound : memory.Sound registry) :
    memory.Computes registry (materializeCanonicalIncrementally listing.codec memory) := by
  have configured := checkConfig_sound sound
  have order : memory.checkConfig.store.appendOrder = memory.store.appendOrder := by
    unfold checkConfig
    split
    · rfl
    · rfl
  unfold materializeCanonicalIncrementally currentState
  generalize memory.checkConfig = checked at configured order
  cases held : checked.materializedState with
  | none =>
      have computes := @restoreOrBuild_computes _ _ _ listing collisionFree configured
      simp only
      cases run : restoreOrBuildMaterializedState listing.codec checked with
      | mk result next =>
          rw [run] at computes
          cases result with
          | error failure => exact computes.of_order order
          | ok state =>
              exact (advance_computes collisionFree computes.sound
                (computes.caches state rfl)).of_order (computes.order.trans order)
  | some state =>
      simp only
      rw [if_pos (configured.current (by rw [held]; simp))]
      exact (advance_computes collisionFree configured held).of_order order

/-! ## Sessions of calls -/

/-- A commit keeps the invariant. -/
theorem commit_sound (sound : memory.Sound registry) {next : InMemoryStore}
    (commits : ∃ oplog added, next = memory.store.commit oplog added)
    (isSound : LogStore.Sound (.inMemory next)) :
    Sound { memory with store := next } registry := by
  obtain ⟨oplog, added, same⟩ := commits
  have extension := InMemoryStore.commit_extends memory.store oplog added
  rw [← same] at extension
  exact {
    sameRegistry := sound.sameRegistry
    current := sound.current
    store := isSound
    boundary := extension.boundary _ sound.boundary
    cached := by
      intro state isCached
      rw [same]
      exact (sound.cached state isCached).commit
        (sound.store.1.le_length sound.boundary) oplog added
    saved := by
      intro checkpoint found
      rw [extension.checkpoint] at found
      obtain ⟨boundary, state, records, listed, payload, amounts⟩ :=
        sound.saved checkpoint found
      refine ⟨extension.boundary _ boundary, state, records, listed, payload, ?_⟩
      rw [same]
      exact amounts.commit (sound.store.1.le_length boundary) oplog added }

theorem materialize_sound (collisionFree : CollisionFree) (sound : memory.Sound registry)
    (arguments : Arguments) :
    (memory.materialize listing.codec arguments).2.Sound registry := by
  unfold Memory.materialize
  split
  · exact (canonical_computes collisionFree sound).sound
  · exact sound

/-- Every call that leaves the registry alone keeps the invariant. -/
theorem after_sound (collisionFree : CollisionFree) (sound : memory.Sound registry) {call : Call}
    (keeps : KeepsRegistry call) : (memory.after listing.codec call).Sound registry := by
  cases call with
  | append op =>
      change (memory.appendOp op).2.Sound registry
      unfold appendOp
      split
      · exact sound
      · rename_i next isNew appended
        exact commit_sound sound (append_commits appended)
          (LogStore.memory_append_takes sound.store appended).sound
  | commitBatch ops =>
      change (memory.commitBatch ops).2.Sound registry
      unfold commitBatch
      split
      · exact sound
      · rename_i next results appended
        exact commit_sound sound (appendMany_commits appended)
          (LogStore.memory_appendMany_takes sound.store appended).sound
  | mergeFrom other =>
      change (memory.mergeFrom other).2.Sound registry
      unfold mergeFrom
      split
      · exact sound
      · rename_i merged store computed
        simp only [bind_ok_iff, pure_ok_iff, Prod.mk.injEq] at computed
        obtain ⟨own, _, merged', _, ⟨store', results⟩, appended, _, sameStore⟩ := computed
        rw [← sameStore]
        exact commit_sound sound (appendMany_commits appended)
          (LogStore.memory_appendMany_takes sound.store appended).sound
  | register predicate rule => exact keeps.elim
  | materialize arguments => exact materialize_sound collisionFree sound arguments
  | materializeWithDelta sinceCursor =>
      change (memory.materializeWithDelta listing.codec sinceCursor).2.Sound registry
      unfold materializeWithDelta
      split
      · exact materialize_sound collisionFree sound .default
      · exact (canonical_computes collisionFree sound).sound

theorem run_sound (collisionFree : CollisionFree) (calls : List Call)
    (sound : memory.Sound registry) (keeps : ∀ call ∈ calls, KeepsRegistry call) :
    (memory.run listing.codec calls).Sound registry := by
  induction calls generalizing memory with
  | nil => exact sound
  | cons head tail inductionHypothesis =>
      exact inductionHypothesis (after_sound collisionFree sound (keeps head List.mem_cons_self))
        (fun call listed => keeps call (List.mem_cons_of_mem _ listed))

theorem throughSessions_sound (collisionFree : CollisionFree)
    (predicateRegistry : Option (PredicateRegistry × Nat)) (detectors : List ConflictDetector)
    (configToken : Option String) (sessions : List Session)
    (keeps : ∀ session ∈ sessions, ∀ call ∈ session.calls, KeepsRegistry call) :
    ((create predicateRegistry detectors configToken).throughSessions sessions).Sound
      ((predicateRegistry.map Prod.fst).getD .empty) := by
  refine List.foldlRecOn (motive := fun memory : Memory =>
    memory.Sound ((predicateRegistry.map Prod.fst).getD .empty)) sessions _
    (create_sound predicateRegistry detectors configToken) ?_
  intro memory sound session listed
  exact run_sound collisionFree session.calls
    (reopen_sound predicateRegistry detectors configToken sound) (keeps session listed)

/-- What a call of `materialize` returns after any sessions is what full materialization
returns, and it fails exactly when that fails. -/
theorem sessions_materialize (collisionFree : CollisionFree)
    (predicateRegistry : Option (PredicateRegistry × Nat)) (detectors : List ConflictDetector)
    (configToken : Option String) (sessions : List Session)
    (keeps : ∀ session ∈ sessions, ∀ call ∈ session.calls, KeepsRegistry call)
    (reached : memory = (create predicateRegistry detectors configToken).throughSessions sessions)
    (legible : Legible memory.store.appendOrder) (listing : Listing) (arguments : Arguments)
    (state : MemoryState) :
    (memory.materialize listing.codec arguments).1 = .ok state ↔
      memory.materializeFully arguments = .ok state := by
  have sound := throughSessions_sound collisionFree predicateRegistry detectors configToken
    sessions keeps
  rw [← reached] at sound
  have log : memory.store.loadOplog = .ok memory.store.oplog := OpLog.ofOps_iterOps _
  unfold Memory.materialize
  split
  · rename_i canonical
    have computes := @canonical_computes _ _ _ listing collisionFree sound
    rw [computes.answers legible state, InMemoryStore.materializeAll_appendOrder sound.store,
      materializeFully, bind_of_ok log]
    simp only [isCanonical, Bool.and_eq_true, Option.isNone_iff_eq_none, List.isEmpty_iff]
      at canonical
    obtain ⟨⟨⟨noRegistry, noDetectors⟩, noInstant⟩, noContext⟩ := canonical
    rw [noRegistry, noDetectors, noInstant, noContext, Option.getD_none, Option.getD_none,
      sound.sameRegistry]
  · rfl

end Memory

end Sessions

section Example

attribute [local instance] Reference.runtime

namespace Memory

/-- The tables in the order of their keys. -/
def inOrder : Listing := ⟨MemoryState.checkpointRecords, CheckpointRecords.checkpointRecords_of⟩

/-- The first claim is materialized and saved; the second is appended by another process. -/
def restartedSessions : List Session :=
  [⟨inOrder, [.commitBatch (conflictingOps.take 1), .materialize .default]⟩,
    ⟨inOrder, [.commitBatch (conflictingOps.drop 1)]⟩]

/-- The memory of the second process. -/
def restarted : Memory := (create none [] none).throughSessions restartedSessions

private theorem restarted_appendOrder : restarted.store.appendOrder = conflictingOps := by
  decide +kernel

theorem sessions_materialize_restarted :
    restarted.materializedState.isNone = true ∧ restarted.store.checkpoint.isSome = true ∧
      ∃ state, (restarted.materialize inOrder.codec .default).1 = .ok state ∧
        restarted.materializeFully .default = .ok state ∧ state.conflicts.length = 1 := by
  have computed : ((restarted.materializeFully .default).toOption.map
      fun state => state.conflicts.length) = some 1 := by decide +kernel
  refine ⟨by decide +kernel, by decide +kernel, ?_⟩
  cases run : restarted.materializeFully .default with
  | error failure =>
      rw [run] at computed
      cases computed
  | ok state =>
      rw [run] at computed
      injection computed with computed
      have keeps : ∀ session ∈ restartedSessions, ∀ call ∈ session.calls,
          KeepsRegistry call := by
        simp [restartedSessions, KeepsRegistry]
      have legible : Legible restarted.store.appendOrder := by
        rw [restarted_appendOrder]
        exact ⟨conflictingOps_comparable, conflictingOps_decoded⟩
      exact ⟨state, (sessions_materialize Reference.collisionFree none [] none restartedSessions
        keeps rfl legible inOrder .default state).mpr run, rfl, computed⟩

end Memory

end Example

end Statefuse
