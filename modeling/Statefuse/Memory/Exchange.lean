import Statefuse.Memory.Progress
import Statefuse.Memory.Replica
import Statefuse.Store.Positions

/-!
# Replicas that exchange their streams

Any number of replicas commit operations, export pages of their streams, and receive pages of
others.  A delta that has been sent may be delivered at any time, to any replica and again.  A
receive loads the progress, writes batch after batch and then saves the progress; between these
writes anything else may happen, and a receive may stop at any point.  Whatever happens, a
progress never says more than what the log of its receiver holds (`sync_loses_nothing`).
-/

namespace Statefuse

open Foundation Foundation.Spans

section Theory

variable [Runtime]

/-- `load_replica_progress`: without a stored one, the progress of a peer nothing has come from. -/
def loadReplicaProgress (stored : Option ReplicaProgress) (peerReplicaId : String) :
    Result ReplicaProgress :=
  match stored with
  | some progress => .ok progress
  | none => ReplicaProgress.create peerReplicaId 0 []

def exportReplicaDelta (replicaId : String) (read : Nat → Option Nat → Result StoreDelta)
    (afterCursor : Nat) (maxOps : Option Nat) : Result ReplicaDelta := do
  let delta ← readReplicaStoreDelta read afterCursor maxOps
  ReplicaDelta.create replicaId afterCursor delta.cursor delta.ops delta.batchSizes

/-- One entry of a manifest beside the operation that the receiver knows by its id. -/
def compareEntry (store : LogStore) (unknown : List String) (entry : String × String) :
    Result (List String) := do
  let known ← store.find entry.1
  match known with
  | none => return unknown ++ [entry.1]
  | some known =>
      if (entryOf known).2 ≠ entry.2 then .error (OpLog.collision entry.1) else return unknown

/-- The ids that `sync_from` asks for. -/
def unknownOpIds (store : LogStore) (entries : List (String × String)) : Result (List String) :=
  entries.foldlM (compareEntry store) []

/-- A call of `sync_from` or `apply_replica_delta` on its way. -/
inductive Receive (Peer : Type) where
  /-- The peer has described its page. -/
  | described (receiver peer : Peer) (manifest : ReplicaManifest)
  /-- The receiver has looked up the ids. -/
  | compared (receiver peer : Peer) (manifest : ReplicaManifest) (unknown : List String)
  /-- `apply_replica_delta` is called. -/
  | delivered (receiver : Peer) (delta : ReplicaDelta)
  /-- The progress is loaded, and some batches are still to be written. -/
  | writing (receiver : Peer) (delta : ReplicaDelta) (progress : ReplicaProgress)
      (remaining : List (List Op))

/-- The logs, and what has been committed locally on any of them. -/
structure World (Peer : Type) where
  stores : Peer → LogStore
  committed : List Op

structure ReplicaState (Peer : Type) where
  world : World Peer
  progress : Peer → String → Option ReplicaProgress
  messages : List ReplicaDelta
  receives : Nat → Option (Receive Peer)

section Protocol

variable {Peer : Type} [DecidableEq Peer]

def World.replace (world : World Peer) (peer : Peer) (store : LogStore) (ops : List Op) :
    World Peer :=
  ⟨Function.update world.stores peer store, world.committed ++ ops⟩

def ReplicaState.put (state : ReplicaState Peer) (call : Nat) (receive : Option (Receive Peer)) :
    ReplicaState Peer :=
  { state with receives := Function.update state.receives call receive }

def ReplicaState.setProgress (state : ReplicaState Peer) (receiver : Peer) (peer : String)
    (progress : Option ReplicaProgress) : ReplicaState Peer :=
  { state with
    progress := Function.update state.progress receiver
      (Function.update (state.progress receiver) peer progress) }

/-- One step of any of the replicas.  A call stops at any point when it raises. -/
inductive SyncStep (name : Peer → String) : ReplicaState Peer → ReplicaState Peer → Prop where
  | append {state : ReplicaState Peer} {peer : Peer} {batchId : String} {op : Op}
      {next : LogStore} {isNew : Bool}
      (run : (state.world.stores peer).append batchId op = .ok (next, isNew)) :
      SyncStep name state { state with world := state.world.replace peer next [op] }
  | commitBatch {state : ReplicaState Peer} {peer : Peer} {batchId : String} {ops : List Op}
      {next : LogStore} {flags : List Bool}
      (run : (state.world.stores peer).appendMany batchId ops = .ok (next, flags)) :
      SyncStep name state { state with world := state.world.replace peer next ops }
  | exportDelta {state : ReplicaState Peer} {peer : Peer} {afterCursor : Nat} {maxOps : Option Nat}
      {delta : ReplicaDelta}
      (run : exportReplicaDelta (name peer) (state.world.stores peer).readAfter afterCursor
        maxOps = .ok delta) :
      SyncStep name state { state with messages := delta :: state.messages }
  | deliver {state : ReplicaState Peer} {receiver : Peer} {delta : ReplicaDelta} (call : Nat)
      (sent : delta ∈ state.messages) :
      SyncStep name state (state.put call (some (.delivered receiver delta)))
  | describe {state : ReplicaState Peer} {receiver peer : Peer} {progress : ReplicaProgress}
      {maxOps : Option Nat} {manifest : ReplicaManifest} (call : Nat)
      (apart : name peer ≠ name receiver)
      (loaded : loadReplicaProgress (state.progress receiver (name peer)) (name peer) =
        .ok progress)
      (run : exportReplicaManifest (name peer) (state.world.stores peer).readAfter
        progress.cursor.toNat maxOps = .ok manifest) :
      SyncStep name state (state.put call (some (.described receiver peer manifest)))
  | compare {state : ReplicaState Peer} {receiver peer : Peer} {manifest : ReplicaManifest}
      {unknown : List String} {call : Nat}
      (here : state.receives call = some (.described receiver peer manifest))
      (run : unknownOpIds (state.world.stores receiver) manifest.entries = .ok unknown) :
      SyncStep name state (state.put call (some (.compared receiver peer manifest unknown)))
  | request {state : ReplicaState Peer} {receiver peer : Peer} {manifest : ReplicaManifest}
      {unknown : List String} {delta : ReplicaDelta} {call : Nat}
      (here : state.receives call = some (.compared receiver peer manifest unknown))
      (run : exportManifestDelta (name peer) (state.world.stores peer).readAfter manifest
        unknown = .ok delta) :
      SyncStep name state (state.put call (some (.delivered receiver delta)))
  | load {state : ReplicaState Peer} {receiver : Peer} {delta : ReplicaDelta}
      {progress : ReplicaProgress} {call : Nat}
      (here : state.receives call = some (.delivered receiver delta))
      (apart : delta.senderReplicaId ≠ name receiver)
      (loaded : loadReplicaProgress (state.progress receiver delta.senderReplicaId)
        delta.senderReplicaId = .ok progress) :
      SyncStep name state
        (state.put call (some (.writing receiver delta progress delta.batches)))
  | write {state : ReplicaState Peer} {receiver : Peer} {delta : ReplicaDelta}
      {progress : ReplicaProgress} {batch : List Op} {remaining : List (List Op)} {call : Nat}
      {batchId : String} {next : LogStore} {flags : List Bool}
      (here : state.receives call =
        some (.writing receiver delta progress (batch :: remaining)))
      (run : (state.world.stores receiver).appendMany batchId batch = .ok (next, flags)) :
      SyncStep name state
        { state.put call (some (.writing receiver delta progress remaining)) with
          world := state.world.replace receiver next [] }
  | save {state : ReplicaState Peer} {receiver : Peer} {delta : ReplicaDelta}
      {progress updated : ReplicaProgress} {call : Nat}
      (here : state.receives call = some (.writing receiver delta progress []))
      (advanced : advanceReplicaProgress progress delta.cursorBefore delta.cursorAfter =
        .ok updated) :
      SyncStep name state ((state.put call none).setProgress receiver updated.peerReplicaId
        (some updated))
  | abort {state : ReplicaState Peer} (call : Nat) : SyncStep name state (state.put call none)
  | reset {state : ReplicaState Peer} (receiver : Peer) (peer : String) :
      SyncStep name state (state.setProgress receiver peer none)

/-- Replicas with empty logs that know nothing of each other. -/
structure ReplicaState.Starts (state : ReplicaState Peer) : Prop where
  stores : ∀ peer, state.world.stores peer = .inMemory .empty ∨
    state.world.stores peer = .sqlite .empty
  committed : state.world.committed = []
  progress : ∀ receiver peer, state.progress receiver peer = none
  messages : state.messages = []
  receives : ∀ call, state.receives call = none

inductive SyncReachable (name : Peer → String) : ReplicaState Peer → Prop where
  | start {state : ReplicaState Peer} (starts : state.Starts) : SyncReachable name state
  | step {state next : ReplicaState Peer} (earlier : SyncReachable name state)
      (step : SyncStep name state next) : SyncReachable name next

/-! ## What holds of every state -/

/-- The operation is equal to one that has been committed locally. -/
def World.Origin (world : World Peer) (op : Op) : Prop :=
  ∃ source ∈ world.committed, pyEq op source = true

/-- The range ends within the stream of the peer, and its operations have the property. -/
def World.Spans (world : World Peer) (peer : Peer) (before after : Nat) (known : Op → Prop) :
    Prop :=
  after ≤ (world.stores peer).stop ∧ ∀ position op, before ≤ position → position < after →
    (world.stores peer).At position op → known op

/-- What the progress says has been received is in the log of the receiver. -/
def World.Records (world : World Peer) (receiver peer : Peer) (progress : ReplicaProgress) :
    Prop :=
  ∀ position : Nat, progress.Received position → position < (world.stores peer).stop ∧
    ∀ op, (world.stores peer).At position op → (world.stores receiver).Holds op

structure World.Sound (world : World Peer) : Prop where
  stores : ∀ peer, (world.stores peer).Sound
  origin : ∀ peer op, (world.stores peer).Logged op → world.Origin op

structure World.Grows (world next : World Peer) : Prop where
  stores : ∀ peer, (world.stores peer).Grows (next.stores peer)
  origin : ∀ op, world.Origin op → next.Origin op

def World.MessageHolds (world : World Peer) (name : Peer → String) (delta : ReplicaDelta) : Prop :=
  ∃ peer, delta.senderReplicaId = name peer ∧
    world.Spans peer delta.cursorBefore delta.cursorAfter (fun op => op ∈ delta.ops) ∧
    ∀ op ∈ delta.ops, world.Origin op

/-- The page of the peer is described. -/
def World.Describes (world : World Peer) (name : Peer → String) (peer : Peer)
    (manifest : ReplicaManifest) : Prop :=
  manifest.senderReplicaId = name peer ∧
    world.Spans peer manifest.cursorBefore manifest.cursorAfter
      (fun op => entryOf op ∈ manifest.entries)

/-- The stored progress of a peer. -/
structure World.ProgressHolds (world : World Peer) (name : Peer → String) (receiver : Peer)
    (peerReplicaId : String) (progress : ReplicaProgress) : Prop where
  normal : progress.Normal
  ofPeer : progress.peerReplicaId = peerReplicaId
  records : ∀ peer, name peer = peerReplicaId → world.Records receiver peer progress

def World.ReceiveHolds (world : World Peer) (name : Peer → String) : Receive Peer → Prop
  | .described _ peer manifest => world.Describes name peer manifest
  | .compared receiver peer manifest unknown => world.Describes name peer manifest ∧
      ∀ entry ∈ manifest.entries, entry.1 ∈ unknown ∨
        ∃ held, (world.stores receiver).Logged held ∧ (entryOf held).2 = entry.2
  | .delivered receiver delta => ∃ peer, delta.senderReplicaId = name peer ∧
      world.Spans peer delta.cursorBefore delta.cursorAfter
        (fun op => op ∈ delta.ops ∨ (world.stores receiver).Holds op) ∧
      ∀ op ∈ delta.ops, world.Origin op
  | .writing receiver delta progress remaining =>
      (∃ peer, delta.senderReplicaId = name peer ∧
        world.Spans peer delta.cursorBefore delta.cursorAfter
          (fun op => op ∈ remaining.flatten ∨ (world.stores receiver).Holds op)) ∧
      (∀ op ∈ remaining.flatten, world.Origin op) ∧
      world.ProgressHolds name receiver delta.senderReplicaId progress

structure ReplicaState.Invariant (name : Peer → String) (state : ReplicaState Peer) : Prop where
  world : state.world.Sound
  messages : ∀ delta ∈ state.messages, state.world.MessageHolds name delta
  receives : ∀ call receive, state.receives call = some receive →
    state.world.ReceiveHolds name receive
  progress : ∀ receiver peer progress, state.progress receiver peer = some progress →
    state.world.ProgressHolds name receiver peer progress

section Growth

variable {world next : World Peer} {name : Peer → String}

omit [DecidableEq Peer] in
theorem World.Spans.grow (grows : world.Grows next) {peer : Peer} {before after : Nat}
    {known still : Op → Prop} (spans : world.Spans peer before after known)
    (stays : ∀ op, known op → still op) : next.Spans peer before after still := by
  refine ⟨le_trans spans.1 (grows.stores peer).longer, ?_⟩
  intro position op above below here
  exact stays op (spans.2 position op above below
    ((grows.stores peer).settled position op (lt_of_lt_of_le below spans.1) here))

omit [DecidableEq Peer] in
theorem World.Records.grow (grows : world.Grows next) {receiver peer : Peer}
    {progress : ReplicaProgress} (records : world.Records receiver peer progress) :
    next.Records receiver peer progress := by
  intro position received
  rcases records position received with ⟨below, held⟩
  refine ⟨lt_of_lt_of_le below (grows.stores peer).longer, ?_⟩
  intro op here
  exact (grows.stores receiver).holds
    (held op ((grows.stores peer).settled position op below here))

omit [DecidableEq Peer] in
theorem World.ProgressHolds.grow (grows : world.Grows next) {receiver : Peer} {peer : String}
    {progress : ReplicaProgress} (holds : world.ProgressHolds name receiver peer progress) :
    next.ProgressHolds name receiver peer progress :=
  ⟨holds.normal, holds.ofPeer, fun other isPeer => (holds.records other isPeer).grow grows⟩

omit [DecidableEq Peer] in
theorem World.MessageHolds.grow (grows : world.Grows next) {delta : ReplicaDelta}
    (holds : world.MessageHolds name delta) : next.MessageHolds name delta := by
  rcases holds with ⟨peer, sender, spans, origin⟩
  exact ⟨peer, sender, spans.grow grows (fun _ known => known),
    fun op listed => grows.origin op (origin op listed)⟩

omit [DecidableEq Peer] in
theorem World.ReceiveHolds.grow (grows : world.Grows next) {receive : Receive Peer}
    (holds : world.ReceiveHolds name receive) : next.ReceiveHolds name receive := by
  cases receive with
  | described receiver peer manifest =>
      exact ⟨holds.1, holds.2.grow grows (fun _ known => known)⟩
  | compared receiver peer manifest unknown =>
      refine ⟨⟨holds.1.1, holds.1.2.grow grows (fun _ known => known)⟩, ?_⟩
      intro entry listed
      apply (holds.2 entry listed).imp_right
      rintro ⟨held, logged, digest⟩
      exact ⟨held, (grows.stores receiver).logged held logged, digest⟩
  | delivered receiver delta =>
      rcases holds with ⟨peer, sender, spans, origin⟩
      refine ⟨peer, sender, spans.grow grows ?_,
        fun op listed => grows.origin op (origin op listed)⟩
      intro op known
      exact known.imp_right (grows.stores receiver).holds
  | writing receiver delta progress remaining =>
      rcases holds with ⟨⟨peer, sender, spans⟩, origin, progressHolds⟩
      refine ⟨⟨peer, sender, spans.grow grows ?_⟩,
        fun op listed => grows.origin op (origin op listed), progressHolds.grow grows⟩
      intro op known
      exact known.imp_right (grows.stores receiver).holds

end Growth

section Steps

variable {state : ReplicaState Peer} {name : Peer → String}

/-- Appending operations that have been committed, here or now, keeps the world sound. -/
theorem World.Sound.replace {world : World Peer} (sound : world.Sound) {peer : Peer}
    {store : LogStore} {ops added : List Op} (takes : (world.stores peer).Takes store ops)
    (origin : ∀ op ∈ ops, (world.replace peer store added).Origin op) :
    (world.replace peer store added).Sound ∧ world.Grows (world.replace peer store added) := by
  have older : ∀ op, world.Origin op → (world.replace peer store added).Origin op := by
    rintro op ⟨source, isSource, same⟩
    exact ⟨source, List.mem_append_left _ isSource, same⟩
  have isStore : (world.replace peer store added).stores peer = store := by
    simp [World.replace]
  have others : ∀ other, other ≠ peer →
      (world.replace peer store added).stores other = world.stores other := by
    intro other apart
    simp [World.replace, apart]
  refine ⟨⟨?_, ?_⟩, ?_, older⟩
  · intro other
    by_cases same : other = peer
    · rw [same, isStore]
      exact takes.sound
    · rw [others other same]
      exact sound.stores other
  · intro other op logged
    by_cases same : other = peer
    · rw [same, isStore] at logged
      rcases takes.origin op logged with already | ⟨source, isSource, equal⟩
      · exact older op (sound.origin peer op already)
      · rcases origin source isSource with ⟨first, isFirst, sameFirst⟩
        exact ⟨first, isFirst, pyEq_trans equal sameFirst⟩
    · rw [others other same] at logged
      exact older op (sound.origin other op logged)
  · intro other
    by_cases same : other = peer
    · rw [same, isStore]
      exact takes.grows
    · rw [others other same]
      exact .refl _

omit [DecidableEq Peer] in
/-- A grown world keeps what is said about messages, calls and progress. -/
theorem ReplicaState.Invariant.grow (invariant : state.Invariant name) {next : World Peer}
    (sound : next.Sound) (grows : state.world.Grows next) :
    ({ state with world := next } : ReplicaState Peer).Invariant name :=
  ⟨sound, fun delta listed => (invariant.messages delta listed).grow grows,
    fun call receive here => (invariant.receives call receive here).grow grows,
    fun receiver peer progress here => (invariant.progress receiver peer progress here).grow grows⟩

omit [DecidableEq Peer] in
theorem ReplicaState.Invariant.put (invariant : state.Invariant name) (call : Nat)
    {receive : Option (Receive Peer)}
    (holds : ∀ other, receive = some other → state.world.ReceiveHolds name other) :
    (state.put call receive).Invariant name := by
  refine ⟨invariant.world, invariant.messages, ?_, invariant.progress⟩
  intro other held here
  change Function.update state.receives call receive other = some held at here
  by_cases same : other = call
  · rw [same, Function.update_self] at here
    exact holds held here
  · rw [Function.update_of_ne same] at here
    exact invariant.receives other held here

omit [DecidableEq Peer] in
/-- A call goes on with something that holds. -/
theorem ReplicaState.Invariant.receive (invariant : state.Invariant name) (call : Nat)
    {receive : Receive Peer} (holds : state.world.ReceiveHolds name receive) :
    (state.put call (some receive)).Invariant name := by
  apply invariant.put call
  intro other isOther
  injection isOther with isOther
  rw [← isOther]
  exact holds

omit [DecidableEq Peer] in
theorem ReplicaState.Invariant.finish (invariant : state.Invariant name) (call : Nat) :
    (state.put call none).Invariant name :=
  invariant.put call fun _ impossible => by cases impossible

theorem ReplicaState.Invariant.setProgress (invariant : state.Invariant name) (receiver : Peer)
    (peer : String) {progress : Option ReplicaProgress}
    (holds : ∀ other, progress = some other →
      state.world.ProgressHolds name receiver peer other) :
    (state.setProgress receiver peer progress).Invariant name := by
  refine ⟨invariant.world, invariant.messages, invariant.receives, ?_⟩
  intro otherReceiver otherPeer stored here
  change Function.update state.progress receiver
    (Function.update (state.progress receiver) peer progress) otherReceiver otherPeer =
      some stored at here
  by_cases same : otherReceiver = receiver
  · subst same
    rw [Function.update_self] at here
    by_cases samePeer : otherPeer = peer
    · subst samePeer
      rw [Function.update_self] at here
      exact holds stored here
    · rw [Function.update_of_ne samePeer] at here
      exact invariant.progress otherReceiver otherPeer stored here
  · rw [Function.update_of_ne same] at here
    exact invariant.progress otherReceiver otherPeer stored here

end Steps

/-! ## What the exports say -/

section Exports

variable {replicaId : String} {store : LogStore}

omit [DecidableEq Peer] in
theorem ReplicaDelta.create_fields {before after : Nat} {ops : List Op} {sizes : List Nat}
    {delta : ReplicaDelta} (created : ReplicaDelta.create replicaId before after ops sizes =
      .ok delta) :
    delta.senderReplicaId = replicaId ∧ delta.cursorBefore = before ∧
      delta.cursorAfter = after ∧ delta.ops = ops := by
  unfold ReplicaDelta.create at created
  split at created
  · split at created
    · split at created
      · split at created
        · cases created
        · injection created with created
          rw [← created]
          exact ⟨rfl, rfl, rfl, rfl⟩
      · cases created
    · cases created
  · cases created

omit [Runtime] in
theorem ReplicaManifest.create_fields {before after : Nat} {entries : List (String × String)}
    {sizes : List Nat} {manifest : ReplicaManifest}
    (created : ReplicaManifest.create replicaId before after entries sizes = .ok manifest) :
    manifest.senderReplicaId = replicaId ∧ manifest.cursorBefore = before ∧
      manifest.cursorAfter = after ∧ manifest.entries = entries := by
  unfold ReplicaManifest.create at created
  split at created
  · split at created
    · split at created
      · split at created
        · injection created with created
          rw [← created]
          exact ⟨rfl, rfl, rfl, rfl⟩
        · cases created
      · cases created
    · cases created
  · cases created

theorem readReplica_shows (sound : store.Sound) {cursor : Nat} {maxOps : Option Nat}
    {page : StoreDelta}
    (run : readReplicaStoreDelta store.readAfter cursor maxOps = .ok page) :
    store.Shows cursor page := by
  cases maxOps with
  | none => exact LogStore.readAfter_shows sound run
  | some limit =>
      simp only [readReplicaStoreDelta] at run
      split at run
      · cases run
      · split at run
        · cases run
        · exact LogStore.readAfter_shows sound run

/-- The batches of a delta hold its operations. -/
theorem slices_cover (sizes : List Nat) (ops : List Op) (covered : sizes.sum = ops.length) :
    (slices sizes ops).flatten = ops := by
  induction sizes generalizing ops with
  | nil =>
      have none : ops = [] := List.length_eq_zero_iff.mp covered.symm
      rw [none]
      rfl
  | cons size sizes inductionHypothesis =>
      have rest : sizes.sum = (ops.drop size).length := by
        rw [List.length_drop, ← covered, List.sum_cons, Nat.add_sub_cancel_left]
      rw [slices, List.flatten_cons, inductionHypothesis _ rest, List.take_append_drop]

theorem ReplicaDelta.batches_flatten (delta : ReplicaDelta) : delta.batches.flatten = delta.ops :=
  slices_cover _ _ delta.covered.2

/-- Every entry is unknown, or known with the same digest. -/
theorem unknownOpIds_spec {entries : List (String × String)} {unknown : List String}
    (run : unknownOpIds store entries = .ok unknown) :
    ∀ entry ∈ entries, entry.1 ∈ unknown ∨
      ∃ held, store.Logged held ∧ (entryOf held).2 = entry.2 := by
  apply foldlM_invariant (fun done (unknown : List String) => ∀ entry ∈ done, entry.1 ∈ unknown ∨
    ∃ held, store.Logged held ∧ (entryOf held).2 = entry.2) _ _ _ run
  · intro entry listed
    cases listed
  · intro done entry unknown next before _ stepped
    rcases bind_ok_iff.mp stepped with ⟨known, found, stepped⟩
    cases known with
    | none =>
        injection stepped with stepped
        rw [← stepped]
        intro other listed
        rcases List.mem_append.mp listed with earlier | isEntry
        · exact (before other earlier).imp_left (List.mem_append_left _)
        · rw [List.mem_singleton.mp isEntry]
          exact Or.inl (List.mem_append_right _ (List.mem_singleton_self _))
    | some known =>
        simp only at stepped
        split at stepped
        · cases stepped
        · rename_i same
          injection stepped with stepped
          rw [← stepped]
          intro other listed
          rcases List.mem_append.mp listed with earlier | isEntry
          · exact before other earlier
          · rw [List.mem_singleton.mp isEntry]
            exact Or.inr ⟨known, LogStore.find_logged found, not_ne_iff.mp same⟩

/-- Operations with one digest are equal. -/
theorem pyEq_of_digest (collisionFree : CollisionFree) {first second : Op}
    (same : (entryOf first).2 = (entryOf second).2) : pyEq first second = true := by
  have text : first.toJson = second.toJson := String.toByteArray_inj.mp (collisionFree same)
  have read := first.fromJson_toJson
  rw [text, second.fromJson_toJson] at read
  injection read with read
  have decoded := second.decoded_equal
  rw [read] at decoded
  exact pyEq_trans (pyEq_symm first.decoded_equal) decoded

variable {world : World Peer} {name : Peer → String} {peer : Peer}

omit [DecidableEq Peer] in
theorem exportReplicaDelta_holds (sound : world.Sound) {afterCursor : Nat}
    {maxOps : Option Nat} {delta : ReplicaDelta}
    (run : exportReplicaDelta (name peer) (world.stores peer).readAfter afterCursor maxOps =
      .ok delta) : world.MessageHolds name delta := by
  rcases bind_ok_iff.mp run with ⟨page, isPage, created⟩
  rcases ReplicaDelta.create_fields created with ⟨sender, before, after, ops⟩
  have shows := readReplica_shows (sound.stores peer) isPage
  refine ⟨peer, sender, ⟨by rw [after]; exact shows.within, ?_⟩, ?_⟩
  · intro position op above below here
    rw [before] at above
    rw [after] at below
    rw [ops]
    exact shows.items position op above below here
  · intro op listed
    rw [ops] at listed
    exact sound.origin peer op (shows.logged op listed)

omit [DecidableEq Peer] in
theorem exportReplicaManifest_describes (sound : world.Sound) {afterCursor : Nat}
    {maxOps : Option Nat} {manifest : ReplicaManifest}
    (run : exportReplicaManifest (name peer) (world.stores peer).readAfter afterCursor maxOps =
      .ok manifest) : world.Describes name peer manifest := by
  rcases bind_ok_iff.mp run with ⟨page, isPage, created⟩
  rcases ReplicaManifest.create_fields created with ⟨sender, before, after, entries⟩
  have shows := readReplica_shows (sound.stores peer) isPage
  refine ⟨sender, by rw [after]; exact shows.within, ?_⟩
  intro position op above below here
  rw [before] at above
  rw [after] at below
  rw [entries]
  exact List.mem_map_of_mem (shows.items position op above below here)

omit [DecidableEq Peer] in
/-- What the receiver asks for, with what it knows, is the page. -/
theorem exportManifestDelta_holds (collisionFree : CollisionFree) (sound : world.Sound)
    {receiver : Peer} {manifest : ReplicaManifest} {unknown : List String} {delta : ReplicaDelta}
    (holds : world.ReceiveHolds name (.compared receiver peer manifest unknown))
    (run : exportManifestDelta (name peer) (world.stores peer).readAfter manifest unknown =
      .ok delta) : world.ReceiveHolds name (.delivered receiver delta) := by
  rcases holds with ⟨⟨sender, spans⟩, known⟩
  unfold exportManifestDelta at run
  split at run
  · cases run
  · split at run
    · rename_i none
      rcases ReplicaDelta.create_fields run with ⟨isSender, before, after, ops⟩
      refine ⟨peer, isSender, ?_, ?_⟩
      · rw [before, after]
        refine ⟨spans.1, ?_⟩
        intro position op above below here
        have listed := spans.2 position op above below here
        rw [none] at listed
        cases listed
      · intro op listed
        rw [ops] at listed
        cases listed
    · rcases bind_ok_iff.mp run with ⟨page, isPage, run⟩
      have shows := readReplica_shows (sound.stores peer) isPage
      split at run
      · cases run
      · rename_i unchanged
        rcases not_or.mp unchanged with ⟨sameCursor, _⟩
        have sameCursor := not_ne_iff.mp sameCursor
        rcases ReplicaDelta.create_fields run with ⟨isSender, before, after, ops⟩
        have batches : page.batches.flatten = page.ops := slices_cover _ _ page.covered.2
        rw [requested_flatten, batches] at ops
        refine ⟨peer, isSender, ?_, ?_⟩
        · rw [before, after]
          refine ⟨spans.1, ?_⟩
          intro position op above below here
          rcases known _ (spans.2 position op above below here) with asked | held
          · refine Or.inl ?_
            rw [ops, List.mem_filter]
            rw [← sameCursor] at below
            refine ⟨shows.items position op above below here, ?_⟩
            rw [decide_eq_true_iff]
            exact asked
          · rcases held with ⟨held, logged, digest⟩
            exact Or.inr ⟨held, logged, pyEq_of_digest collisionFree digest⟩
        · intro op listed
          rw [ops] at listed
          exact sound.origin peer op (shows.logged op (List.mem_filter.mp listed).1)

omit [DecidableEq Peer] in
theorem loadReplicaProgress_holds {stored : Option ReplicaProgress} {receiver : Peer}
    {peerReplicaId : String} {progress : ReplicaProgress}
    (holds : ∀ other, stored = some other →
      world.ProgressHolds name receiver peerReplicaId other)
    (loaded : loadReplicaProgress stored peerReplicaId = .ok progress) :
    world.ProgressHolds name receiver peerReplicaId progress := by
  cases stored with
  | some stored =>
      injection loaded with loaded
      exact holds progress (by rw [loaded])
  | none =>
      by_cases present : peerReplicaId ≠ ""
      · have nothing : Frontier (0 : Int) [] := ⟨Canonical.nil, by simp⟩
        rcases create_frontier present (le_refl 0) nothing with
          ⟨fresh, created, isPeer, cursor, ranges⟩
        have same : progress = fresh := Except.ok.inj (loaded.symm.trans created)
        rw [same]
        refine ⟨?_, isPeer, ?_⟩
        · rw [ReplicaProgress.Normal, cursor, ranges]
          exact nothing
        · intro peer _ position received
          rw [ReplicaProgress.Received, cursor, ranges] at received
          rcases received with below | covered
          · omega
          · exact absurd covered (not_covers_nil _)
      · rw [loadReplicaProgress, ReplicaProgress.create, dif_neg present] at loaded
        cases loaded

end Exports

/-! ## Every step keeps it -/

section Runs

variable {state next : ReplicaState Peer} {name : Peer → String}

theorem World.Sound.commits {world : World Peer} (sound : world.Sound) {peer : Peer}
    {store : LogStore} {ops : List Op} (takes : (world.stores peer).Takes store ops) :
    (world.replace peer store ops).Sound ∧ world.Grows (world.replace peer store ops) :=
  sound.replace takes fun op listed =>
    ⟨op, List.mem_append_right _ listed, pyEq_refl op⟩

/-- Writing a batch moves its operations from those that remain to the log. -/
theorem ReplicaState.Invariant.write (invariant : state.Invariant name) {receiver : Peer}
    {delta : ReplicaDelta} {progress : ReplicaProgress} {batch : List Op}
    {remaining : List (List Op)} {call : Nat} {store : LogStore}
    (here : state.receives call = some (.writing receiver delta progress (batch :: remaining)))
    (takes : (state.world.stores receiver).Takes store batch) :
    ({ state.put call (some (.writing receiver delta progress remaining)) with
      world := state.world.replace receiver store [] } : ReplicaState Peer).Invariant name := by
  rcases invariant.receives call _ here with ⟨⟨peer, sender, spans⟩, origin, progressHolds⟩
  have batchOrigin : ∀ op ∈ batch, (state.world.replace receiver store []).Origin op := by
    intro op listed
    rcases origin op (by simp [listed]) with ⟨source, isSource, same⟩
    exact ⟨source, List.mem_append_left _ isSource, same⟩
  rcases invariant.world.replace takes batchOrigin with ⟨sound, grows⟩
  have isStore : (state.world.replace receiver store []).stores receiver = store := by
    simp [World.replace]
  apply (invariant.grow sound grows).receive call
  refine ⟨⟨peer, sender, spans.grow grows ?_⟩, ?_, progressHolds.grow grows⟩
  · intro op known
    rw [isStore]
    rw [List.flatten_cons, List.mem_append] at known
    rcases known with (written | left) | held
    · exact Or.inr (takes.holds op written)
    · exact Or.inl left
    · exact Or.inr (takes.grows.holds held)
  · intro op listed
    exact grows.origin op (origin op (by
      rw [List.flatten_cons]
      exact List.mem_append_right _ listed))

omit [DecidableEq Peer] in
/-- When every batch is written, the range of the delta can be added to the progress. -/
theorem World.ProgressHolds.advance {world : World Peer} (distinct : Function.Injective name)
    {receiver peer : Peer} {delta : ReplicaDelta} {progress updated : ReplicaProgress}
    (holds : world.ProgressHolds name receiver delta.senderReplicaId progress)
    (sender : delta.senderReplicaId = name peer)
    (spans : world.Spans peer delta.cursorBefore delta.cursorAfter
      (fun op => op ∈ ([] : List (List Op)).flatten ∨ (world.stores receiver).Holds op))
    (advanced : advanceReplicaProgress progress delta.cursorBefore delta.cursorAfter =
      .ok updated) :
    world.ProgressHolds name receiver updated.peerReplicaId updated := by
  rcases advance_spec holds.normal (valid_of_advance advanced) with
    ⟨result, isResult, normal, isPeer, received⟩
  have same : updated = result := Except.ok.inj (advanced.symm.trans isResult)
  rw [← same] at normal isPeer received
  refine ⟨normal, rfl, ?_⟩
  intro other isOther position isReceived
  have ofPeer : updated.peerReplicaId = name peer := by
    rw [isPeer, holds.ofPeer, sender]
  have samePeer : other = peer := distinct (isOther.trans ofPeer)
  subst samePeer
  rcases (received position).mp isReceived with before | ⟨above, below⟩
  · exact holds.records other sender.symm position before
  · have above : delta.cursorBefore ≤ position := Int.ofNat_le.mp above
    have below : position < delta.cursorAfter := Int.ofNat_lt.mp below
    refine ⟨lt_of_lt_of_le below spans.1, ?_⟩
    intro op here
    rcases spans.2 position op above below here with written | held
    · cases written
    · exact held

/-- Every step keeps the invariant. -/
theorem SyncStep.invariant (collisionFree : CollisionFree) (distinct : Function.Injective name)
    (invariant : state.Invariant name) (step : SyncStep name state next) :
    next.Invariant name := by
  cases step with
  | append run =>
      rcases invariant.world.commits
        (LogStore.append_takes (invariant.world.stores _) run) with ⟨sound, grows⟩
      exact invariant.grow sound grows
  | commitBatch run =>
      rcases invariant.world.commits
        (LogStore.appendMany_takes (invariant.world.stores _) run) with ⟨sound, grows⟩
      exact invariant.grow sound grows
  | exportDelta run =>
      refine ⟨invariant.world, ?_, invariant.receives, invariant.progress⟩
      intro delta listed
      rcases List.mem_cons.mp listed with isNew | older
      · rw [isNew]
        exact exportReplicaDelta_holds invariant.world run
      · exact invariant.messages delta older
  | deliver call sent =>
      apply invariant.receive call
      rcases invariant.messages _ sent with ⟨peer, sender, spans, origin⟩
      exact ⟨peer, sender, ⟨spans.1, fun position op above below here =>
        Or.inl (spans.2 position op above below here)⟩, origin⟩
  | describe call apart loaded run =>
      exact invariant.receive call (exportReplicaManifest_describes invariant.world run)
  | compare here run =>
      exact invariant.receive _ ⟨invariant.receives _ _ here, unknownOpIds_spec run⟩
  | request here run =>
      exact invariant.receive _ (exportManifestDelta_holds collisionFree invariant.world
        (invariant.receives _ _ here) run)
  | load here apart loaded =>
      apply invariant.receive
      rcases invariant.receives _ _ here with ⟨peer, sender, spans, origin⟩
      refine ⟨⟨peer, sender, ?_⟩, ?_, ?_⟩
      · rw [ReplicaDelta.batches_flatten]
        exact spans
      · rw [ReplicaDelta.batches_flatten]
        exact origin
      · exact loadReplicaProgress_holds (invariant.progress _ _) loaded
  | write here run =>
      exact invariant.write here (LogStore.appendMany_takes (invariant.world.stores _) run)
  | @save receiver delta progress updated call here advanced =>
      apply (invariant.finish call).setProgress
      intro other isOther
      injection isOther with isOther
      rw [← isOther]
      rcases invariant.receives _ _ here with ⟨⟨peer, sender, spans⟩, _, progressHolds⟩
      exact progressHolds.advance distinct sender spans advanced
  | abort call => exact invariant.finish call
  | reset receiver peer =>
      exact invariant.setProgress receiver peer fun _ impossible => by cases impossible

omit [DecidableEq Peer] in
theorem ReplicaState.Starts.invariant (starts : state.Starts) : state.Invariant name := by
  refine ⟨⟨?_, ?_⟩, ?_, ?_, ?_⟩
  · intro peer
    rcases starts.stores peer with isEmpty | isEmpty
    · rw [isEmpty]
      refine ⟨InMemoryStore.empty_wellFormed, ?_⟩
      intro op
      change op ∈ OpLog.empty.iterOps ↔ op ∈ []
      rw [OpLog.mem_iterOps]
      simp [OpLog.empty]
    · rw [isEmpty]
      refine ⟨List.Pairwise.nil, ?_, ?_⟩
      · intro row listed
        cases listed
      · intro row listed
        cases listed
  · intro peer op logged
    rcases starts.stores peer with isEmpty | isEmpty
    · rw [isEmpty] at logged
      have listed : op ∈ OpLog.empty.iterOps := logged
      rw [OpLog.mem_iterOps] at listed
      simp [OpLog.empty] at listed
    · rw [isEmpty] at logged
      rcases logged with ⟨row, listed, _⟩
      cases listed
  · intro delta listed
    rw [starts.messages] at listed
    cases listed
  · intro call receive here
    rw [starts.receives] at here
    cases here
  · intro receiver peer progress here
    rw [starts.progress] at here
    cases here

theorem SyncReachable.invariant (collisionFree : CollisionFree)
    (distinct : Function.Injective name) (reachable : SyncReachable name state) :
    state.Invariant name := by
  induction reachable with
  | start starts => exact starts.invariant
  | step _ step inductionHypothesis =>
      exact step.invariant collisionFree distinct inductionHypothesis

/-- In every reachable state the log of a receiver holds what its progress says it has received,
whatever a log holds has been committed locally, and a receiver whose cursor is at the end of a
stream holds all of it. -/
theorem sync_loses_nothing (collisionFree : CollisionFree) (distinct : Function.Injective name)
    (reachable : SyncReachable name state) :
    (∀ receiver peer progress, state.progress receiver (name peer) = some progress →
      ∀ (position : Nat) op, progress.Received position →
        (state.world.stores peer).At position op → (state.world.stores receiver).Holds op) ∧
      (∀ peer op, (state.world.stores peer).Logged op →
        ∃ source ∈ state.world.committed, pyEq op source = true) ∧
      ∀ receiver peer progress, state.progress receiver (name peer) = some progress →
        progress.cursor = (state.world.stores peer).stop →
          ∀ op, (state.world.stores peer).Logged op → (state.world.stores receiver).Holds op := by
  have invariant := reachable.invariant collisionFree distinct
  have received : ∀ receiver peer progress,
      state.progress receiver (name peer) = some progress →
      ∀ (position : Nat) op, progress.Received position →
        (state.world.stores peer).At position op → (state.world.stores receiver).Holds op := by
    intro receiver peer progress stored position op isReceived here
    have holds := invariant.progress receiver (name peer) progress stored
    exact (holds.records peer rfl position isReceived).2 op here
  refine ⟨received, invariant.world.origin, ?_⟩
  intro receiver peer progress stored ends op logged
  rcases LogStore.logged_at (invariant.world.stores peer) logged with ⟨position, below, here⟩
  apply received receiver peer progress stored position op _ here
  refine Or.inl ?_
  rw [ends]
  exact_mod_cast below

end Runs

end Protocol

end Theory

section Example

attribute [local instance] Reference.runtime

namespace Reference

/-- Two replicas. -/
def replicaName : Bool → String
  | true => "a"
  | false => "b"

theorem replicaName_injective : Function.Injective replicaName := by
  intro first second same
  cases first <;> cases second <;> simp_all [replicaName]

def exchangedOp : Op :=
  .decisionAdded ⟨"o", "r", timestamp⟩ ⟨"d", "session", ∅, timestamp⟩

/-- A log of the one operation. -/
def oneOp (oplog : OpLog) : LogStore := .inMemory ⟨oplog, [exchangedOp], [1], none⟩

def exchangedDelta : ReplicaDelta :=
  ⟨"a", 0, 1, [exchangedOp], [1], by decide, by decide, by decide, by decide⟩

def nothingExchanged : ReplicaState Bool :=
  ⟨⟨fun _ => .inMemory .empty, []⟩, fun _ _ => none, [], fun _ => none⟩

/-- One replica has committed the operation and sent it. -/
def sentOnce : ReplicaState Bool :=
  ⟨nothingExchanged.world.replace true (oneOp (OpLog.empty.insert exchangedOp)) [exchangedOp],
    fun _ _ => none, [exchangedDelta], fun _ => none⟩

theorem sentOnce_reachable : SyncReachable replicaName sentOnce := by
  have added : OpLog.empty.add exchangedOp = .ok (OpLog.empty.insert exchangedOp, true) := by
    simp [OpLog.add, OpLog.empty]
  have stored : InMemoryStore.append .empty exchangedOp =
      .ok (⟨OpLog.empty.insert exchangedOp, [exchangedOp], [1], none⟩, true) := by
    rw [InMemoryStore.append]
    change (OpLog.empty.add exchangedOp >>= _) = _
    rw [bind_of_ok added]
    rfl
  have appended : (nothingExchanged.world.stores true).append "x" exchangedOp =
      .ok (oneOp (OpLog.empty.insert exchangedOp), true) := by
    change (InMemoryStore.append .empty exchangedOp >>= fun outcome =>
      .ok (LogStore.inMemory outcome.1, outcome.2)) = _
    rw [bind_of_ok stored]
    rfl
  have start : SyncReachable replicaName nothingExchanged :=
    .start ⟨fun _ => Or.inl rfl, rfl, fun _ _ => rfl, rfl, fun _ => rfl⟩
  have committed := start.step (.append appended)
  have exported : exportReplicaDelta (replicaName true)
      (oneOp (OpLog.empty.insert exchangedOp)).readAfter 0 none = .ok exchangedDelta := rfl
  have isStore : sentOnce.world.stores true = oneOp (OpLog.empty.insert exchangedOp) := rfl
  rw [← isStore] at exported
  exact committed.step (.exportDelta exported)

end Reference

open Reference

/-- One replica commits an operation, and the other one receives it. -/
theorem sync_loses_nothing_exchanged :
    ∃ state progress, SyncReachable replicaName state ∧
      state.progress false (replicaName true) = some progress ∧ progress.Received 0 ∧
      (state.world.stores false).Holds exchangedOp := by
  have delivered := sentOnce_reachable.step
    (.deliver 0 (List.mem_singleton_self exchangedDelta) :
      SyncStep replicaName sentOnce (sentOnce.put 0 (some (.delivered false exchangedDelta))))
  have isDelivered : (sentOnce.put 0 (some (.delivered false exchangedDelta))).receives 0 =
      some (.delivered false exchangedDelta) := rfl
  have apart : exchangedDelta.senderReplicaId ≠ replicaName false := by decide
  have unknown : loadReplicaProgress
      ((sentOnce.put 0 (some (.delivered false exchangedDelta))).progress false
        exchangedDelta.senderReplicaId) exchangedDelta.senderReplicaId =
      .ok (.fresh "a" (by decide)) := rfl
  have loaded := delivered.step (.load isDelivered apart unknown)
  have batches : exchangedDelta.batches = [[exchangedOp]] := rfl
  rw [batches] at loaded
  have written : ∃ outcome,
      (sentOnce.world.stores false).appendMany "y" [exchangedOp] = .ok outcome := ⟨_, rfl⟩
  rcases written with ⟨⟨store, flags⟩, written⟩
  have isLoaded : ((sentOnce.put 0 (some (.delivered false exchangedDelta))).put 0
      (some (.writing false exchangedDelta (.fresh "a" (by decide)) [[exchangedOp]]))).receives 0 =
        some (.writing false exchangedDelta (.fresh "a" (by decide)) [[exchangedOp]]) := rfl
  have received := loaded.step (.write isLoaded written)
  have normal : (ReplicaProgress.fresh "a" (by decide)).Normal :=
    ⟨Canonical.nil, by simp [ReplicaProgress.fresh]⟩
  have valid : CursorRange.Valid (0, 1) := ⟨by decide, by decide⟩
  rcases advance_spec normal valid with ⟨updated, advanced, _, isPeer, positions⟩
  have saved := received.step (@SyncStep.save _ _ _ _ _ false exchangedDelta _ updated 0 rfl
    advanced)
  have peer : updated.peerReplicaId = replicaName true := isPeer
  have isReceived : updated.Received 0 := (positions 0).mpr (Or.inr ⟨by decide, by decide⟩)
  rw [peer] at saved
  refine ⟨_, updated, saved, ?_, isReceived, ?_⟩
  · rfl
  · apply (sync_loses_nothing Reference.collisionFree replicaName_injective saved).1 false true
      updated rfl 0 exchangedOp isReceived
    rfl

end Example

end Statefuse
