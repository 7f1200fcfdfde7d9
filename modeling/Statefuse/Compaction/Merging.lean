import Statefuse.Compaction.Replicas

/-!
# Merging with a compacted log

A replica may merge a peer's log before or after it compacts its own (`compaction_then_merge`):
what a compaction leaves out is retracted for good, names nothing, or is evidence.  The peer may
have claims about evidence that was left out; the conflicts of such claims lose the types of its
sources.
-/

namespace Statefuse

open Foundation

section Theory

variable [Runtime]

/-! ## Merged logs -/

/-- What adding operations binds an id to: what the log has, or the first operation of that id. -/
theorem OpLog.addAll_get {ops : List Op} {log next : OpLog}
    (run : ops.foldlM (fun log op => (log.add op).map Prod.fst) log = .ok next) (opId : String) :
    next.ops[opId]? = log.ops[opId]?.or (ops.find? fun op => op.opId = opId) := by
  induction ops generalizing log with
  | nil =>
      rw [List.foldlM_nil, pure_ok_iff] at run
      rw [run, List.find?_nil, Option.or_none]
  | cons head tail inductionHypothesis =>
      rw [List.foldlM_cons] at run
      rcases bind_ok_iff.mp run with ⟨entered, added, run⟩
      rcases map_ok_iff.mp added with ⟨⟨same, isNew⟩, computed, isEntered⟩
      subst isEntered
      rw [inductionHypothesis run, List.find?_cons]
      unfold add at computed
      split at computed
      · rename_i fresh
        injection computed with computed
        injection computed with inserted
        rw [← inserted, insert, Dict.get_insert]
        by_cases here : head.opId = opId
        · rw [← here, fresh]
          simp
        · simp [here]
      · rename_i existing known
        split at computed
        · injection computed with computed
          injection computed with unchanged
          rw [← unchanged]
          by_cases here : head.opId = opId
          · rw [← here, known]
            simp
          · simp [here]
        · cases computed

theorem OpLog.find_iterOps (log : OpLog) (opId : String) :
    (log.iterOps.find? fun op => op.opId = opId) = log.ops[opId]? := by
  cases found : log.ops[opId]? with
  | none =>
      rw [List.find?_eq_none]
      intro op listed same
      rw [log.mem_iterOps, of_decide_eq_true same, found] at listed
      cases listed
  | some op =>
      have sameId := log.keyed _ _ found
      have listed : op ∈ log.iterOps := by
        rw [log.mem_iterOps, sameId]
        exact found
      cases first : log.iterOps.find? fun op => op.opId = opId with
      | none =>
          have absent := List.find?_eq_none.mp first op listed
          simp [sameId] at absent
      | some other =>
          have otherId : other.opId = opId := by simpa using List.find?_some first
          have isOther := (log.mem_iterOps other).mp (List.mem_of_find?_eq_some first)
          rw [otherId, found] at isOther
          exact isOther.symm

/-- Of two operations with one id, a merged log has that of the first log. -/
theorem OpLog.merge_get {first second merged : OpLog} (merges : merge first second = .ok merged)
    (opId : String) : merged.ops[opId]? = first.ops[opId]?.or second.ops[opId]? := by
  rw [OpLog.merge, bind_of_ok (OpLog.ofOps_iterOps first)] at merges
  rw [addAll_get merges, second.find_iterOps]

/-- Fewer operations can be merged as well. -/
theorem OpLog.merge_fewer {first fewer second merged : OpLog}
    (merges : merge first second = .ok merged)
    (among : ∀ op ∈ fewer.iterOps, op ∈ first.iterOps) :
    ∃ joined, merge fewer second = .ok joined := by
  rw [(merge_iff fewer second).1]
  have agree := (merge_iff first second).1.mp ⟨merged, merges⟩
  rintro opId left right ⟨op, found, isLeft⟩ isRight
  have listed : op ∈ fewer.iterOps := by
    rw [fewer.mem_iterOps, fewer.keyed _ _ found]
    exact found
  have present := (first.mem_iterOps op).mp (among op listed)
  rw [fewer.keyed _ _ found] at present
  exact agree opId left right ⟨op, present, isLeft⟩ isRight

/-! ## Evidence -/

/-- The log has evidence of the id. -/
def OpLog.HasEvidence (log : OpLog) (evidenceId : String) : Prop :=
  ∃ header evidence, .evidenceAdded header evidence ∈ log.iterOps ∧
    evidence.evidenceId = evidenceId

/-- A claim of the log names the evidence. -/
def OpLog.CitesEvidence (log : OpLog) (evidenceId : String) : Prop :=
  ∃ header claim, .claimAdded header claim ∈ log.iterOps ∧ evidenceId ∈ claim.evidenceIds

section Merging

variable {registry : PredicateRegistry} {first second merged compacted joined : OpLog}
  {state : MemoryState}

/-- Merging a log that has lost spare operations. -/
theorem OpLog.Spares.merge_respells (spares : first.Spares registry compacted)
    (merges : merge first second = .ok merged) (joins : merge compacted second = .ok joined) :
    merged.Respells registry joined := by
  have within : ∀ op ∈ joined.iterOps, op ∈ first.iterOps ∨ op ∈ second.iterOps := by
    intro op listed
    exact (mem_of_merge joins listed).imp_left (spares.among op)
  constructor
  · intro op listed
    exact merge_mirrors merges (within op listed)
  · intro op listed absent
    have found := (merged.mem_iterOps op).mp listed
    rw [merge_get merges] at found
    have missing : joined.ops[op.opId]? ≠ some op := fun present =>
      absent ((joined.mem_iterOps op).mpr present)
    rw [merge_get joins] at missing
    cases own : first.ops[op.opId]? with
    | none =>
        have dropped : compacted.ops[op.opId]? = none := by
          rw [Option.eq_none_iff_forall_ne_some]
          intro other isOther
          have sameId := compacted.keyed _ _ isOther
          have kept : other ∈ compacted.iterOps := by
            rw [compacted.mem_iterOps, sameId]
            exact isOther
          have known := (first.mem_iterOps other).mp (spares.among other kept)
          rw [sameId, own] at known
          cases known
        rw [own, Option.none_or] at found
        rw [dropped, Option.none_or] at missing
        exact absurd found missing
    | some known =>
        rw [own, Option.some_or, Option.some.injEq] at found
        rw [found] at own
        have isOwn := (first.mem_iterOps op).mpr own
        have lost : op ∉ compacted.iterOps := by
          intro kept
          rw [(compacted.mem_iterOps op).mp kept, Option.some_or] at missing
          exact missing rfl
        refine isSpare_mono ?_ (spares.spare op isOwn lost)
        intro other isOther
        rw [merged.mem_iterOps, merge_get merges, (first.mem_iterOps other).mp isOther,
          Option.some_or]

/-- What was recorded on both sides. -/
theorem OpLog.Spares.merge_covers (spares : first.Spares registry compacted)
    (merges : merge first second = .ok merged) (joins : merge compacted second = .ok joined)
    (uniform : (first.contentsWith second).Uniform registry) :
    Respells.Covers (first.contentsWith second) registry merged joined := by
  constructor
  · exact Contents.within_of fun op listed => mem_of_merge merges listed
  · exact Contents.within_of fun op listed =>
      (mem_of_merge joins listed).imp_left (spares.among op)
  · exact (Contents.equalWithin_of fun op listed => merge_mirrors merges listed).retraction
  · exact uniform

/-- A log has the evidence of a log that it has been merged with. -/
theorem OpLog.hasEvidence_of_mirror {log : OpLog} {op : Op → Prop}
    (mirrored : ∀ other, op other → ∃ known ∈ log.iterOps, pyEq known other = true)
    {header : OpHeader} {evidence : Evidence} (listed : op (.evidenceAdded header evidence)) :
    log.HasEvidence evidence.evidenceId := by
  rcases (Contents.equalWithin_of mirrored).evidence evidence ⟨header, listed⟩ with
    ⟨other, ⟨otherHeader, isOther⟩, equal⟩
  exact ⟨otherHeader, other, isOther, congrArg (fun fields => fields.1) (pyEq_iff.mp equal)⟩

/-- A table has the evidence of its log. -/
theorem materialize_evidence {log : OpLog} {detectors : List ConflictDetector}
    {validAt : Option String} {context : JSONObject}
    (run : materialize log registry detectors validAt context = .ok state) :
    Gathers state.evidenceById (·.evidenceId) (Contents.of (· ∈ log.iterOps)).evidence := by
  obtain ⟨_, collected, collects, _, _, _, _, _, _, _, _, _, _, same⟩ :=
    materialize_ok_iff.mp run
  rw [← same]
  exact (collect_gathers collects).evidence

/-- Evidence of one id is of one source in both logs, when both have it. -/
theorem OpLog.Respells.sources_eq {long short : OpLog} (respells : long.Respells registry short)
    {detectors : List ConflictDetector} {validAt : Option String} {context : JSONObject}
    {other : MemoryState}
    (run : Statefuse.materialize long registry detectors validAt context = .ok state)
    (otherRun : Statefuse.materialize short registry detectors validAt context = .ok other)
    {evidenceId : String} (kept : long.HasEvidence evidenceId → short.HasEvidence evidenceId) :
    other.evidenceById[evidenceId]?.bind Evidence.sourceId =
      state.evidenceById[evidenceId]?.bind Evidence.sourceId := by
  have table := materialize_evidence run
  have otherTable := materialize_evidence otherRun
  have matched : ∀ spelled, (Contents.of (· ∈ short.iterOps)).evidence spelled →
      spelled.evidenceId = evidenceId → ∃ held, state.evidenceById[evidenceId]? = some held ∧
        held.sourceId = spelled.sourceId := by
    intro spelled isSpelled sameId
    rcases (Contents.equalWithin_of respells.among).evidence spelled isSpelled with
      ⟨known, isKnown, equal⟩
    rcases table.present known isKnown with ⟨held, found, alike⟩
    have both := pyEq_iff.mp (pyEq_trans alike equal)
    have knownId : known.evidenceId = spelled.evidenceId :=
      congrArg (fun fields => fields.1) (pyEq_iff.mp equal)
    rw [knownId, sameId] at found
    exact ⟨held, found, congrArg (fun fields => fields.2.2.2.1) both⟩
  cases found : other.evidenceById[evidenceId]? with
  | some spelled =>
      rcases otherTable.stored _ _ found with ⟨isSpelled, sameId⟩
      rcases matched spelled isSpelled sameId with ⟨held, isHeld, sameSource⟩
      rw [isHeld, Option.bind_some, Option.bind_some, sameSource]
  | none =>
      cases held : state.evidenceById[evidenceId]? with
      | none => rfl
      | some evidence =>
          rcases table.stored _ _ held with ⟨⟨header, listed⟩, sameId⟩
          rcases kept ⟨header, evidence, listed, sameId⟩ with
            ⟨otherHeader, spelled, isSpelled, spelledId⟩
          rcases otherTable.present spelled ⟨otherHeader, isSpelled⟩ with ⟨_, present, _⟩
          rw [spelledId, found] at present
          cases present

/-- The evidence of an active claim is kept, unless only a claim of the other log names it. -/
theorem evidence_merged {start : MemoryState} {validAt : Option String} {context : JSONObject}
    (started : materialize first registry [] none ∅ = .ok start)
    (compacts : IsCompactionOf [] start first compacted)
    (merges : OpLog.merge first second = .ok merged)
    (joins : OpLog.merge compacted second = .ok joined)
    (kept : ∀ evidenceId, second.CitesEvidence evidenceId → first.HasEvidence evidenceId →
      joined.HasEvidence evidenceId)
    (run : materialize merged registry [] validAt context = .ok state) {claim : Claim}
    (active : claim ∈ (Dict.values state.activeClaimsByKey).flatten) {evidenceId : String}
    (named : evidenceId ∈ claim.evidenceIds) (has : merged.HasEvidence evidenceId) :
    joined.HasEvidence evidenceId := by
  rcases has with ⟨header, evidence, listed, isEvidence⟩
  rcases OpLog.mem_of_merge merges listed with own | their
  · rw [mem_flatten_values (materialize_active run).1] at active
    rcases active with ⟨_, ⟨found, present, _⟩, _⟩
    obtain ⟨_, wide, collects, _, _, _, _, _, _, _, _, _, _, same⟩ := materialize_ok_iff.mp run
    have gathers := collect_gathers collects
    rw [← same] at found present
    rcases (gathers.claims.stored _ _ found).1 with ⟨claimHeader, isClaim⟩
    rcases OpLog.mem_of_merge merges isClaim with ownClaim | theirClaim
    · obtain ⟨_, narrow, startCollects, _⟩ := materialize_ok_iff.mp started
      have startGathers := collect_gathers startCollects
      have within : ∀ op ∈ first.iterOps, op ∈ merged.iterOps := by
        intro op isOne
        rw [merged.mem_iterOps, OpLog.merge_get merges, (first.mem_iterOps op).mp isOne,
          Option.some_or]
      rcases startGathers.claims.present claim ⟨claimHeader, ownClaim⟩ with
        ⟨held, isHeld, equal⟩
      have sameId := Contents.EqualWithin.claimId_of_equal equal
      have sameEvidence : held.evidenceIds = claim.evidenceIds :=
        congrArg (fun fields => fields.2.1.2.2.1) (pyEq_iff.mp equal)
      have isActive : held ∈ (Dict.values start.activeClaimsByKey).flatten := by
        rw [mem_activeClaims started startCollects]
        refine ⟨(Dict.mem_values _ _).mpr ⟨_, isHeld⟩, fun gone => present ?_⟩
        rw [startGathers.mem_inactive, sameId] at gone
        exact (gathers.mem_inactive _).mpr (Contents.inactive_mono (Contents.within_of within) gone)
      have needed : evidence.evidenceId ∈ (CompactionNeeds.ofState start).evidenceIds := by
        rw [isEvidence]
        exact active_evidence isActive (sameEvidence ▸ named)
      have stays : .evidenceAdded header evidence ∈ compacted.iterOps := by
        rw [compacts, List.mem_filter]
        exact ⟨own, decide_eq_true (Or.inr needed)⟩
      rw [← isEvidence]
      exact OpLog.hasEvidence_of_mirror (fun _ => OpLog.merge_mirrors joins) (Or.inl stays)
    · exact kept evidenceId ⟨claimHeader, claim, theirClaim, named⟩
        ⟨header, evidence, own, isEvidence⟩
  · rw [← isEvidence]
    exact OpLog.hasEvidence_of_mirror (fun _ => OpLog.merge_mirrors joins) (Or.inr their)

end Merging

/-- Where the records of one claim id are retracted together, a log that is merged with a
compacted log has the active claims, decisions, resolutions and lanes that it has when merged with
the whole log, and the same conflicts but for their provenance.  The provenance is the same too,
unless the compaction has left out evidence that a claim of the log names. -/
theorem compaction_then_merge {registry : PredicateRegistry}
    {first second merged compacted : OpLog} (merges : OpLog.merge first second = .ok merged)
    (compacts : compactOplog first registry [] = .ok compacted)
    (uniform : (first.contentsWith second).Uniform registry) :
    ∃ joined, OpLog.merge compacted second = .ok joined ∧
      ∀ validAt context state, materialize merged registry [] validAt context = .ok state →
        ∃ other, materialize joined registry [] validAt context = .ok other ∧
          state.DecidesAlike other ∧
          ((∀ evidenceId, second.CitesEvidence evidenceId → first.HasEvidence evidenceId →
            joined.HasEvidence evidenceId) → other.conflicts = state.conflicts) := by
  rcases map_ok_iff.mp compacts with ⟨report, reported, isCompacted⟩
  rcases compactWithReport_compacts reported with ⟨start, started, isCompaction⟩
  rw [isCompacted] at isCompaction
  have spares := (OpLog.Spares.refl registry first).compact started isCompaction
  rcases OpLog.merge_fewer merges spares.among with ⟨joined, joins⟩
  have respells := spares.merge_respells merges joins
  refine ⟨joined, joins, fun validAt context state run => ?_⟩
  rcases respells.materialize (spares.merge_covers merges joins uniform) (by simp) run with
    ⟨other, otherRun, alike, sameConflicts⟩
  refine ⟨other, otherRun, alike, fun kept => sameConflicts rfl ?_⟩
  intro claim active evidenceId named
  exact respells.sources_eq run otherRun
    (evidence_merged started isCompaction merges joins kept run active named)

end Theory

section Example

attribute [local instance] Reference.shortRuntime

private def mergeHeader (opId : String) : OpHeader := ⟨opId, "r", Reference.timestamp⟩

private theorem report_named : "s" ≠ "" ∧ "report" ≠ "" := by decide

private def reportSource : Source :=
  ⟨"s", "report", none, none, none, none, none, none, ∅, report_named.1, report_named.2⟩

/-- Evidence that no claim names yet. -/
def evidenceOps : List Op :=
  [.sourceAdded (mergeHeader "op-a") reportSource,
    .evidenceAdded (mergeHeader "op-b") ⟨"cited", none, ∅, some "s", none⟩]

/-- Two claims at odds, of which one names that evidence. -/
def citingOps : List Op :=
  [.claimAdded (mergeHeader "op-c") (Reference.fact "a" Reference.key (.str "x") ["cited"]),
    .claimAdded (mergeHeader "op-d") (Reference.fact "b" Reference.key (.str "y") [])]

/-- How many conflicts have a provenance. -/
private def traced (state : MemoryState) : Nat :=
  (state.conflicts.filter fun conflict => conflict.annotations.contains "provenance").length

/-- Merged with the compacted log, the conflict has no provenance. -/
theorem provenance_lost_in_merge :
    ∃ compacted merged joined state other,
      compactOplog (Reference.logOf evidenceOps) .empty [] = .ok compacted ∧
      OpLog.merge (Reference.logOf evidenceOps) (Reference.logOf citingOps) = .ok merged ∧
      OpLog.merge compacted (Reference.logOf citingOps) = .ok joined ∧
      materialize merged .empty [] none ∅ = .ok state ∧
      materialize joined .empty [] none ∅ = .ok other ∧ other.conflicts ≠ state.conflicts := by
  have computed : (do
      let compacted ← compactOplog (Reference.logOf evidenceOps) .empty []
      let merged ← OpLog.merge (Reference.logOf evidenceOps) (Reference.logOf citingOps)
      let joined ← OpLog.merge compacted (Reference.logOf citingOps)
      let state ← materialize merged .empty [] none ∅
      let other ← materialize joined .empty [] none ∅
      return (traced state, traced other) : Result (Nat × Nat)).toOption = some (1, 0) := by
    decide +kernel
  cases run : (do
      let compacted ← compactOplog (Reference.logOf evidenceOps) .empty []
      let merged ← OpLog.merge (Reference.logOf evidenceOps) (Reference.logOf citingOps)
      let joined ← OpLog.merge compacted (Reference.logOf citingOps)
      let state ← materialize merged .empty [] none ∅
      let other ← materialize joined .empty [] none ∅
      return (traced state, traced other) : Result (Nat × Nat)) with
  | error failure =>
      rw [run] at computed
      cases computed
  | ok counts =>
      rw [run] at computed
      injection computed with computed
      obtain ⟨compacted, compacts, run⟩ := bind_ok_iff.mp run
      obtain ⟨merged, merges, run⟩ := bind_ok_iff.mp run
      obtain ⟨joined, joins, run⟩ := bind_ok_iff.mp run
      obtain ⟨state, stateRun, run⟩ := bind_ok_iff.mp run
      obtain ⟨other, otherRun, run⟩ := bind_ok_iff.mp run
      rw [pure_ok_iff, computed, Prod.mk.injEq] at run
      refine ⟨compacted, merged, joined, state, other, compacts, merges, joins, stateRun, otherRun,
        ?_⟩
      intro same
      have counts : traced other = traced state := by rw [traced, traced, same]
      rw [run.1, run.2] at counts
      cases counts

private def mergedRetraction : RetractionFields where
  toOpHeader := mergeHeader "op-g"
  targetClaimId := some "b"
  targetClaimRef := none
  evidenceIds := []
  reason := "outdated"
  supersedesClaimId := none
  supersedesClaimRef := none
  signingKeyId := none
  signature := none

private theorem mergedRetraction_checked : mergedRetraction.check = .ok () := rfl

/-- Two claims, of which one is retracted. -/
private def ownOps : List Op :=
  [.claimAdded (mergeHeader "op-e") (Reference.fact "a" Reference.key (.str "x") []),
    .claimAdded (mergeHeader "op-f") (Reference.fact "b" Reference.key (.str "y") []),
    .claimRetracted ⟨mergedRetraction, mergedRetraction_checked⟩]

/-- The retracted claim once more, and a third one. -/
private def peerOps : List Op :=
  [.claimAdded (mergeHeader "op-f") (Reference.fact "b" Reference.key (.str "y") []),
    .claimAdded (mergeHeader "op-h") (Reference.fact "c" Reference.key (.str "z") [])]

private def claimOf : Op → Option Claim
  | .claimAdded _ claim => some claim
  | _ => none

private theorem ownOps_uniform :
    ((Reference.logOf ownOps).contentsWith (Reference.logOf peerOps)).Uniform .empty := by
  have distinct : ∀ first ∈ ((Reference.logOf ownOps).iterOps ++
      (Reference.logOf peerOps).iterOps).filterMap claimOf, ∀ second ∈
      ((Reference.logOf ownOps).iterOps ++ (Reference.logOf peerOps).iterOps).filterMap claimOf,
      first.claimId = second.claimId → first = second := by decide +kernel
  have listed : ∀ claim, ((Reference.logOf ownOps).contentsWith
      (Reference.logOf peerOps)).claim claim → claim ∈ ((Reference.logOf ownOps).iterOps ++
        (Reference.logOf peerOps).iterOps).filterMap claimOf := by
    rintro claim ⟨header, isOne⟩
    exact List.mem_filterMap.mpr ⟨_, List.mem_append.mpr isOne, rfl⟩
  intro first second isFirst isSecond same
  rw [distinct first (listed first isFirst) second (listed second isSecond) same]

theorem compaction_then_merge_returning :
    ∃ compacted merged joined state other,
      compactOplog (Reference.logOf ownOps) .empty [] = .ok compacted ∧
      OpLog.merge (Reference.logOf ownOps) (Reference.logOf peerOps) = .ok merged ∧
      compacted.iterOps.map Op.opId = ["op-e", "op-g"] ∧
      materialize merged .empty [] none ∅ = .ok state ∧
      OpLog.merge compacted (Reference.logOf peerOps) = .ok joined ∧
      materialize joined .empty [] none ∅ = .ok other ∧ state.DecidesAlike other := by
  have computed : (do
      let compacted ← compactOplog (Reference.logOf ownOps) .empty []
      let merged ← OpLog.merge (Reference.logOf ownOps) (Reference.logOf peerOps)
      let _ ← materialize merged .empty [] none ∅
      return compacted.iterOps.map Op.opId : Result (List String)).toOption =
        some ["op-e", "op-g"] := by
    decide +kernel
  cases run : (do
      let compacted ← compactOplog (Reference.logOf ownOps) .empty []
      let merged ← OpLog.merge (Reference.logOf ownOps) (Reference.logOf peerOps)
      let _ ← materialize merged .empty [] none ∅
      return compacted.iterOps.map Op.opId : Result (List String)) with
  | error failure =>
      rw [run] at computed
      cases computed
  | ok kept =>
      rw [run] at computed
      injection computed with computed
      obtain ⟨compacted, compacts, run⟩ := bind_ok_iff.mp run
      obtain ⟨merged, merges, run⟩ := bind_ok_iff.mp run
      obtain ⟨state, stateRun, run⟩ := bind_ok_iff.mp run
      rw [pure_ok_iff, computed] at run
      obtain ⟨joined, joins, agrees⟩ := compaction_then_merge merges compacts ownOps_uniform
      obtain ⟨other, otherRun, alike, _⟩ := agrees none ∅ state stateRun
      exact ⟨compacted, merged, joined, state, other, compacts, merges, run, stateRun, joins,
        otherRun, alike⟩

end Example

end Statefuse
