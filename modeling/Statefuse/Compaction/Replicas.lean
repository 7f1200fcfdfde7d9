import Mathlib.Logic.Function.Basic
import Statefuse.Compaction.Report
import Statefuse.Materialize.Retractions

/-!
# Replicas that compact their logs

Replicas write operations, merge the logs of others and compact their own log, in any order.  A
retracted claim that one of them has left out can come back from another one, and is retracted
there too: the retractions are never left out.  So every replica decides about claims and
conflicts as it would if nobody had ever compacted (`compactions_decide_nothing`).
-/

namespace Statefuse

open Foundation

section Theory

variable [Runtime]

theorem Op.MayBeLeft.mono {isClaim alsoClaim isEvidence : String → Prop} {op : Op}
    (left : op.MayBeLeft isClaim isEvidence)
    (fewer : ∀ claimId, alsoClaim claimId → isClaim claimId) :
    op.MayBeLeft alsoClaim isEvidence := by
  cases op with
  | claimAdded header claim => exact fun isOne => left (fewer _ isOne)
  | evidenceAdded header evidence => exact left
  | claimRetracted retraction => exact left
  | sourceAdded header source => exact left
  | decisionAdded header decision => exact left
  | derivationAdded header derivation => exact left
  | resolutionAdded header resolution => exact left
  | conflictLifecycleEventAdded header event => exact left

/-- The claims that no retraction of a log makes inactive. -/
def OpLog.Current (log : OpLog) (registry : PredicateRegistry) (claimId : String) : Prop :=
  ¬ (Contents.of (· ∈ log.iterOps)).inactive registry claimId

/-- An operation that decides nothing in a log: evidence, a claim that is retracted, or a
retraction of nothing. -/
def Op.IsSpare (registry : PredicateRegistry) (log : OpLog) (op : Op) : Prop :=
  op.MayBeLeft (log.Current registry) fun _ => False

/-- A log without some of the spare operations of another one. -/
structure OpLog.Spares (registry : PredicateRegistry) (long short : OpLog) : Prop where
  among : ∀ op ∈ short.iterOps, op ∈ long.iterOps
  spare : ∀ op ∈ long.iterOps, op ∉ short.iterOps → op.IsSpare registry long

namespace OpLog.Spares

variable {registry : PredicateRegistry} {long short : OpLog}

theorem refl (registry : PredicateRegistry) (log : OpLog) : log.Spares registry log :=
  ⟨fun _ listed => listed, fun _ listed absent => absurd listed absent⟩

/-- What is spare stays so when a log grows. -/
theorem isSpare_mono {log larger : OpLog} (within : ∀ op ∈ log.iterOps, op ∈ larger.iterOps)
    {op : Op} (spare : op.IsSpare registry log) : op.IsSpare registry larger :=
  spare.mono fun _ current gone =>
    current (Contents.inactive_mono (Contents.within_of within) gone)

/-- Logs that are joined. -/
theorem join {otherLong otherShort joinedLong joinedShort : OpLog}
    (spares : long.Spares registry short) (others : otherLong.Spares registry otherShort)
    (isLong : ∀ op, op ∈ joinedLong.iterOps ↔ op ∈ long.iterOps ∨ op ∈ otherLong.iterOps)
    (isShort : ∀ op, op ∈ joinedShort.iterOps ↔ op ∈ short.iterOps ∨ op ∈ otherShort.iterOps) :
    joinedLong.Spares registry joinedShort := by
  constructor
  · intro op listed
    rw [isLong]
    rcases (isShort op).mp listed with own | other
    · exact Or.inl (spares.among op own)
    · exact Or.inr (others.among op other)
  · intro op listed absent
    rw [isShort, not_or] at absent
    rcases (isLong op).mp listed with own | other
    · exact isSpare_mono (fun _ present => (isLong _).mpr (Or.inl present))
        (spares.spare op own absent.1)
    · exact isSpare_mono (fun _ present => (isLong _).mpr (Or.inr present))
        (others.spare op other absent.2)

/-- A log that is compacted. -/
theorem compact {compacted : OpLog} {detectors : List ConflictDetector} {state : MemoryState}
    (spares : long.Spares registry short)
    (run : materialize short registry detectors none ∅ = .ok state)
    (compacts : IsCompactionOf detectors state short compacted) :
    long.Spares registry compacted := by
  have isKept : ∀ op, op ∈ compacted.iterOps ↔
      op ∈ short.iterOps ∧ (CompactionNeeds.ofState state).keeps detectors op = true := by
    intro op
    rw [compacts, List.mem_filter]
  constructor
  · exact fun op listed => spares.among op ((isKept op).mp listed).1
  · intro op listed absent
    by_cases present : op ∈ short.iterOps
    · have left : (CompactionNeeds.ofState state).keeps detectors op = false := by
        rw [← Bool.not_eq_true]
        exact fun kept => absent ((isKept op).mpr ⟨present, kept⟩)
      have leaves := mayBeLeft run present left
      obtain ⟨_, collected, collects, _⟩ := materialize_ok_iff.mp run
      have gathers := collect_gathers collects
      cases op with
      | claimAdded header claim =>
          intro current
          suffices kept : claim.claimId ∈ (CompactionNeeds.ofState state).activeClaimIds from
            leaves kept
          rw [CompactionNeeds.ofState, PySet.mem_ofList]
          rcases gathers.claims.present claim ⟨header, present⟩ with ⟨held, found, _⟩
          have sameId := (gathers.claims.stored _ _ found).2
          have isActive : held ∈ (Dict.values state.activeClaimsByKey).flatten := by
            rw [mem_activeClaims run collects]
            refine ⟨(Dict.mem_values _ _).mpr ⟨_, found⟩, fun gone => current ?_⟩
            rw [gathers.mem_inactive, sameId] at gone
            exact Contents.inactive_mono (Contents.within_of spares.among) gone
          rw [← sameId]
          exact List.mem_map_of_mem isActive
      | evidenceAdded header evidence => exact not_false
      | claimRetracted retraction => exact leaves
      | sourceAdded header source => exact leaves
      | decisionAdded header decision => exact leaves
      | derivationAdded header derivation => exact leaves
      | resolutionAdded header resolution => exact leaves
      | conflictLifecycleEventAdded header event => exact leaves
    · exact spares.spare op listed present

end OpLog.Spares

/-! ## What the logs decide -/

/-- A conflict without the types of the sources of its evidence, which are its one annotation
that is read off the evidence. -/
def ConflictSet.withoutProvenance : ConflictSet → ConflictSet := .keeping (·.erase "provenance")

/-- Findings of the same claims and derivations are annotated alike but for their provenance. -/
theorem findingAnnotations_alike {first second : ConflictDetectionContext}
    (same : first.derivationsById = second.derivationsById) (candidates : List Claim)
    (aggregate : Bool) :
    (findingAnnotations first candidates aggregate).erase "provenance" =
      (findingAnnotations second candidates aggregate).erase "provenance" := by
  have multiHop : isMultiHop candidates first = isMultiHop candidates second := by
    unfold isMultiHop
    rw [same]
  have others : ∀ name ≠ "provenance",
      (annotationsFor candidates first)[name]? = (annotationsFor candidates second)[name]? := by
    intro name different
    rw [annotationsFor, annotationsFor, get_withField, get_withField, if_neg different.symm,
      if_neg different.symm, multiHop]
  apply Dict.ext
  intro name
  rw [Dict.get_erase, Dict.get_erase]
  by_cases here : "provenance" = name
  · rw [if_pos here, if_pos here]
  · rw [if_neg here, if_neg here]
    cases aggregate with
    | false => exact others name (Ne.symm here)
    | true =>
        change (Std.ExtTreeMap.insert (annotationsFor candidates first) _ _)[name]? =
          (Std.ExtTreeMap.insert (annotationsFor candidates second) _ _)[name]?
        rw [Dict.get_insert, Dict.get_insert, others name (Ne.symm here)]

/-- The states have the same active claims, decisions, resolutions and lanes, and the same
conflicts but for the provenance of their evidence. -/
structure MemoryState.DecidesAlike (first second : MemoryState) : Prop where
  active : second.activeClaimsByKey = first.activeClaimsByKey
  inapplicable : second.inapplicableClaimIds = first.inapplicableClaimIds
  decisions : second.activeDecisions = first.activeDecisions
  conflicts : second.conflicts.map ConflictSet.withoutProvenance =
    first.conflicts.map ConflictSet.withoutProvenance
  resolutions : second.resolutionsById = first.resolutionsById
  activeResolutions : second.activeResolutionsByConflictRefAndScope =
    first.activeResolutionsByConflictRefAndScope
  effective : second.effectiveResolutionsByConflictRefAndScope =
    first.effectiveResolutionsByConflictRefAndScope
  statuses : second.lifecycleStatusByConflictRefAndScope =
    first.lifecycleStatusByConflictRefAndScope

section Deciding

variable {registry : PredicateRegistry} {long short : OpLog}

/-- A log without some of the spare operations of another one, or with equal ones in their
place. -/
structure OpLog.Respells (registry : PredicateRegistry) (long short : OpLog) : Prop where
  among : ∀ op ∈ short.iterOps, ∃ other ∈ long.iterOps, pyEq other op = true
  spare : ∀ op ∈ long.iterOps, op ∉ short.iterOps → op.IsSpare registry long

theorem OpLog.Spares.respells (spares : long.Spares registry short) :
    long.Respells registry short :=
  ⟨fun op listed => ⟨op, spares.among op listed, pyEq_refl op⟩, spares.spare⟩

theorem Op.opId_of_equal {first second : Op} (equal : pyEq first second = true) :
    first.opId = second.opId :=
  congrArg (fun fields => fields.1.opId) (pyEq_iff.mp equal)

namespace OpLog.Respells

theorem iterOps_eq (respells : long.Respells registry short) :
    short.iterOps = long.iterOps.filterMap fun op => short.ops[op.opId]? := by
  apply eq_of_strictly_sorted short.iterOps_sorted
  · refine long.iterOps_sorted.filterMap _ ?_
    intro first second before picked isPicked other isOther
    rw [short.keyed _ _ isPicked, short.keyed _ _ isOther]
    exact before
  · intro op
    rw [List.mem_filterMap]
    constructor
    · intro listed
      rcases respells.among op listed with ⟨other, isOther, equal⟩
      refine ⟨other, isOther, ?_⟩
      rw [Op.opId_of_equal equal]
      exact (short.mem_iterOps op).mp listed
    · rintro ⟨other, _, found⟩
      rw [short.mem_iterOps, short.keyed _ _ found]
      exact found

/-- An operation stays as it is, or is spare. -/
theorem picks (respells : long.Respells registry short) (op : Op) (listed : op ∈ long.iterOps) :
    short.ops[op.opId]? = some op ∨ op.IsSpare registry long ∧
      ∀ other, short.ops[op.opId]? = some other → pyEq op other = true := by
  by_cases present : op ∈ short.iterOps
  · exact Or.inl ((short.mem_iterOps op).mp present)
  · refine Or.inr ⟨respells.spare op listed present, ?_⟩
    intro other found
    have sameId := short.keyed _ _ found
    have isOther : other ∈ short.iterOps := by
      rw [short.mem_iterOps, sameId]
      exact found
    rcases respells.among other isOther with ⟨known, isKnown, equal⟩
    rw [long.mem_iterOps, Op.opId_of_equal equal, sameId, (long.mem_iterOps op).mp listed,
      Option.some.injEq] at isKnown
    rw [isKnown]
    exact equal

/-- No retraction of a claim is spare. -/
theorem retraction (respells : long.Respells registry short) {retraction : ClaimRetracted}
    {claim : Claim} (listed : .claimRetracted retraction ∈ long.iterOps)
    (names : retraction.Names registry claim) : .claimRetracted retraction ∈ short.iterOps := by
  by_contra absent
  rcases respells.spare _ listed absent with ⟨noTarget, noRef⟩
  rw [ClaimRetracted.names_iff, noTarget, noRef] at names
  rcases names with impossible | impossible
  · cases impossible
  · cases impossible

/-- The records of both logs, of which those with one claim id are retracted together. -/
structure Covers (pool : Contents) (registry : PredicateRegistry) (long short : OpLog) :
    Prop where
  longWithin : (Contents.of (· ∈ long.iterOps)).Within pool
  shortWithin : (Contents.of (· ∈ short.iterOps)).Within pool
  retractions : ∀ retraction, pool.retraction retraction →
    .claimRetracted retraction ∈ long.iterOps
  uniform : pool.Uniform registry

variable {pool : Contents} {wide narrow : Collected}

/-- The same claims of the shorter log are retracted in both. -/
theorem sameActive (respells : long.Respells registry short)
    (covers : Covers pool registry long short)
    (gathers : wide.Gathers registry (.of (· ∈ long.iterOps)))
    (narrowGathers : narrow.Gathers registry (.of (· ∈ short.iterOps))) :
    wide.SameActive (long.Current registry) narrow := by
  constructor
  · exact gathers.claims.keyed
  · intro claim listed present
    rw [gathers.mem_inactive] at present
    exact present
  · intro claim listed
    rcases (Dict.mem_values _ _).mp listed with ⟨claimId, found⟩
    have isClaim := (narrowGathers.claims.stored _ _ found).1
    have pooled := covers.shortWithin.claim claim isClaim
    rw [narrowGathers.mem_inactive, gathers.mem_inactive]
    constructor
    · intro gone
      have retracted := (Contents.inactive_iff_retracts covers.uniform pooled).mp
        (Contents.inactive_mono covers.shortWithin gone)
      rcases isClaim with ⟨header, present⟩
      rcases (Contents.equalWithin_of respells.among).claim claim ⟨header, present⟩ with
        ⟨other, isOther, equal⟩
      have sameId := Contents.EqualWithin.claimId_of_equal equal
      have either := covers.uniform claim other pooled (covers.longWithin.claim other isOther)
        sameId.symm
      rcases either.mp retracted with ⟨retraction, retracts, names⟩
      rw [← sameId]
      exact Contents.inactive_of_retracts isOther
        ⟨retraction, covers.retractions retraction retracts, names⟩
    · intro gone
      rcases (Contents.inactive_iff_retracts covers.uniform pooled).mp
        (Contents.inactive_mono covers.longWithin gone) with ⟨retraction, retracts, names⟩
      exact Contents.inactive_of_retracts isClaim
        ⟨retraction, respells.retraction (covers.retractions retraction retracts) names, names⟩

/-- Where the records of one claim id are retracted together, both logs decide alike.  Without
custom detectors they find the same conflicts when the evidence of the active claims has the same
sources in both. -/
theorem materialize (respells : long.Respells registry short)
    (covers : Covers pool registry long short) {detectors : List ConflictDetector}
    (reads : ∀ detector ∈ detectors, ReadsClaims detector) {validAt : Option String}
    {context : JSONObject} {state : MemoryState}
    (run : materialize long registry detectors validAt context = .ok state) :
    ∃ other, Statefuse.materialize short registry detectors validAt context = .ok other ∧
      state.DecidesAlike other ∧ (detectors = [] →
        state.context.SharesEvidence other.evidenceById
          (Dict.values state.activeClaimsByKey).flatten → other.conflicts = state.conflicts) := by
  rcases materialize_ok_iff.mp run with ⟨instant, wide, collects, active, isActive, decisions,
    isDecisions, conflicts, isConflicts, indexes, isIndexes, lifecycle, isLifecycle, isState⟩
  rcases collect_respelled respells.picks collects with ⟨narrow, narrowCollects, prunes⟩
  rw [← respells.iterOps_eq] at narrowCollects
  have sameActive := respells.sameActive covers (collect_gathers collects)
    (collect_gathers narrowCollects)
  have alike : (detectionContext registry
      (sortGroups Claim.claimId (groupBy Claim.key active.1)) wide.evidenceById
        wide.sourcesById wide.derivationsById decisions).AnnotatesAlike (·.erase "provenance")
      (detectionContext registry (sortGroups Claim.claimId (groupBy Claim.key active.1))
        narrow.evidenceById narrow.sourcesById narrow.derivationsById decisions) :=
    ⟨⟨rfl, rfl, rfl⟩, findingAnnotations_alike prunes.derivationsById.symm⟩
  rcases runConflictDetectors_keeping alike reads isConflicts with
    ⟨otherConflicts, alsoConflicts, equal⟩
  rcases conflicts_keeping _ equal (sortGroups Claim.claimId (groupBy Claim.key active.1))
    registry wide.resolutionsById (groupResolutionHistory wide.resolutionsById).2
    (groupLifecycleHistory wide.lifecycleEventsById).2 validAt with ⟨sameIndexes, sameLifecycle⟩
  have alsoActive := (partitionClaims_pruned prunes sameActive validAt context).trans isActive
  have alsoLifecycle := sameLifecycle.trans isLifecycle
  rw [← prunes.resolutionsById, ← prunes.lifecycleEventsById] at alsoLifecycle
  rw [← prunes.decisionsById] at isDecisions
  refine ⟨_, materialize_ok_iff.mpr ⟨instant, narrow, narrowCollects, active, alsoActive,
    decisions, isDecisions, otherConflicts, alsoConflicts, indexes,
    sameIndexes.trans isIndexes, lifecycle, alsoLifecycle, rfl⟩, ?_⟩
  rw [← isState]
  refine ⟨⟨rfl, rfl, rfl, equal.symm, prunes.resolutionsById, rfl, rfl, rfl⟩, ?_⟩
  intro none shared
  subst none
  have sources : ∀ claim ∈ (Dict.values (sortGroups Claim.claimId
      (groupBy Claim.key active.1))).flatten, ∀ evidenceId ∈ claim.evidenceIds,
        narrow.evidenceById[evidenceId]?.bind Evidence.sourceId =
          wide.evidenceById[evidenceId]?.bind Evidence.sourceId := shared
  have found := @detection_shared _ registry _ _ _
    (fun entry listed claim isOne => sources claim (List.mem_flatten.mpr ⟨entry.2,
      (Dict.mem_values _ _).mpr ⟨entry.1, (Dict.mem_toList _ _ _).mp listed⟩, isOne⟩))
    wide.sourcesById wide.derivationsById decisions
  rw [prunes.sourcesById, prunes.derivationsById] at alsoConflicts
  exact Except.ok.inj (alsoConflicts.symm.trans (found.trans isConflicts))

end OpLog.Respells

/-- Where the records of one claim id are retracted together, a log decides as it does with its
spare operations. -/
theorem OpLog.Spares.materialize (spares : long.Spares registry short)
    (uniform : (Contents.of (· ∈ long.iterOps)).Uniform registry)
    {detectors : List ConflictDetector} (reads : ∀ detector ∈ detectors, ReadsClaims detector)
    {validAt : Option String} {context : JSONObject} {state : MemoryState}
    (run : materialize long registry detectors validAt context = .ok state) :
    ∃ other, Statefuse.materialize short registry detectors validAt context = .ok other ∧
      state.DecidesAlike other := by
  have covers : Respells.Covers (.of (· ∈ long.iterOps)) registry long short :=
    ⟨Contents.within_self _, Contents.within_of spares.among, fun _ listed => listed, uniform⟩
  rcases spares.respells.materialize covers reads run with ⟨other, alsoRun, alike, _⟩
  exact ⟨other, alsoRun, alike⟩

end Deciding

/-! ## Runs -/

/-- What happens to the logs of some replicas. -/
inductive ReplicaCall (Peer : Type) where
  | write (peer : Peer) (op : Op)
  | mergeFrom (receiver sender : Peer)
  | compact (peer : Peer) (constraints : Option ViewConstraints) (resolver : Option Resolver)
      (detectors : List ConflictDetector)

namespace ReplicaCall

variable {Peer : Type}

def isCompaction : ReplicaCall Peer → Bool
  | .compact .. => true
  | _ => false

/-- The operation that a call writes. -/
def written : ReplicaCall Peer → Option Op
  | .write _ op => some op
  | _ => none

variable [DecidableEq Peer]

/-- The logs after a call; the log of a call that raises stays as it is. -/
def after (registry : PredicateRegistry) (logs : Peer → OpLog) : ReplicaCall Peer → Peer → OpLog
  | .write peer op =>
      Function.update logs peer
        ((((logs peer).add op).map Prod.fst).toOption.getD (logs peer))
  | .mergeFrom receiver sender =>
      Function.update logs receiver
        (((logs receiver).merge (logs sender)).toOption.getD (logs receiver))
  | .compact peer constraints resolver detectors =>
      Function.update logs peer
        (((compactWithReport (logs peer) registry constraints resolver detectors).map
          (·.compacted)).toOption.getD (logs peer))

/-- The logs after some calls. -/
def run (registry : PredicateRegistry) (logs : Peer → OpLog) (calls : List (ReplicaCall Peer)) :
    Peer → OpLog :=
  calls.foldl (after registry) logs

end ReplicaCall

section Runs

variable {registry : PredicateRegistry}

/-- A merge joins the operations when no id stands for two of them. -/
theorem OpLog.merge_joins {first second : OpLog}
    (bound : IdsBound (first.iterOps ++ second.iterOps)) :
    ∃ merged, OpLog.merge first second = .ok merged ∧
      ∀ op, op ∈ merged.iterOps ↔ op ∈ first.iterOps ∨ op ∈ second.iterOps := by
  rcases OpLog.ofOps_ok bound with ⟨merged, built, members⟩
  refine ⟨merged, ?_, fun op => (members op).trans List.mem_append⟩
  rw [OpLog.ofOps, List.foldlM_append] at built
  exact built

/-- Writing an operation joins it to the log. -/
theorem OpLog.add_joins {log : OpLog} {op : Op} (bound : IdsBound (log.iterOps ++ [op])) :
    ∃ next, (log.add op).map Prod.fst = .ok next ∧
      ∀ other, other ∈ next.iterOps ↔ other ∈ log.iterOps ∨ other = op := by
  rcases OpLog.ofOps_ok bound with ⟨next, built, members⟩
  have split := built
  rw [OpLog.ofOps, List.foldlM_append] at split
  rcases bind_ok_iff.mp split with ⟨same, rebuilt, added⟩
  have isLog : OpLog.ofOps log.iterOps = .ok same := rebuilt
  rw [OpLog.ofOps_iterOps, Except.ok.injEq] at isLog
  subst isLog
  rw [List.foldlM_cons] at added
  rcases bind_ok_iff.mp added with ⟨last, isLast, rest⟩
  rw [List.foldlM_nil, pure_ok_iff] at rest
  subst rest
  refine ⟨last, isLast, fun other => (members other).trans ?_⟩
  rw [List.mem_append, List.mem_singleton]

/-- The logs of a run and those of the same run with compactions, which have no other operations
than the listed ones. -/
structure Accompanies {Peer : Type} (registry : PredicateRegistry) (ops : List Op)
    (longs shorts : Peer → OpLog) : Prop where
  spares : ∀ peer, (longs peer).Spares registry (shorts peer)
  listed : ∀ peer, ∀ op ∈ (longs peer).iterOps, op ∈ ops

namespace Accompanies

variable {Peer : Type} [DecidableEq Peer] {ops : List Op} {longs shorts : Peer → OpLog}

theorem update (accompanies : Accompanies registry ops longs shorts) {peer : Peer}
    {long short : OpLog} (spares : long.Spares registry short)
    (listed : ∀ op ∈ long.iterOps, op ∈ ops) :
    Accompanies registry ops (Function.update longs peer long)
      (Function.update shorts peer short) := by
  constructor
  · intro other
    by_cases here : other = peer
    · subst here
      rw [Function.update_self, Function.update_self]
      exact spares
    · rw [Function.update_of_ne here, Function.update_of_ne here]
      exact accompanies.spares other
  · intro other
    by_cases here : other = peer
    · subst here
      rw [Function.update_self]
      exact listed
    · rw [Function.update_of_ne here]
      exact accompanies.listed other

theorem idsBound {some other : List Op} (bound : IdsBound ops) (someIn : ∀ op ∈ some, op ∈ ops)
    (otherIn : ∀ op ∈ other, op ∈ ops) : IdsBound (some ++ other) := by
  have all : ∀ op ∈ some ++ other, op ∈ ops := by
    intro op listed
    rcases List.mem_append.mp listed with left | right
    · exact someIn op left
    · exact otherIn op right
  exact fun first firstIn second secondIn =>
    bound first (all first firstIn) second (all second secondIn)

theorem write (accompanies : Accompanies registry ops longs shorts) (bound : IdsBound ops)
    (peer : Peer) {op : Op} (isOne : op ∈ ops) :
    Accompanies registry ops (ReplicaCall.after registry longs (.write peer op))
      (ReplicaCall.after registry shorts (.write peer op)) := by
  have single : ∀ other ∈ [op], other ∈ ops := by
    intro other same
    rw [List.mem_singleton.mp same]
    exact isOne
  have shortListed : ∀ other ∈ (shorts peer).iterOps, other ∈ ops := fun other present =>
    accompanies.listed peer other ((accompanies.spares peer).among other present)
  rcases OpLog.add_joins (idsBound bound (accompanies.listed peer) single) with
    ⟨long, isLong, longMembers⟩
  rcases OpLog.add_joins (idsBound bound shortListed single) with ⟨short, isShort, shortMembers⟩
  have alone : ∀ other, other ∈ (OpLog.empty.insert op).iterOps ↔ other = op := by
    intro other
    have fresh : OpLog.empty.ops[op.opId]? = none := by simp [OpLog.empty]
    rw [OpLog.mem_insert fresh, OpLog.mem_iterOps]
    simp [OpLog.empty]
  rw [ReplicaCall.after, ReplicaCall.after, isLong, isShort]
  refine accompanies.update ((accompanies.spares peer).join (.refl registry _)
    (fun other => (longMembers other).trans (or_congr Iff.rfl (alone other).symm))
    (fun other => (shortMembers other).trans (or_congr Iff.rfl (alone other).symm))) ?_
  intro other present
  rcases (longMembers other).mp present with earlier | same
  · exact accompanies.listed peer other earlier
  · rw [same]
    exact isOne

theorem mergeFrom (accompanies : Accompanies registry ops longs shorts) (bound : IdsBound ops)
    (receiver sender : Peer) :
    Accompanies registry ops (ReplicaCall.after registry longs (.mergeFrom receiver sender))
      (ReplicaCall.after registry shorts (.mergeFrom receiver sender)) := by
  have shortListed : ∀ peer, ∀ other ∈ (shorts peer).iterOps, other ∈ ops :=
    fun peer other present =>
      accompanies.listed peer other ((accompanies.spares peer).among other present)
  rcases OpLog.merge_joins (idsBound bound (accompanies.listed receiver)
    (accompanies.listed sender)) with ⟨long, isLong, longMembers⟩
  rcases OpLog.merge_joins (idsBound bound (shortListed receiver) (shortListed sender)) with
    ⟨short, isShort, shortMembers⟩
  rw [ReplicaCall.after, ReplicaCall.after, isLong, isShort]
  refine accompanies.update ((accompanies.spares receiver).join (accompanies.spares sender)
    longMembers shortMembers) ?_
  intro other present
  rcases (longMembers other).mp present with own | their
  · exact accompanies.listed receiver other own
  · exact accompanies.listed sender other their

theorem compact (accompanies : Accompanies registry ops longs shorts) (peer : Peer)
    (constraints : Option ViewConstraints) (resolver : Option Resolver)
    (detectors : List ConflictDetector) :
    Accompanies registry ops longs
      (ReplicaCall.after registry shorts (.compact peer constraints resolver detectors)) := by
  have spares : (longs peer).Spares registry
      (((compactWithReport (shorts peer) registry constraints resolver detectors).map
        (·.compacted)).toOption.getD (shorts peer)) := by
    cases run : compactWithReport (shorts peer) registry constraints resolver detectors with
    | error failure => exact accompanies.spares peer
    | ok report =>
        rcases compactWithReport_compacts run with ⟨state, materialized, compacts⟩
        exact (accompanies.spares peer).compact materialized compacts
  have updated : Accompanies registry ops (Function.update longs peer (longs peer))
      (ReplicaCall.after registry shorts (.compact peer constraints resolver detectors)) :=
    accompanies.update spares (accompanies.listed peer)
  rw [Function.update_eq_self] at updated
  exact updated

/-- A run keeps up with the same run without compactions. -/
theorem run (accompanies : Accompanies registry ops longs shorts) (bound : IdsBound ops)
    (calls : List (ReplicaCall Peer))
    (among : ∀ op ∈ calls.filterMap ReplicaCall.written, op ∈ ops) :
    Accompanies registry ops
      (ReplicaCall.run registry longs (calls.filter fun call => !call.isCompaction))
      (ReplicaCall.run registry shorts calls) := by
  induction calls generalizing longs shorts with
  | nil => exact accompanies
  | cons call rest inductionHypothesis =>
      have later : ∀ op ∈ rest.filterMap ReplicaCall.written, op ∈ ops := by
        intro op listed
        rcases List.mem_filterMap.mp listed with ⟨other, isOther, writes⟩
        exact among op (List.mem_filterMap.mpr ⟨other, List.mem_cons_of_mem _ isOther, writes⟩)
      cases call with
      | write peer op =>
          have isOne : op ∈ ops := among op (List.mem_filterMap.mpr ⟨_, List.mem_cons_self, rfl⟩)
          exact inductionHypothesis (accompanies.write bound peer isOne) later
      | mergeFrom receiver sender =>
          exact inductionHypothesis (accompanies.mergeFrom bound receiver sender) later
      | compact peer constraints resolver detectors =>
          exact inductionHypothesis (accompanies.compact peer constraints resolver detectors) later

/-- The runs from empty logs. -/
theorem ofCalls (registry : PredicateRegistry) (calls : List (ReplicaCall Peer))
    (bound : IdsBound (calls.filterMap ReplicaCall.written)) :
    Accompanies registry (calls.filterMap ReplicaCall.written)
      (ReplicaCall.run registry (fun _ => .empty) (calls.filter fun call => !call.isCompaction))
      (ReplicaCall.run registry (fun _ => .empty) calls) := by
  have start : Accompanies registry (calls.filterMap ReplicaCall.written)
      (fun _ : Peer => OpLog.empty) (fun _ => .empty) := by
    refine ⟨fun _ => .refl registry _, ?_⟩
    intro _ op listed
    rw [OpLog.mem_iterOps] at listed
    simp [OpLog.empty] at listed
  exact start.run bound calls fun _ listed => listed

end Accompanies

/-- Compactions decide nothing.  In a run of writes, merges and compactions of any replicas from
empty logs, in which no operation id stands for two operations, every replica decides about
claims and conflicts as it does in the same run without the compactions, if there the records of
one claim id are retracted together. -/
theorem compactions_decide_nothing {Peer : Type} [DecidableEq Peer] (registry : PredicateRegistry)
    (calls : List (ReplicaCall Peer)) (bound : IdsBound (calls.filterMap ReplicaCall.written))
    (peer : Peer)
    (uniform : (Contents.of (· ∈ (ReplicaCall.run registry (fun _ => .empty)
      (calls.filter fun call => !call.isCompaction) peer).iterOps)).Uniform registry)
    {detectors : List ConflictDetector} (reads : ∀ detector ∈ detectors, ReadsClaims detector)
    {validAt : Option String} {context : JSONObject} {state : MemoryState}
    (run : materialize (ReplicaCall.run registry (fun _ => .empty)
      (calls.filter fun call => !call.isCompaction) peer) registry detectors validAt context =
        .ok state) :
    ∃ other, materialize (ReplicaCall.run registry (fun _ => .empty) calls peer) registry
      detectors validAt context = .ok other ∧ state.DecidesAlike other := by
  exact ((Accompanies.ofCalls registry calls bound).spares peer).materialize uniform reads run

end Runs

end Theory

section Example

attribute [local instance] Reference.runtime

private def returningHeader (opId : String) : OpHeader := ⟨opId, "r", Reference.timestamp⟩

private def firstFact : Claim := Reference.fact "a" Reference.key (.str "x") []

private def secondFact : Claim := Reference.fact "b" Reference.key (.str "y") []

/-- One replica retracts a claim that the other one has merged, compacts its log, and merges the
log of the other one. -/
private def returningCalls : List (ReplicaCall Bool) :=
  [.write true (.claimAdded (returningHeader "op-a") firstFact),
    .write true (.claimAdded (returningHeader "op-b") secondFact),
    .mergeFrom false true,
    .write true (.claimRetracted (Reference.retractionById "op-c" "b")),
    .compact true none none [],
    .mergeFrom true false]

private theorem returning_bound : IdsBound (returningCalls.filterMap ReplicaCall.written) := by
  have distinct : ((returningCalls.filterMap ReplicaCall.written).map Op.opId).Nodup := by decide
  exact fun first firstIn second secondIn same =>
    List.inj_on_of_nodup_map distinct firstIn secondIn same

private theorem returning_uniform :
    (Contents.of (· ∈ (ReplicaCall.run .empty (fun _ => .empty)
      (returningCalls.filter fun call => !call.isCompaction) true).iterOps)).Uniform .empty := by
  have known : ∀ claim, (Contents.of (· ∈ (ReplicaCall.run .empty (fun _ => .empty)
      (returningCalls.filter fun call => !call.isCompaction) true).iterOps)).claim claim →
        claim = firstFact ∨ claim = secondFact := by
    rintro claim ⟨header, listed⟩
    have written := (Accompanies.ofCalls .empty returningCalls returning_bound).listed true _ listed
    simp only [returningCalls, ReplicaCall.written, List.filterMap_cons, List.filterMap_nil,
      List.mem_cons, Op.claimAdded.injEq, reduceCtorEq, List.not_mem_nil, or_false] at written
    rcases written with ⟨_, isFirst⟩ | ⟨_, isSecond⟩
    · exact Or.inl isFirst
    · exact Or.inr isSecond
  have different : firstFact.claimId ≠ secondFact.claimId := by decide
  intro first second isFirst isSecond sameId
  have same : first = second := by
    rcases known first isFirst with one | one
    · rcases known second isSecond with other | other
      · rw [one, other]
      · rw [one, other] at sameId
        exact absurd sameId different
    · rcases known second isSecond with other | other
      · rw [one, other] at sameId
        exact absurd sameId different.symm
      · rw [one, other]
  rw [same]

theorem compactions_decide_nothing_returning :
    ∃ state other, materialize (ReplicaCall.run .empty (fun _ => .empty)
        (returningCalls.filter fun call => !call.isCompaction) true) .empty [] none ∅ = .ok state ∧
      (Dict.values state.activeClaimsByKey).flatten.map Claim.claimId = ["a"] ∧
      materialize (ReplicaCall.run .empty (fun _ => .empty) returningCalls true) .empty [] none ∅ =
        .ok other ∧ state.DecidesAlike other := by
  have computed : (materialize (ReplicaCall.run .empty (fun _ => .empty)
      (returningCalls.filter fun call => !call.isCompaction) true) .empty [] none ∅).toOption.map
        (fun state => (Dict.values state.activeClaimsByKey).flatten.map Claim.claimId) =
      some ["a"] := by decide +kernel
  cases run : materialize (ReplicaCall.run .empty (fun _ => .empty)
      (returningCalls.filter fun call => !call.isCompaction) true) .empty [] none ∅ with
  | error failure =>
      rw [run] at computed
      cases computed
  | ok state =>
      rw [run] at computed
      rcases compactions_decide_nothing .empty returningCalls returning_bound true
        returning_uniform (by simp) run with ⟨other, alsoRun, alike⟩
      exact ⟨state, other, rfl, Option.some.inj computed, alsoRun, alike⟩

end Example

end Statefuse
