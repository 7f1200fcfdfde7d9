import Statefuse.Compaction.Equivalence
import Statefuse.Reference
import Statefuse.View.Heuristic

/-!
# What a compaction reports

A compaction raises only what materializing and viewing the log raise.  When it returns, it
reports that it changed nothing, and compacting once more leaves the log as it is
(`compactWithReport_agrees`).  A resolver may read everything that is kept; the scoring resolvers
do not read more (`heuristicResolver_readsKept`, `conservativeResolver_readsKept`).
-/

namespace Statefuse

open Foundation

section Theory

variable [Runtime]

/-- The retraction names a target.  An operation may hold an empty name instead. -/
def ClaimRetracted.NamesTarget (retraction : ClaimRetracted) : Prop :=
  (∃ target, truthy retraction.targetClaimId = some target) ∨
    ∃ target, truthy retraction.targetClaimRef = some target

instance (retraction : ClaimRetracted) : Decidable retraction.NamesTarget :=
  decidable_of_iff ((truthy retraction.targetClaimId).isSome ∨
      (truthy retraction.targetClaimRef).isSome)
    (or_congr Option.isSome_iff_exists Option.isSome_iff_exists)

/-- Every retraction names a target. -/
def OpLog.NamesTargets (log : OpLog) : Prop :=
  ∀ retraction, .claimRetracted retraction ∈ log.iterOps → retraction.NamesTarget

/-- Of the retractions that one state lists under their superseders, the other one lists those
that name a target. -/
structure MemoryState.DropsUntargeted (wide narrow : MemoryState) : Prop where
  byId : ∀ claimId : String, narrow.retractionsBySuperseder[claimId]?.getD [] =
    (wide.retractionsBySuperseder[claimId]?.getD []).filter (·.NamesTarget)
  byRef : ∀ claimRef : String, narrow.retractionsBySupersederRef[claimRef]?.getD [] =
    (wide.retractionsBySupersederRef[claimRef]?.getD []).filter (·.NamesTarget)

/-- A resolver reads no claims beyond the active ones, and no evidence beyond that of the
candidates. -/
def ReadsKept (resolver : Resolver) : Prop :=
  ∀ (conflict : ConflictSet) (constraints : ViewConstraints) (wide narrow : MemoryState),
    narrow.withoutPruned = wide.withoutPruned →
    narrow.retractionsBySuperseder = wide.retractionsBySuperseder →
    narrow.retractionsBySupersederRef = wide.retractionsBySupersederRef →
    (∀ claim ∈ conflict.candidates, ∀ evidenceId ∈ claim.evidenceIds,
      narrow.evidenceById[evidenceId]? = wide.evidenceById[evidenceId]?) →
    resolver conflict constraints narrow = resolver conflict constraints wide

section Scoring

variable {conflict : ConflictSet} {constraints : ViewConstraints} {wide narrow : MemoryState}

/-- A score reads the evidence of the claim and the retractions in which it supersedes. -/
theorem scoreClaim_kept (same : narrow.withoutPruned = wide.withoutPruned)
    (superseders : narrow.retractionsBySuperseder = wide.retractionsBySuperseder) {claim : Claim}
    (evidence : ∀ evidenceId ∈ claim.evidenceIds,
      narrow.evidenceById[evidenceId]? = wide.evidenceById[evidenceId]?) :
    scoreClaim claim constraints narrow = scoreClaim claim constraints wide := by
  have kept : narrow.withoutPruned.sourcesById = wide.withoutPruned.sourcesById := by rw [same]
  have sources : narrow.sourcesById = wide.sourcesById := kept
  have extends_eq : EvidenceRankings.extend narrow = EvidenceRankings.extend wide := by
    funext best item
    rw [EvidenceRankings.extend, EvidenceRankings.extend, sources]
  have rankings : evidenceRankings claim narrow = evidenceRankings claim wide := by
    rw [evidenceRankings, evidenceRankings, extends_eq, List.filterMap_congr evidence]
  have latest : latestSupersedeEpoch claim.claimId narrow =
      latestSupersedeEpoch claim.claimId wide := by
    rw [latestSupersedeEpoch, latestSupersedeEpoch, superseders]
  rw [scoreClaim, scoreClaim, latest, rankings]

/-- The candidates have the same scores. -/
theorem scored_kept (same : narrow.withoutPruned = wide.withoutPruned)
    (superseders : narrow.retractionsBySuperseder = wide.retractionsBySuperseder)
    (evidence : ∀ claim ∈ conflict.candidates, ∀ evidenceId ∈ claim.evidenceIds,
      narrow.evidenceById[evidenceId]? = wide.evidenceById[evidenceId]?) :
    (conflict.candidates.mapM fun claim => (do
        let score ← scoreClaim claim constraints narrow
        return (claim, score) : Result (Claim × Score))) =
      conflict.candidates.mapM fun claim => do
        let score ← scoreClaim claim constraints wide
        return (claim, score) := by
  apply mapM_congr
  intro claim listed
  rw [scoreClaim_kept same superseders (evidence claim listed)]

end Scoring

theorem heuristicResolver_readsKept : ReadsKept heuristicResolver := by
  intro conflict constraints wide narrow same superseders _ evidence
  rw [heuristicResolver, heuristicResolver, heuristicResolve, heuristicResolve,
    scored_kept same superseders evidence]

theorem conservativeResolver_readsKept (margins : CloseMargins) :
    ReadsKept (conservativeResolver margins) := by
  intro conflict constraints wide narrow same superseders _ evidence
  rw [conservativeResolver, conservativeResolver, conservativeResolve, conservativeResolve,
    scored_kept same superseders evidence]

/-- Two resolvers that answer the conflicts of a state alike show the same view of it. -/
theorem buildView_congr {state : MemoryState} {constraints : ViewConstraints}
    {first second : Resolver}
    (alike : ∀ key : ClaimKey, ∀ conflict ∈ state.conflictsByKey[key]?.getD [],
      first conflict constraints state = second conflict constraints state) :
    buildView state constraints (some first) = buildView state constraints (some second) := by
  have keys : viewKey state constraints (some first) = viewKey state constraints (some second) := by
    funext draft entry
    unfold viewKey
    cases selected : selectableConflicts state entry.1 with
    | nil => rfl
    | cons conflict others =>
        have listed : conflict ∈ selectableConflicts state entry.1 := by
          rw [selected]
          exact List.mem_cons_self
        have answers := alike entry.1 conflict (List.mem_of_mem_filter listed)
        simp only [viewConflicted, viewSuggested, answers]
  rw [buildView, buildView, keys]

/-- The answers that a resolver gives about one state. -/
def Resolver.about (resolver : Resolver) (state : MemoryState) : Resolver :=
  fun conflict constraints _ => resolver conflict constraints state

/-- A view reads only what is kept, apart from what its resolver reads. -/
theorem buildView_withoutPruned (state : MemoryState) (constraints : ViewConstraints)
    (resolver : Option Resolver) :
    buildView state constraints resolver =
      buildView state.withoutPruned constraints (resolver.map (Resolver.about · state)) := by
  cases resolver with
  | none => rfl
  | some resolver => rfl

/-- States that agree on what is kept have the same view. -/
theorem buildView_kept {wide narrow : MemoryState} {constraints : ViewConstraints}
    {resolver : Option Resolver} (same : narrow.withoutPruned = wide.withoutPruned)
    (alike : ∀ answer ∈ resolver, ∀ key : ClaimKey, ∀ conflict ∈ wide.conflictsByKey[key]?.getD [],
      answer conflict constraints narrow = answer conflict constraints wide) :
    buildView narrow constraints resolver = buildView wide constraints resolver := by
  rw [buildView_withoutPruned narrow, buildView_withoutPruned wide, same]
  cases resolver with
  | none => rfl
  | some answer =>
      apply buildView_congr
      intro key conflict listed
      exact alike answer rfl key conflict listed

/-! ## The two logs -/

section Logs

variable {log compacted : OpLog} {registry : PredicateRegistry}
  {detectors : List ConflictDetector} {state wide narrow : MemoryState} {validAt : Option String}
  {context : JSONObject}

/-- The retractions of a compacted log are those that name a target. -/
theorem retraction_compacted (run : materialize log registry detectors none ∅ = .ok state)
    (compacts : IsCompactionOf detectors state log compacted) (retraction : ClaimRetracted) :
    .claimRetracted retraction ∈ compacted.iterOps ↔
      .claimRetracted retraction ∈ log.iterOps ∧ retraction.NamesTarget := by
  obtain ⟨_, collected, collects, _, _, _, _, _, _, _, _, _, _, same⟩ :=
    materialize_ok_iff.mp run
  have kept : ∀ other, other ∈ CompactionNeeds.retractionsOf state ↔
      .claimRetracted other ∈ log.iterOps ∧ other.NamesTarget :=
    mem_retractionsOf (collect_gathers collects) (by rw [← same]; rfl) (by rw [← same]; rfl)
  rw [compacts, List.mem_filter]
  refine and_congr_right fun listed => ?_
  rw [CompactionNeeds.keeps, decide_eq_true_iff, CompactionNeeds.ofState, PySet.mem_ofList]
  constructor
  · intro named
    obtain ⟨other, isKept, sameId⟩ := List.mem_map.mp named
    obtain ⟨present, target⟩ := (kept other).mp isKept
    rw [← log.retraction_distinct other retraction present listed sameId]
    exact target
  · exact fun target => List.mem_map_of_mem ((kept retraction).mpr ⟨listed, target⟩)

/-- The retractions of a log are listed under their superseders. -/
theorem superseders_listed (run : materialize log registry detectors validAt context = .ok wide) :
    SortedGroups ClaimRetracted.order wide.retractionsBySuperseder
        ((Contents.of (· ∈ log.iterOps)).retractedUnder (·.supersedesClaimId)) ∧
      SortedGroups ClaimRetracted.order wide.retractionsBySupersederRef
        ((Contents.of (· ∈ log.iterOps)).retractedUnder (·.supersedesClaimRef)) := by
  obtain ⟨_, _, collects, _, _, _, _, _, _, _, _, _, _, same⟩ := materialize_ok_iff.mp run
  have gathers := collect_gathers collects
  rw [← same]
  exact ⟨gathers.retractionsBySuperseder.sortGroups,
    gathers.retractionsBySupersederRef.sortGroups⟩

/-- Of the retractions under a superseder, those that name a target are kept. -/
theorem superseders_compacted (run : materialize log registry detectors none ∅ = .ok state)
    (compacts : IsCompactionOf detectors state log compacted)
    (wideRun : materialize log registry detectors validAt context = .ok wide)
    (narrowRun : materialize compacted registry detectors validAt context = .ok narrow) :
    wide.DropsUntargeted narrow ∧ (log.NamesTargets →
      narrow.retractionsBySuperseder = wide.retractionsBySuperseder ∧
        narrow.retractionsBySupersederRef = wide.retractionsBySupersederRef) := by
  obtain ⟨wideIds, wideRefs⟩ := superseders_listed wideRun
  obtain ⟨narrowIds, narrowRefs⟩ := superseders_listed narrowRun
  have retractions := retraction_compacted run compacts
  have filtered : ∀ {field : ClaimRetracted → Option String}
      {wideTable narrowTable : Dict String (List ClaimRetracted)},
      SortedGroups ClaimRetracted.order wideTable
        ((Contents.of (· ∈ log.iterOps)).retractedUnder field) →
      SortedGroups ClaimRetracted.order narrowTable
        ((Contents.of (· ∈ compacted.iterOps)).retractedUnder field) → ∀ superseder : String,
      narrowTable[superseder]?.getD [] =
        (wideTable[superseder]?.getD []).filter (·.NamesTarget) := by
    intro field wideTable narrowTable wideListed narrowListed superseder
    apply eq_of_strictly_sorted (narrowListed.getD_sorted superseder)
      ((wideListed.getD_sorted superseder).filter _)
    intro retraction
    rw [List.mem_filter, decide_eq_true_iff, narrowListed.mem_getD, wideListed.mem_getD]
    change (_ ∈ compacted.iterOps ∧ _) ↔ (_ ∈ log.iterOps ∧ _) ∧ _
    rw [retractions, and_right_comm]
  refine ⟨⟨filtered wideIds narrowIds, filtered wideRefs narrowRefs⟩, ?_⟩
  intro named
  have all : ∀ retraction : ClaimRetracted,
      .claimRetracted retraction ∈ compacted.iterOps ↔ .claimRetracted retraction ∈ log.iterOps :=
    fun retraction => (retractions retraction).trans (and_iff_left_of_imp (named retraction))
  exact ⟨(narrowIds.congr fun _ retraction => and_congr_left fun _ => all retraction).unique
      wideIds,
    (narrowRefs.congr fun _ retraction => and_congr_left fun _ => all retraction).unique
      wideRefs⟩

/-- The evidence of an active claim is kept. -/
theorem active_evidence {claim : Claim}
    (active : claim ∈ (Dict.values state.activeClaimsByKey).flatten) {evidenceId : String}
    (named : evidenceId ∈ claim.evidenceIds) :
    evidenceId ∈ (CompactionNeeds.ofState state).evidenceIds := by
  rw [CompactionNeeds.ofState, PySet.mem_ofList, CompactionNeeds.evidenceIdsOf]
  refine List.mem_append_left _ (List.mem_append_left _ (List.mem_flatMap.mpr ?_))
  exact ⟨claim, active, named⟩

/-- The evidence of the candidates of a conflict is kept. -/
theorem candidate_evidence (run : materialize log registry detectors none ∅ = .ok state)
    (wideRun : materialize log registry detectors validAt context = .ok wide)
    {conflict : ConflictSet} (current : conflict ∈ wide.conflicts) {claim : Claim}
    (candidate : claim ∈ conflict.candidates) {evidenceId : String}
    (named : evidenceId ∈ claim.evidenceIds) :
    (CompactionNeeds.ofState state).IsEvidence detectors evidenceId := by
  rcases candidates_active wideRun current candidate with ⟨known, listed, _, equal⟩
  rw [(materialize_active wideRun).1.mem_getD] at listed
  obtain ⟨_, collected, collects, _, _, _, _, _, _, _, _, _, _, wideSame⟩ :=
    materialize_ok_iff.mp wideRun
  rcases listed with ⟨⟨found, isActive, _⟩, _⟩
  rw [← wideSame] at found isActive
  have active := (mem_activeClaims run collects known).mpr
    ⟨(Dict.mem_values _ _).mpr ⟨_, found⟩, isActive⟩
  have sameEvidence : known.evidenceIds = claim.evidenceIds :=
    congrArg (fun fields => fields.2.1.2.2.1) (pyEq_iff.mp equal)
  exact Or.inr (active_evidence active (sameEvidence ▸ named))

/-- A resolver that answers the conflicts alike shows the same view of the states of both logs. -/
theorem views_compacted (run : materialize log registry detectors none ∅ = .ok state)
    (wideRun : materialize log registry detectors validAt context = .ok wide)
    (prunes : wide.Prunes (· ∈ (CompactionNeeds.ofState state).activeClaimIds)
      ((CompactionNeeds.ofState state).IsEvidence detectors) narrow)
    {constraints : ViewConstraints} {resolver : Option Resolver}
    (alike : ∀ answer ∈ resolver, ∀ conflict : ConflictSet,
      (∀ claim ∈ conflict.candidates, ∀ evidenceId ∈ claim.evidenceIds,
        narrow.evidenceById[evidenceId]? = wide.evidenceById[evidenceId]?) →
      answer conflict constraints narrow = answer conflict constraints wide) :
    buildView narrow constraints resolver = buildView wide constraints resolver := by
  apply buildView_kept prunes.same
  intro answer isAnswer key conflict listed
  have current : conflict ∈ wide.conflicts := by
    obtain ⟨_, _, _, _, _, _, _, _, _, _, _, _, _, wideSame⟩ := materialize_ok_iff.mp wideRun
    rw [← wideSame] at listed ⊢
    exact (mem_groupConflictsByKey.mp listed).1
  apply alike answer isAnswer conflict
  intro claim candidate evidenceId isNamed
  exact prunes.evidence.get_kept (candidate_evidence run wideRun current candidate isNamed)

/-- The view of a compacted log is that of the log. -/
theorem projectionSignature_compacted
    (run : materialize log registry detectors none ∅ = .ok state)
    (compacts : IsCompactionOf detectors state log compacted) {resolver : Option Resolver}
    (reads : ∀ answer ∈ resolver, ReadsKept answer) (named : resolver ≠ none → log.NamesTargets)
    (constraints : ViewConstraints) :
    projectionSignature compacted registry constraints resolver detectors =
      projectionSignature log registry constraints resolver detectors := by
  have outcomes := materialize_compacted run compacts constraints.validAt constraints.context
  rw [projectionSignature, projectionSignature]
  generalize wideRun : materialize log registry detectors constraints.validAt
    constraints.context = wideOutcome at outcomes ⊢
  generalize narrowRun : materialize compacted registry detectors constraints.validAt
    constraints.context = narrowOutcome at outcomes ⊢
  cases outcomes with
  | raised failure => rfl
  | @returned wide narrow prunes =>
      have views : buildView narrow constraints resolver = buildView wide constraints resolver := by
        apply views_compacted run wideRun prunes
        intro answer isAnswer conflict evidence
        have present : resolver ≠ none := fun none => by
          rw [none] at isAnswer
          cases isAnswer
        rcases (superseders_compacted run compacts wideRun narrowRun).2 (named present) with
          ⟨sameIds, sameRefs⟩
        exact reads answer isAnswer conflict constraints wide narrow prunes.same sameIds sameRefs
          evidence
      rw [bind_of_ok rfl, bind_of_ok rfl, views]

end Logs

/-! ## The report -/

omit [Runtime] in
theorem sameItems_refl {α : Type} [PyEq α] (items : List α) : sameItems items items = true := by
  rw [sameItems, decide_eq_true_eq]
  refine ⟨rfl, ?_⟩
  induction items with
  | nil => rfl
  | cons head tail inductionHypothesis =>
      rw [List.zip_cons_cons, List.all_cons, pyEq_refl, Bool.true_and]
      exact inductionHypothesis

theorem sameActiveClaims_refl (table : Dict ClaimKey (List Claim)) :
    sameActiveClaims table table = true := by
  rw [sameActiveClaims, decide_eq_true_eq]
  exact ⟨rfl, List.all_eq_true.mpr fun key _ => sameItems_refl _⟩

/-- What a compaction computes: once the log can be materialized and viewed, the operations
that are kept and three times no difference. -/
theorem compactWithReport_eq {log : OpLog} {registry : PredicateRegistry}
    {detectors : List ConflictDetector} {state : MemoryState}
    (run : materialize log registry detectors none ∅ = .ok state) {resolver : Option Resolver}
    (reads : ∀ answer ∈ resolver, ReadsKept answer) (named : resolver ≠ none → log.NamesTargets)
    (constraints : Option ViewConstraints) :
    ∃ compacted, IsCompactionOf detectors state log compacted ∧
      compactWithReport log registry constraints resolver detectors =
        (projectionSignature log registry (constraints.getD (.ofScope (some compactionScope)))
          resolver detectors).map fun _ =>
            ⟨compacted, log.iterOps.length, compacted.iterOps.length, true, true, true⟩ := by
  rcases ofOps_filter log ((CompactionNeeds.ofState state).keeps detectors) with
    ⟨compacted, built, compacts⟩
  refine ⟨compacted, compacts, ?_⟩
  have outcome := materialize_compacted run compacts none ∅
  have signatures := projectionSignature_compacted run compacts reads named
    (constraints.getD (.ofScope (some compactionScope)))
  rw [run] at outcome
  generalize narrowRun : materialize compacted registry detectors none ∅ = narrowOutcome at outcome
  cases outcome with
  | @returned _ narrow prunes =>
      have active : narrow.withoutPruned.activeClaimsByKey =
          state.withoutPruned.activeClaimsByKey := by rw [prunes.same]
      have conflicts : narrow.withoutPruned.conflicts = state.withoutPruned.conflicts := by
        rw [prunes.same]
      change narrow.activeClaimsByKey = state.activeClaimsByKey at active
      change narrow.conflicts = state.conflicts at conflicts
      unfold compactWithReport
      simp only [bind_of_ok run, bind_of_ok built, bind_of_ok narrowRun, signatures, active,
        conflicts, sameItems_refl, sameActiveClaims_refl]
      cases projectionSignature log registry (constraints.getD (.ofScope (some compactionScope)))
          resolver detectors with
      | error failure => rfl
      | ok signature =>
          simp only [bind_of_ok rfl, decide_true]
          rfl

/-- A compacted log needs the same as the log it was made of. -/
theorem ofState_pruned {wide narrow : MemoryState}
    (same : narrow.withoutPruned = wide.withoutPruned) :
    CompactionNeeds.ofState narrow = CompactionNeeds.ofState wide := by
  have kept : CompactionNeeds.ofState narrow.withoutPruned =
      CompactionNeeds.ofState wide.withoutPruned := by rw [same]
  exact kept

/-- What a compaction keeps is kept by another compaction. -/
theorem compacts_self {log compacted : OpLog} {registry : PredicateRegistry}
    {detectors : List ConflictDetector} {state : MemoryState}
    (run : materialize log registry detectors none ∅ = .ok state)
    (compacts : IsCompactionOf detectors state log compacted) :
    ∃ narrow, materialize compacted registry detectors none ∅ = .ok narrow ∧
      ∀ again, IsCompactionOf detectors narrow compacted again → again = compacted := by
  have outcome := materialize_compacted run compacts none ∅
  rw [run] at outcome
  generalize narrowRun : materialize compacted registry detectors none ∅ = narrowOutcome at outcome
  cases outcome with
  | @returned _ narrow prunes =>
      refine ⟨narrow, rfl, ?_⟩
      intro again recompacts
      apply OpLog.eq_of_mem_iff
      intro op
      rw [recompacts, ofState_pruned prunes.same, compacts, List.filter_filter]
      simp only [Bool.and_self]

theorem compactWithReport_compacts {log : OpLog} {registry : PredicateRegistry}
    {constraints : Option ViewConstraints} {resolver : Option Resolver}
    {detectors : List ConflictDetector} {report : CompactionReport}
    (run : compactWithReport log registry constraints resolver detectors = .ok report) :
    ∃ state, materialize log registry detectors none ∅ = .ok state ∧
      IsCompactionOf detectors state log report.compacted := by
  unfold compactWithReport at run
  rcases bind_ok_iff.mp run with ⟨state, materialized, run⟩
  rcases bind_ok_iff.mp run with ⟨compacted, built, run⟩
  rcases bind_ok_iff.mp run with ⟨_, _, run⟩
  rcases bind_ok_iff.mp run with ⟨_, _, run⟩
  rcases bind_ok_iff.mp run with ⟨_, _, run⟩
  rcases bind_ok_iff.mp run with ⟨_, _, run⟩
  rw [pure_ok_iff] at run
  rcases ofOps_filter log ((CompactionNeeds.ofState state).keeps detectors) with
    ⟨again, rebuilt, compacts⟩
  rw [built, Except.ok.injEq] at rebuilt
  refine ⟨state, materialized, ?_⟩
  rw [← run, rebuilt]
  exact compacts

/-- A compacted log materializes as the log it was made of, at every instant and in every context:
both raise the same, or the states differ only in the claims and the evidence that were left
out and in the retractions without a target that supersede something. -/
theorem compactWithReport_materializes {log : OpLog} {registry : PredicateRegistry}
    {constraints : Option ViewConstraints} {resolver : Option Resolver}
    {detectors : List ConflictDetector} {report : CompactionReport}
    (run : compactWithReport log registry constraints resolver detectors = .ok report) :
    ∃ state, materialize log registry detectors none ∅ = .ok state ∧
      ∀ validAt context, SameOutcomeUpTo
        (fun wide narrow => wide.Prunes (· ∈ (CompactionNeeds.ofState state).activeClaimIds)
            ((CompactionNeeds.ofState state).IsEvidence detectors) narrow ∧
          wide.DropsUntargeted narrow ∧ (log.NamesTargets →
            narrow.retractionsBySuperseder = wide.retractionsBySuperseder ∧
              narrow.retractionsBySupersederRef = wide.retractionsBySupersederRef))
        (materialize log registry detectors validAt context)
        (materialize report.compacted registry detectors validAt context) := by
  rcases compactWithReport_compacts run with ⟨state, materialized, compacts⟩
  refine ⟨state, materialized, fun validAt context => ?_⟩
  refine (materialize_compacted materialized compacts validAt context).imp ?_
  intro wide narrow wideRun narrowRun prunes
  exact ⟨prunes, superseders_compacted materialized compacts wideRun narrowRun⟩

section Outcome

variable {log : OpLog} {registry : PredicateRegistry} {resolver : Option Resolver}
  {detectors : List ConflictDetector} (reads : ∀ answer ∈ resolver, ReadsKept answer)
  (named : resolver ≠ none → log.NamesTargets)

include reads named

/-- A compaction returns when the log can be materialized and viewed. -/
theorem compactWithReport_returns (constraints : Option ViewConstraints) :
    (∃ report, compactWithReport log registry constraints resolver detectors = .ok report) ↔
      (∃ state, materialize log registry detectors none ∅ = .ok state) ∧
        ∃ signature, projectionSignature log registry
          (constraints.getD (.ofScope (some compactionScope))) resolver detectors =
            .ok signature := by
  constructor
  · rintro ⟨report, run⟩
    rcases compactWithReport_compacts run with ⟨state, materialized, _⟩
    rcases compactWithReport_eq materialized reads named constraints with ⟨compacted, _, equal⟩
    rw [run] at equal
    rcases map_ok_iff.mp equal.symm with ⟨signature, signed, _⟩
    exact ⟨⟨state, materialized⟩, signature, signed⟩
  · rintro ⟨⟨state, materialized⟩, signature, signed⟩
    rcases compactWithReport_eq materialized reads named constraints with ⟨compacted, _, equal⟩
    rw [signed] at equal
    exact ⟨_, equal⟩

/-- It reports no difference. -/
theorem compactWithReport_equivalent {constraints : Option ViewConstraints}
    {report : CompactionReport}
    (run : compactWithReport log registry constraints resolver detectors = .ok report) :
    report.activeClaimsEquivalent = true ∧ report.conflictsEquivalent = true ∧
      report.projectionsEquivalent = true := by
  rcases compactWithReport_compacts run with ⟨state, materialized, _⟩
  rcases compactWithReport_eq materialized reads named constraints with ⟨compacted, _, equal⟩
  rw [run] at equal
  rcases map_ok_iff.mp equal.symm with ⟨signature, _, isReport⟩
  rw [← isReport]
  exact ⟨rfl, rfl, rfl⟩

/-- The compacted log is its own compaction. -/
theorem compactWithReport_again {constraints : Option ViewConstraints}
    {report : CompactionReport}
    (run : compactWithReport log registry constraints resolver detectors = .ok report) :
    ∃ again, compactWithReport report.compacted registry constraints resolver detectors =
      .ok again ∧ again.compacted = report.compacted ∧ again.droppedOps = 0 := by
  rcases compactWithReport_compacts run with ⟨state, materialized, compacts⟩
  rcases compactWithReport_eq materialized reads named constraints with ⟨_, _, equal⟩
  rw [run] at equal
  rcases map_ok_iff.mp equal.symm with ⟨signature, signed, _⟩
  rcases compacts_self materialized compacts with ⟨narrow, narrowRun, unique⟩
  have narrowNamed : resolver ≠ none → report.compacted.NamesTargets := by
    intro present retraction listed
    rw [compacts] at listed
    exact named present retraction (List.mem_of_mem_filter listed)
  rcases compactWithReport_eq narrowRun reads narrowNamed constraints with
    ⟨again, recompacts, once⟩
  rw [projectionSignature_compacted materialized compacts reads named, signed,
    unique again recompacts] at once
  exact ⟨_, once, rfl, Int.sub_self _⟩

end Outcome

/-- A compaction returns exactly when the log can be materialized and viewed.  It reports no
difference, the compacted log has the same views in every scope, at every instant and in every
context, and it is its own compaction. -/
theorem compactWithReport_agrees (log : OpLog) (registry : PredicateRegistry)
    (constraints : Option ViewConstraints) (resolver : Option Resolver)
    (detectors : List ConflictDetector) (reads : ∀ answer ∈ resolver, ReadsKept answer)
    (named : resolver ≠ none → log.NamesTargets) :
    ((∃ report, compactWithReport log registry constraints resolver detectors = .ok report) ↔
      (∃ state, materialize log registry detectors none ∅ = .ok state) ∧
        ∃ signature, projectionSignature log registry
          (constraints.getD (.ofScope (some compactionScope))) resolver detectors =
            .ok signature) ∧
    ∀ report, compactWithReport log registry constraints resolver detectors = .ok report →
      (report.activeClaimsEquivalent = true ∧ report.conflictsEquivalent = true ∧
        report.projectionsEquivalent = true) ∧
      (∀ anyConstraints, projectionSignature report.compacted registry anyConstraints resolver
        detectors = projectionSignature log registry anyConstraints resolver detectors) ∧
      ∃ again, compactWithReport report.compacted registry constraints resolver detectors =
        .ok again ∧ again.compacted = report.compacted ∧ again.droppedOps = 0 := by
  refine ⟨compactWithReport_returns reads named constraints, ?_⟩
  intro report run
  rcases compactWithReport_compacts run with ⟨state, materialized, compacts⟩
  exact ⟨compactWithReport_equivalent reads named run,
    projectionSignature_compacted materialized compacts reads named,
    compactWithReport_again reads named run⟩

end Theory

/-! ## A superseded claim -/

section Example

attribute [local instance] Reference.runtime

private def compactionHeader (opId : String) : OpHeader := ⟨opId, "r", Reference.timestamp⟩

private def supersededFields : RetractionFields where
  toOpHeader := compactionHeader "op-e"
  targetClaimId := some "b"
  targetClaimRef := none
  evidenceIds := []
  reason := "superseded"
  supersedesClaimId := some "a"
  supersedesClaimRef := none
  signingKeyId := none
  signature := none

private theorem superseded_checked : supersededFields.check = .ok () := rfl

/-- The claim `a` supersedes the claim `b`, whose evidence nothing else names. -/
private def supersedingLog : OpLog := Reference.logOf
  [.evidenceAdded (compactionHeader "op-a") ⟨"named", none, ∅, none, none⟩,
    .evidenceAdded (compactionHeader "op-b") ⟨"unused", none, ∅, none, none⟩,
    .claimAdded (compactionHeader "op-c") (Reference.fact "a" Reference.key (.str "x") ["named"]),
    .claimAdded (compactionHeader "op-d") (Reference.fact "b" Reference.key (.str "y") ["unused"]),
    .claimRetracted ⟨supersededFields, superseded_checked⟩]

private theorem superseding_compacted : ∃ report,
    compactWithReport supersedingLog .empty none (some (conservativeResolver .default)) [] =
      .ok report ∧ report.compacted.iterOps.map Op.opId = ["op-a", "op-c", "op-e"] ∧
      report.droppedOps = 2 := by
  have computed : (compactWithReport supersedingLog .empty none
      (some (conservativeResolver .default)) []).toOption.map (fun report =>
        (report.compacted.iterOps.map Op.opId, report.droppedOps)) =
      some (["op-a", "op-c", "op-e"], 2) := by decide +kernel
  cases run : compactWithReport supersedingLog .empty none
      (some (conservativeResolver .default)) [] with
  | error failure =>
      rw [run] at computed
      cases computed
  | ok report =>
      rw [run] at computed
      injection computed with computed
      exact ⟨report, rfl, congrArg Prod.fst computed, congrArg Prod.snd computed⟩

private def namesTargetId : Op → Bool
  | .claimRetracted retraction => (truthy retraction.targetClaimId).isSome
  | _ => true

private theorem superseding_named : supersedingLog.NamesTargets := by
  have checked : ∀ op ∈ supersedingLog.iterOps, namesTargetId op = true := by decide +kernel
  intro retraction listed
  exact Or.inl (Option.isSome_iff_exists.mp (checked _ listed))

theorem compactWithReport_materializes_superseded :
    ∃ report state, compactWithReport supersedingLog .empty none
        (some (conservativeResolver .default)) [] = .ok report ∧
      report.compacted.iterOps.map Op.opId = ["op-a", "op-c", "op-e"] ∧
      materialize supersedingLog .empty [] none ∅ = .ok state ∧
      ∀ validAt context, SameOutcomeUpTo
        (fun wide narrow => wide.Prunes (· ∈ (CompactionNeeds.ofState state).activeClaimIds)
            ((CompactionNeeds.ofState state).IsEvidence []) narrow ∧
          narrow.retractionsBySuperseder = wide.retractionsBySuperseder)
        (materialize supersedingLog .empty [] validAt context)
        (materialize report.compacted .empty [] validAt context) := by
  rcases superseding_compacted with ⟨report, run, kept, _⟩
  rcases compactWithReport_materializes run with ⟨state, materialized, outcomes⟩
  refine ⟨report, state, run, kept, materialized, fun validAt context => ?_⟩
  refine (outcomes validAt context).imp ?_
  intro wide narrow _ _ same
  exact ⟨same.1, (same.2.2 superseding_named).1⟩

theorem compactWithReport_agrees_superseded :
    ∃ report, compactWithReport supersedingLog .empty none
        (some (conservativeResolver .default)) [] = .ok report ∧
      report.droppedOps = 2 ∧ report.projectionsEquivalent = true ∧
      ∀ constraints,
        projectionSignature report.compacted .empty constraints
            (some (conservativeResolver .default)) [] =
          projectionSignature supersedingLog .empty constraints
            (some (conservativeResolver .default)) [] := by
  rcases superseding_compacted with ⟨report, run, _, dropped⟩
  have agrees := (compactWithReport_agrees supersedingLog .empty none
    (some (conservativeResolver .default)) []
    (by
      intro answer isAnswer
      injection isAnswer with isAnswer
      rw [← isAnswer]
      exact conservativeResolver_readsKept _)
    (fun _ => superseding_named)).2 report run
  exact ⟨report, run, dropped, agrees.1.2.2, agrees.2.1⟩

end Example

end Statefuse
