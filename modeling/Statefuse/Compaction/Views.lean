import Statefuse.Compaction.Report

/-!
# The views of a compacted log

A compacted log has the views of the log it was made of, at every instant, in every context and
for every constraint (`compactOplog_preserves_views`).  A retraction may hold empty names in the
place of its targets: nothing is retracted and compaction leaves it out, but a claim that it names
as the superseding one has a higher score for it.  So the scoring resolver decides alike where
every retraction with a superseding claim names a target.
-/

namespace Statefuse

open Foundation

section Theory

variable [Runtime]

/-- Every retraction that names a superseding claim names a target. -/
def OpLog.SupersedesTargets (log : OpLog) : Prop :=
  ∀ retraction superseder, .claimRetracted retraction ∈ log.iterOps →
    truthy retraction.supersedesClaimId = some superseder → retraction.NamesTarget

/-- The states agree on what is active, in conflict, and resolved, and in all views without a
resolver. -/
structure MemoryState.LooksAlike (first second : MemoryState) : Prop where
  active : second.activeClaimsByKey = first.activeClaimsByKey
  conflicts : second.conflicts = first.conflicts
  statuses : second.lifecycleStatusByConflictRefAndScope =
    first.lifecycleStatusByConflictRefAndScope
  effective : second.effectiveResolutionsByConflictRefAndScope =
    first.effectiveResolutionsByConflictRefAndScope
  views : ∀ constraints, buildView second constraints none = buildView first constraints none

section Logs

variable {log compacted : OpLog} {registry : PredicateRegistry}
  {detectors : List ConflictDetector} {state wide narrow : MemoryState} {validAt : Option String}
  {context : JSONObject}

/-- Where superseding retractions name targets, all of them are kept. -/
theorem superseders_kept (targets : log.SupersedesTargets)
    (run : materialize log registry detectors none ∅ = .ok state)
    (compacts : IsCompactionOf detectors state log compacted)
    (wideRun : materialize log registry detectors validAt context = .ok wide)
    (narrowRun : materialize compacted registry detectors validAt context = .ok narrow) :
    narrow.retractionsBySuperseder = wide.retractionsBySuperseder := by
  have listed := (superseders_listed narrowRun).1
  refine SortedGroups.unique (listed.congr ?_) (superseders_listed wideRun).1
  intro superseder retraction
  change (_ ∈ compacted.iterOps ∧ _) ↔ (_ ∈ log.iterOps ∧ _)
  rw [retraction_compacted run compacts, and_assoc]
  refine and_congr_right fun present => and_iff_right_of_imp fun supersedes => ?_
  exact targets retraction superseder present supersedes

/-- The states of both logs look alike, also to the scoring resolver. -/
theorem looksAlike_compacted (run : materialize log registry detectors none ∅ = .ok state)
    (compacts : IsCompactionOf detectors state log compacted) (validAt : Option String)
    (context : JSONObject) :
    SameOutcomeUpTo
      (fun wide narrow => wide.LooksAlike narrow ∧ (log.SupersedesTargets → ∀ constraints,
        buildView narrow constraints (some heuristicResolver) =
          buildView wide constraints (some heuristicResolver)))
      (materialize log registry detectors validAt context)
      (materialize compacted registry detectors validAt context) := by
  refine (materialize_compacted run compacts validAt context).imp ?_
  intro wide narrow wideRun narrowRun prunes
  have kept : ∀ {α : Type} (table : MemoryState → α),
      table narrow.withoutPruned = table wide.withoutPruned := by
    intro α table
    rw [prunes.same]
  refine ⟨⟨kept (·.activeClaimsByKey), kept (·.conflicts),
    kept (·.lifecycleStatusByConflictRefAndScope),
    kept (·.effectiveResolutionsByConflictRefAndScope), ?_⟩, ?_⟩
  · intro constraints
    apply views_compacted run wideRun prunes
    intro answer isAnswer
    cases isAnswer
  · intro targets constraints
    apply views_compacted run wideRun prunes
    intro answer isAnswer conflict evidence
    have superseders := superseders_kept targets run compacts wideRun narrowRun
    cases isAnswer
    rw [heuristicResolver, heuristicResolver, heuristicResolve, heuristicResolve,
      scored_kept prunes.same superseders evidence]

end Logs

theorem compactOplog_returns {log : OpLog} {registry : PredicateRegistry} :
    (∃ compacted, compactOplog log registry [] = .ok compacted) ↔
      ∃ report, compactWithReport log registry none none [] = .ok report := by
  constructor
  · rintro ⟨compacted, returned⟩
    obtain ⟨report, run, _⟩ := map_ok_iff.mp returned
    exact ⟨report, run⟩
  · rintro ⟨report, run⟩
    exact ⟨report.compacted, map_ok_iff.mpr ⟨report, run, rfl⟩⟩

theorem projectionSignature_returns {log : OpLog} {registry : PredicateRegistry}
    {scope : Option String} :
    ((∃ state, materialize log registry [] none ∅ = .ok state) ∧
      ∃ signature, projectionSignature log registry (.ofScope scope) none [] = .ok signature) ↔
      ∃ state, materialize log registry [] none ∅ = .ok state ∧
        ∃ projection, buildView state (.ofScope scope) none = .ok projection := by
  constructor
  · rintro ⟨_, signature, signed⟩
    obtain ⟨state, materialized, viewed⟩ := bind_ok_iff.mp signed
    obtain ⟨projection, view, _⟩ := bind_ok_iff.mp viewed
    exact ⟨state, materialized, projection, view⟩
  · rintro ⟨state, materialized, projection, view⟩
    refine ⟨⟨state, materialized⟩, projection.signature, ?_⟩
    exact bind_ok_iff.mpr ⟨state, materialized, bind_ok_iff.mpr ⟨projection, view, rfl⟩⟩

/-- A compaction without detectors returns when the log can be materialized and viewed.  Then both
logs materialize alike at every instant and in every context, with the same views, it reports no
difference, and compacting once more drops nothing. -/
theorem compactOplog_preserves_views (log : OpLog) (registry : PredicateRegistry) :
    ((∃ compacted, compactOplog log registry [] = .ok compacted) ↔
      ∃ state, materialize log registry [] none ∅ = .ok state ∧
        ∃ projection, buildView state (.ofScope (some compactionScope)) none = .ok projection) ∧
    ∀ report, compactWithReport log registry none none [] = .ok report →
      compactOplog log registry [] = .ok report.compacted ∧
      (∀ validAt context, SameOutcomeUpTo
        (fun wide narrow => wide.LooksAlike narrow ∧ (log.SupersedesTargets → ∀ constraints,
          buildView narrow constraints (some heuristicResolver) =
            buildView wide constraints (some heuristicResolver)))
        (materialize log registry [] validAt context)
        (materialize report.compacted registry [] validAt context)) ∧
      (report.activeClaimsEquivalent = true ∧ report.conflictsEquivalent = true ∧
        report.projectionsEquivalent = true) ∧
      ∃ again, compactWithReport report.compacted registry none none [] = .ok again ∧
        again.compacted = report.compacted ∧ again.droppedOps = 0 := by
  have reads : ∀ answer ∈ (none : Option Resolver), ReadsKept answer := by
    intro answer isAnswer
    cases isAnswer
  have named : (none : Option Resolver) ≠ none → log.NamesTargets := fun absent => absurd rfl absent
  constructor
  · rw [compactOplog_returns, compactWithReport_returns reads named]
    exact projectionSignature_returns
  · intro report run
    obtain ⟨state, materialized, compacts⟩ := compactWithReport_compacts run
    refine ⟨?_, looksAlike_compacted materialized compacts,
      compactWithReport_equivalent reads named run, compactWithReport_again reads named run⟩
    rw [compactOplog, run]
    rfl

end Theory

section Example

attribute [local instance] Reference.runtime

/-- A retraction of nothing that names a superseding claim. -/
private def untargetedFields : RetractionFields where
  toOpHeader := ⟨"op-c", "r", Reference.timestamp⟩
  targetClaimId := some ""
  targetClaimRef := none
  evidenceIds := []
  reason := "superseded"
  supersedesClaimId := some "b"
  supersedesClaimRef := none
  signingKeyId := none
  signature := none

private theorem untargeted_checked : untargetedFields.check = .ok () := rfl

/-- Two claims at odds, of which the second one supersedes nothing. -/
def untargetedOps : List Op :=
  [.claimAdded ⟨"op-a", "r", Reference.timestamp⟩ (Reference.fact "a" Reference.key (.str "x") []),
    .claimAdded ⟨"op-b", "r", Reference.timestamp⟩
      (Reference.fact "b" Reference.key (.str "y") []),
    .claimRetracted ⟨untargetedFields, untargeted_checked⟩]

/-- The claim that the scoring resolver suggests. -/
private def suggested (outcome : Result MemoryState) : Option String :=
  outcome.toOption.bind fun state =>
    (buildView state (.ofScope none) (some heuristicResolver)).toOption.bind fun projection =>
      projection.provisionalClaims[Reference.key]?.map Claim.claimId

/-- The compacted log has lost what makes the second claim the better one. -/
theorem untargeted_superseder_lost :
    ∃ compacted wide narrow, compactOplog (Reference.logOf untargetedOps) .empty [] =
        .ok compacted ∧
      materialize (Reference.logOf untargetedOps) .empty [] none ∅ = .ok wide ∧
      materialize compacted .empty [] none ∅ = .ok narrow ∧
      buildView narrow (.ofScope none) (some heuristicResolver) ≠
        buildView wide (.ofScope none) (some heuristicResolver) := by
  have computed : (compactOplog (Reference.logOf untargetedOps) .empty []).toOption.map
      (fun compacted => (suggested (materialize compacted .empty [] none ∅),
        suggested (materialize (Reference.logOf untargetedOps) .empty [] none ∅))) =
      some (some "a", some "b") := by decide +kernel
  cases run : compactOplog (Reference.logOf untargetedOps) .empty [] with
  | error failure =>
      rw [run] at computed
      cases computed
  | ok compacted =>
      rw [run] at computed
      injection computed with computed
      obtain ⟨isNarrow, isWide⟩ := Prod.mk.inj computed
      cases wideRun : materialize (Reference.logOf untargetedOps) .empty [] none ∅ with
      | error failure =>
          rw [wideRun] at isWide
          cases isWide
      | ok wide =>
          cases narrowRun : materialize compacted .empty [] none ∅ with
          | error failure =>
              rw [narrowRun] at isNarrow
              cases isNarrow
          | ok narrow =>
              refine ⟨compacted, wide, narrow, rfl, rfl, narrowRun, ?_⟩
              intro same
              rw [narrowRun, suggested, Except.toOption, Option.bind_some, same] at isNarrow
              rw [wideRun, suggested, Except.toOption, Option.bind_some, isNarrow] at isWide
              exact absurd isWide (by decide)

end Example

end Statefuse
