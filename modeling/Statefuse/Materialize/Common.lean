import Statefuse.Materialize.Contents

/-!
# Facts for both ways of materializing

Sorting decisions, folding a lane without an instant, and the findings about the
active claims of a detection context.
-/

namespace Statefuse

open Foundation

variable [Runtime]

private theorem timed_forall₂ {decisions : List Decision} {timed : List (WithBot ℚ × Decision)}
    (run : decisions.mapM (fun decision => do
      let time ← decisionTime decision
      return (time, decision)) = (.ok timed : Result _)) :
    timed.map Prod.snd = decisions ∧ ∀ decision ∈ decisions, ∃ time,
      decisionTime decision = .ok time := by
  rw [mapM_ok_iff] at run
  induction run with
  | nil => simp
  | cons computed _ inductionHypothesis =>
      rw [bind_ok_iff] at computed
      obtain ⟨time, known, same⟩ := computed
      rw [pure_ok_iff] at same
      obtain ⟨listed, each⟩ := inductionHypothesis
      refine ⟨?_, ?_⟩
      · rw [List.map_cons, listed, ← same]
      · intro decision member
        rcases List.mem_cons.mp member with equal | later
        · rw [equal]
          exact ⟨time, known⟩
        · exact each decision later

theorem sortDecisions_perm {decisions sorted : List Decision}
    (run : sortDecisions decisions = .ok sorted) : sorted.Perm decisions := by
  rw [sortDecisions, bind_ok_iff] at run
  obtain ⟨timed, computed, same⟩ := run
  rw [pure_ok_iff] at same
  rw [← same, ← (timed_forall₂ computed).1]
  exact (sortBy_perm _ timed).map Prod.snd

theorem timed_of_sortDecisions {decisions sorted : List Decision}
    (run : sortDecisions decisions = .ok sorted) :
    ∀ decision ∈ decisions, ∃ time, decisionTime decision = .ok time := by
  rw [sortDecisions, bind_ok_iff] at run
  obtain ⟨timed, computed, _⟩ := run
  exact (timed_forall₂ computed).2

theorem sortDecisions_exists {decisions : List Decision}
    (timed : ∀ decision ∈ decisions, ∃ time, decisionTime decision = .ok time) :
    ∃ sorted, sortDecisions decisions = .ok sorted := by
  have each : ∀ decision ∈ decisions, ∃ entry : WithBot ℚ × Decision, (do
      let time ← decisionTime decision
      return (time, decision) : Result (WithBot ℚ × Decision)) = .ok entry := by
    intro decision member
    obtain ⟨time, known⟩ := timed decision member
    rw [bind_of_ok known]
    exact ⟨_, rfl⟩
  obtain ⟨entries, computed⟩ := exists_mapM_ok each
  rw [sortDecisions, bind_of_ok computed]
  exact ⟨_, rfl⟩

/-- The sorted decisions are as good as the table they come from. -/
theorem decisions_sorted {table : Dict String Decision} {member : Decision → Prop}
    {sorted : List Decision} (lists : Lists table (·.decisionId) member)
    (run : sortDecisions (Dict.values table) = .ok sorted) :
    Lists (Dict.ofItems Decision.decisionId sorted) (·.decisionId) member ∧
      sortDecisions (Dict.values (Dict.ofItems Decision.decisionId sorted)) = .ok sorted := by
  have permuted := sortDecisions_perm run
  have distinct : sorted.Pairwise
      (fun first second => first.decisionId ≠ second.decisionId) :=
    permuted.symm.pairwise (lists.values_distinct.imp (fun below => ne_of_lt below))
      (fun apart => apart.symm)
  have listed : Lists (Dict.ofItems Decision.decisionId sorted) (·.decisionId) member := by
    refine (Lists.ofItems distinct).congr ?_
    intro decision
    rw [permuted.mem_iff, lists.mem_values]
  refine ⟨listed, ?_⟩
  rw [listed.unique lists]
  exact run

/-- Without an instant the timeline of every lane can be folded. -/
theorem foldLane_none_exists (resolutionsById : Dict String ResolutionRecord)
    (resolutions : List ResolutionRecord) (events : List ConflictLifecycleEvent) :
    ∃ folded, foldLane resolutionsById resolutions events none = .ok folded := by
  have decided : ∀ resolution ∈ resolutions, ∃ holds,
      resolutionApplies resolution none = .ok holds := fun _ _ => ⟨true, rfl⟩
  have applicable := filterM_of_decided decided
  have step : ∀ (state : LaneState) (entry : TimelineEntry),
      ∃ next, timelineStep resolutionsById none state entry = .ok next := by
    intro state entry
    cases entry with
    | resolution resolution => exact ⟨_, rfl⟩
    | event event =>
        unfold timelineStep designated
        simp only
        split
        · exact ⟨_, rfl⟩
        · split
          · exact ⟨_, rfl⟩
          · split
            · exact ⟨_, rfl⟩
            · exact ⟨_, rfl⟩
  rw [foldLane, timelineOf, bind_of_ok applicable]
  exact exists_foldlM_ok (fun state entry _ => step state entry) .start

/-! ## Findings about active claims -/

section Findings

variable {context : ConflictDetectionContext} {member : Claim → Prop}

/-- The active claims of a context are grouped under their keys. -/
def ConflictDetectionContext.Groups (context : ConflictDetectionContext)
    (member : Claim → Prop) : Prop :=
  SortedGroups Claim.claimId context.activeClaimsByKey
    (fun key claim => member claim ∧ claim.key = key)

theorem active_sorted (grouped : context.Groups member) (key : ClaimKey) :
    (context.activeClaimsByKey[key]?.getD []).Pairwise
      (fun first second => first.claimId < second.claimId) := by
  cases found : context.activeClaimsByKey[key]? with
  | none => exact List.Pairwise.nil
  | some claims => exact grouped.sorted key claims found

theorem mem_active (grouped : context.Groups member) (key : ClaimKey) (claim : Claim) :
    claim ∈ context.activeClaimsByKey[key]?.getD [] ↔ member claim ∧ claim.key = key :=
  grouped.mem_getD key claim

theorem finding_exists (grouped : context.Groups member) (key : ClaimKey)
    (readable : ∀ claim, member claim → claim.key = key → Readable claim) :
    ∃ found, context.finding key = .ok found :=
  findingOf_ok (active_sorted grouped key)
    (fun claim listed => ((mem_active grouped key claim).mp listed).2)
    (fun claim listed => readable claim ((mem_active grouped key claim).mp listed).1
      ((mem_active grouped key claim).mp listed).2)

theorem finding_spec (grouped : context.Groups member) {key : ClaimKey} {conflict : ConflictSet}
    (found : context.finding key = .ok (some conflict)) :
    ∃ candidates witnesses, (∀ claim ∈ candidates, member claim ∧ claim.key = key) ∧
      IsFinding key candidates witnesses conflict := by
  refine ⟨_, _, ?_, findingOf_spec (active_sorted grouped key)
    (fun claim listed => ((mem_active grouped key claim).mp listed).2) found⟩
  intro claim listed
  exact (mem_active grouped key claim).mp (List.mem_filter.mp listed).1

/-- A finding is the one direct conflict of its key. -/
theorem finding_direct (grouped : context.Groups member) {key : ClaimKey} {conflict : ConflictSet}
    (found : context.finding key = .ok (some conflict)) :
    conflict.key = key ∧ conflict.keys = [key] ∧ conflict.conflictType = directConflictType ∧
      conflict.detectorId = "direct" := by
  obtain ⟨_, _, _, isFinding⟩ := finding_spec grouped found
  exact ⟨isFinding.anchor, isFinding.keys, isFinding.conflictType, isFinding.detectorId⟩

theorem finding_eq {key otherKey : ClaimKey} {conflict other : ConflictSet}
    (found : context.finding key = .ok (some conflict))
    (otherFound : context.finding otherKey = .ok (some other)) (same : key = otherKey) :
    conflict = other := by
  rw [same, otherFound] at found
  injection found with found
  injection found with found
  exact found.symm

/-- Findings with one reference are one finding. -/
theorem finding_of_ref (collisionFree : CollisionFree) (grouped : context.Groups member)
    {key otherKey : ClaimKey} {conflict other : ConflictSet}
    (found : context.finding key = .ok (some conflict))
    (otherFound : context.finding otherKey = .ok (some other))
    (same : conflict.conflictRef = other.conflictRef) : conflict = other := by
  obtain ⟨_, _, _, isFinding⟩ := finding_spec grouped found
  obtain ⟨_, _, _, otherIsFinding⟩ := finding_spec grouped otherFound
  rw [isFinding.conflictRef, otherIsFinding.conflictRef] at same
  exact finding_eq found otherFound (directRef_injective collisionFree same)

/-- Findings with one identifier are one finding. -/
theorem finding_of_id (collisionFree : CollisionFree) (grouped : context.Groups member)
    {key otherKey : ClaimKey} {conflict other : ConflictSet}
    (found : context.finding key = .ok (some conflict))
    (otherFound : context.finding otherKey = .ok (some other))
    (same : conflict.conflictId = other.conflictId) : conflict = other := by
  obtain ⟨_, _, _, isFinding⟩ := finding_spec grouped found
  obtain ⟨_, _, _, otherIsFinding⟩ := finding_spec grouped otherFound
  rw [isFinding.conflictId, otherIsFinding.conflictId] at same
  exact finding_eq found otherFound (directId_injective collisionFree same)

/-- Without active claims there is nothing to report. -/
theorem finding_absent {key : ClaimKey} (absent : key ∉ context.activeClaimsByKey) :
    context.finding key = .ok none := by
  rw [Dict.mem_iff] at absent
  cases found : context.activeClaimsByKey[key]? with
  | none =>
      rw [ConflictDetectionContext.finding, found, Option.getD_none, findingOf, clashingPairs]
      simp [combinations]
  | some claims => exact absurd ⟨claims, found⟩ absent

end Findings

end Statefuse
