import Statefuse.Materialize.Gathering
import Statefuse.Reference
import Statefuse.View.Settled

/-!
# What a view leaves unresolved

In the state of a log, a conflict is left unresolved exactly when its lane has no
effective resolution (`resolvers_cannot_decide`).  A query for resolved conflicts falls
back to the global lane more readily than a view does: it skips a scoped lane whose
resolutions have all lapsed, and the view does not (`resolved_iff_not_unresolved`).
-/

namespace Statefuse

open Foundation

section Views

variable [Runtime]

section State

variable {log : OpLog} {registry : PredicateRegistry} {detectors : List ConflictDetector}
  {validAt : Option String} {context : JSONObject} {state : MemoryState}

/-- The selectable conflicts of a key are current conflicts about that key alone. -/
theorem mem_selectableConflicts
    (run : materialize log registry detectors validAt context = .ok state) {key : ClaimKey}
    {conflict : ConflictSet} (listed : conflict ∈ selectableConflicts state key) :
    conflict ∈ state.conflicts ∧ conflict.key = key ∧
      ∀ claim ∈ conflict.candidates, claim.key = key := by
  obtain ⟨_, _, _, _, _, _, _, conflicts, _, _, _, _, _, same⟩ := materialize_ok_iff.mp run
  rw [selectableConflicts, List.mem_filter] at listed
  obtain ⟨grouped, selectable⟩ := listed
  have current : conflict ∈ state.conflicts ∧ key ∈ conflict.keys := by
    rw [← same] at grouped ⊢
    exact mem_groupConflictsByKey.mp grouped
  simp only [isSelectableConflict, decide_eq_true_eq, List.all_eq_true] at selectable
  obtain ⟨_, single, own⟩ := selectable
  have touched := current.2
  rw [single, List.mem_singleton] at touched
  refine ⟨current.1, touched.symm, ?_⟩
  intro claim candidate
  rw [own claim candidate, touched]

/-- Some resolution or lifecycle event is recorded in the lane. -/
def MemoryState.HasHistory (state : MemoryState) (lane : Lane) : Prop :=
  (∃ record : ResolutionRecord, state.resolutionsById[record.resolutionId]? = some record ∧
    record.lane = lane) ∨
  ∃ record : ConflictLifecycleEvent, state.lifecycleEventsById[record.eventId]? = some record ∧
    record.lane = lane

/-- The lane a view reads: that of the scope if it has any history, else the global lane. -/
def MemoryState.IsViewLane (state : MemoryState) (conflict : ConflictSet) (scope : Option String)
    (lane : Lane) : Prop :=
  (state.HasHistory ⟨conflict.conflictRef, scope⟩ ∧ lane = ⟨conflict.conflictRef, scope⟩) ∨
  (¬state.HasHistory ⟨conflict.conflictRef, scope⟩ ∧ lane = Lane.global conflict.conflictRef)

theorem mem_historyLanes (run : materialize log registry detectors validAt context = .ok state)
    (lane : Lane) :
    (lane ∈ state.resolutionsByConflictRefAndScope ∨
      lane ∈ state.lifecycleHistoryByConflictRefAndScope) ↔ state.HasHistory lane := by
  obtain ⟨_, collected, collects, _, _, _, _, _, _, _, _, _, _, same⟩ := materialize_ok_iff.mp run
  obtain ⟨resolutionsKeyed, eventsKeyed⟩ := collect_keyed collects
  subst same
  exact or_congr (mem_resolutionLanes resolutionsKeyed lane) (mem_eventLanes eventsKeyed lane)

theorem resolutionLane_iff (run : materialize log registry detectors validAt context = .ok state)
    (conflict : ConflictSet) (scope : Option String) (lane : Lane) :
    state.IsViewLane conflict scope lane ↔ resolutionLane state conflict scope = lane := by
  cases scope with
  | none =>
      constructor
      · rintro (⟨_, same⟩ | ⟨_, same⟩)
        · exact same.symm
        · exact same.symm
      · intro same
        by_cases history : state.HasHistory ⟨conflict.conflictRef, none⟩
        · exact Or.inl ⟨history, same.symm⟩
        · exact Or.inr ⟨history, same.symm⟩
  | some scope =>
      have listed := mem_historyLanes run ⟨conflict.conflictRef, some scope⟩
      simp only [resolutionLane]
      by_cases history : state.HasHistory ⟨conflict.conflictRef, some scope⟩
      · rw [if_pos (listed.mpr history)]
        constructor
        · rintro (⟨_, same⟩ | ⟨absent, _⟩)
          · exact same.symm
          · exact absurd history absent
        · intro same
          exact Or.inl ⟨history, same.symm⟩
      · rw [if_neg (fun present => history (listed.mp present))]
        constructor
        · rintro (⟨present, _⟩ | ⟨_, same⟩)
          · exact absurd present history
          · exact same.symm
        · intro same
          exact Or.inr ⟨history, same.symm⟩

/-- The lane of a view belongs to the conflict. -/
theorem resolutionLane_scope (state : MemoryState) (conflict : ConflictSet)
    (scope : Option String) :
    ∃ laneScope, resolutionLane state conflict scope = ⟨conflict.conflictRef, laneScope⟩ := by
  cases scope with
  | none => exact ⟨none, rfl⟩
  | some scope =>
      simp only [resolutionLane]
      split
      · exact ⟨some scope, rfl⟩
      · exact ⟨none, rfl⟩

/-! ## The committed choice -/

/-- The candidate that an effective resolution selects. -/
def MemoryState.Commits (state : MemoryState) (scope : Option String) (conflict : ConflictSet)
    (claim : Claim) : Prop :=
  ∃ lane resolution, state.IsViewLane conflict scope lane ∧
    state.effectiveResolutionsByConflictRefAndScope[lane]? = some resolution ∧
    claim ∈ conflict.candidates ∧ claim.claimId ∈ resolution.selectedClaimIds

/-- The choice of a resolution that settles the conflict always applies. -/
private theorem choiceOf_settles {conflict : ConflictSet} {resolution : ResolutionRecord}
    (settles : Settles resolution conflict) :
    (choiceOf conflict resolution true).applied = true ∧
      ∀ claim, (choiceOf conflict resolution true).claim = some claim ↔
        claim ∈ conflict.candidates ∧ claim.claimId ∈ resolution.selectedClaimIds := by
  unfold choiceOf
  rcases settles.decided with ⟨preserved, noneSelected, _, _⟩ | ⟨outcome, claim, chosen, only⟩
  · simp [preserved, noneSelected]
  · have selecting : resolution.outcome ≠ .preserve := by
      rcases outcome with outcome | outcome | outcome <;> rw [outcome] <;> simp
    have single : selectedCandidates conflict resolution = [claim] := by
      rw [selectedCandidates]
      have distinct : conflict.candidates.Pairwise
          (fun first second => first.claimId < second.claimId) := conflict.valid.candidatesSorted
      refine eq_of_strictly_sorted (distinct.filter _) (List.pairwise_singleton _ _) ?_
      intro other
      rw [List.mem_filter, decide_eq_true_eq, List.mem_singleton]
      constructor
      · intro listed
        exact only other listed
      · intro same
        rw [same]
        exact chosen
    simp only [single, selecting]
    refine ⟨by simp, ?_⟩
    intro other
    simp only [and_false, if_false, Option.some.injEq]
    constructor
    · intro same
      rw [← same]
      exact chosen
    · intro listed
      exact (only other listed).symm

private theorem choiceOf_ineffective (conflict : ConflictSet) (resolution : ResolutionRecord) :
    (choiceOf conflict resolution false).applied = false ∧
      (choiceOf conflict resolution false).claim = none := by
  simp [choiceOf]

theorem committedChoice_of_effective {conflict : ConflictSet} {scope : Option String}
    {resolution : ResolutionRecord}
    (effective : state.effectiveResolutionsByConflictRefAndScope[
      resolutionLane state conflict scope]? = some resolution) :
    committedChoice state conflict scope = choiceOf conflict resolution true := by
  simp only [committedChoice, effective]

theorem committedChoice_of_none {conflict : ConflictSet} {scope : Option String}
    (idle : state.effectiveResolutionsByConflictRefAndScope[
      resolutionLane state conflict scope]? = none) :
    (committedChoice state conflict scope).applied = false ∧
      (committedChoice state conflict scope).claim = none := by
  simp only [committedChoice, idle]
  split
  · exact ⟨rfl, rfl⟩
  · split
    · exact ⟨rfl, rfl⟩
    · split
      · exact ⟨rfl, rfl⟩
      · exact choiceOf_ineffective _ _

theorem resolutionLane_settles
    (run : materialize log registry detectors validAt context = .ok state)
    {conflict : ConflictSet} (current : conflict ∈ state.conflicts) {scope : Option String}
    {resolution : ResolutionRecord}
    (effective : state.effectiveResolutionsByConflictRefAndScope[
      resolutionLane state conflict scope]? = some resolution) :
    Settles resolution conflict := by
  obtain ⟨laneScope, laneIs⟩ := resolutionLane_scope state conflict scope
  rw [laneIs] at effective
  exact effective_settles run current effective

/-- A committed choice applies exactly when the lane of the view has an effective
resolution. -/
theorem committedChoice_applied_iff
    (run : materialize log registry detectors validAt context = .ok state)
    {conflict : ConflictSet} (current : conflict ∈ state.conflicts) (scope : Option String) :
    (committedChoice state conflict scope).applied = true ↔
      ∃ resolution, state.effectiveResolutionsByConflictRefAndScope[
        resolutionLane state conflict scope]? = some resolution := by
  cases effective : state.effectiveResolutionsByConflictRefAndScope[
      resolutionLane state conflict scope]? with
  | some resolution =>
      rw [committedChoice_of_effective effective]
      simp [(choiceOf_settles (resolutionLane_settles run current effective)).1]
  | none => simp [(committedChoice_of_none effective).1]

/-- The committed claim is the candidate that the effective resolution selects. -/
theorem committedChoice_claim_iff
    (run : materialize log registry detectors validAt context = .ok state)
    {conflict : ConflictSet} (current : conflict ∈ state.conflicts) (scope : Option String)
    (claim : Claim) :
    (committedChoice state conflict scope).claim = some claim ↔
      state.Commits scope conflict claim := by
  have commits : state.Commits scope conflict claim ↔ ∃ resolution,
      state.effectiveResolutionsByConflictRefAndScope[
        resolutionLane state conflict scope]? = some resolution ∧
      claim ∈ conflict.candidates ∧ claim.claimId ∈ resolution.selectedClaimIds := by
    constructor
    · rintro ⟨lane, resolution, isLane, effective, chosen⟩
      rw [resolutionLane_iff run] at isLane
      rw [← isLane] at effective
      exact ⟨resolution, effective, chosen⟩
    · rintro ⟨resolution, effective, chosen⟩
      exact ⟨_, resolution, (resolutionLane_iff run conflict scope _).mpr rfl, effective, chosen⟩
  rw [commits]
  cases effective : state.effectiveResolutionsByConflictRefAndScope[
      resolutionLane state conflict scope]? with
  | some resolution =>
      rw [committedChoice_of_effective effective,
        (choiceOf_settles (resolutionLane_settles run current effective)).2]
      simp
  | none => simp [(committedChoice_of_none effective).2]

/-! ## The unresolved conflicts of the settled part -/

/-- The conflict that the first pass handles at a key. -/
def handledConflict (state : MemoryState) (key : ClaimKey) : Option ConflictSet :=
  (selectableConflicts state key).head?

/-- What the first pass has left and handled after some keys. -/
structure Settled.Handles (settled : Settled) (state : MemoryState) (scope : Option String)
    (entries : List (ClaimKey × List Claim)) : Prop where
  handled : ∀ conflictId : String, conflictId ∈ settled.handled ↔ ∃ entry ∈ entries,
    ∃ conflict, handledConflict state entry.1 = some conflict ∧ conflict.conflictId = conflictId
  unresolved : ∀ conflict, conflict ∈ settled.unresolved ↔ ∃ entry ∈ entries,
    handledConflict state entry.1 = some conflict ∧
      (committedChoice state conflict scope).applied = false

theorem enterKey_handles {scope : Option String} {settled next : Settled}
    {entries : List (ClaimKey × List Claim)} {entry : ClaimKey × List Claim}
    (handles : settled.Handles state scope entries)
    (run : Settled.enterKey state scope settled entry = .ok next) :
    next.Handles state scope (entries ++ [entry]) := by
  simp only [Settled.enterKey] at run
  cases listed : selectableConflicts state entry.1 with
  | nil =>
      have none : handledConflict state entry.1 = none := by rw [handledConflict, listed]; rfl
      have same : next.handled = settled.handled ∧ next.unresolved = settled.unresolved := by
        simp only [listed] at run
        split at run
        · injection run with run
          rw [← run]
          exact ⟨rfl, rfl⟩
        · obtain ⟨chosen, _, run⟩ := bind_ok_iff.mp run
          rw [pure_ok_iff] at run
          rw [← run]
          exact ⟨rfl, rfl⟩
      constructor
      · intro conflictId
        rw [same.1, handles.handled]
        simp [or_and_right, exists_or, none]
      · intro conflict
        rw [same.2, handles.unresolved]
        simp [or_and_right, exists_or, none]
  | cons first others =>
      have here : handledConflict state entry.1 = some first := by
        rw [handledConflict, listed]
        rfl
      simp only [listed] at run
      injection run with run
      subst run
      constructor
      · intro conflictId
        simp only [Settled.decide, PySet.mem_insert, handles.handled, List.mem_append,
          List.mem_singleton, or_and_right, exists_or, exists_eq_left, here, Option.some.injEq,
          exists_eq_left']
        exact or_comm
      · intro conflict
        simp only [Settled.decide, List.mem_append, List.mem_singleton, or_and_right, exists_or,
          exists_eq_left, here, Option.some.injEq]
        cases applies : (committedChoice state first scope).applied with
        | true =>
            rw [if_pos rfl, handles.unresolved]
            constructor
            · exact Or.inl
            · rintro (earlier | ⟨same, unapplied⟩)
              · exact earlier
              · rw [← same, applies] at unapplied
                cases unapplied
        | false =>
            rw [if_neg Bool.false_ne_true, List.mem_append, handles.unresolved,
              List.mem_singleton]
            constructor
            · rintro (earlier | same)
              · exact Or.inl earlier
              · rw [same]
                exact Or.inr ⟨rfl, applies⟩
            · rintro (earlier | ⟨same, _⟩)
              · exact Or.inl earlier
              · exact Or.inr same.symm

/-- The first pass over all keys. -/
theorem enterKeys_handles {scope : Option String} {settled : Settled}
    (run : state.activeClaimsByKey.toList.foldlM (Settled.enterKey state scope) (.start state) =
      .ok settled) :
    settled.Handles state scope state.activeClaimsByKey.toList :=
  foldlM_invariant (fun entries (settled : Settled) => settled.Handles state scope entries)
    _ _ _ run ⟨by simp [Settled.start], by simp [Settled.start]⟩
    (fun _ _ _ _ handles _ stepped => enterKey_handles handles stepped)

/-- Excluding claims leaves the handled and the unresolved conflicts alone. -/
theorem foldl_exclude_frame (claims : List Claim) (settled : Settled) :
    (claims.foldl Settled.exclude settled).handled = settled.handled ∧
      (claims.foldl Settled.exclude settled).unresolved = settled.unresolved ∧
      (claims.foldl Settled.exclude settled).surfaced = settled.surfaced := by
  induction claims generalizing settled with
  | nil => exact ⟨rfl, rfl, rfl⟩
  | cons claim claims inductionHypothesis =>
      have one : (settled.exclude claim).handled = settled.handled ∧
          (settled.exclude claim).unresolved = settled.unresolved ∧
          (settled.exclude claim).surfaced = settled.surfaced := by
        have deselected : (settled.deselect claim).handled = settled.handled ∧
            (settled.deselect claim).unresolved = settled.unresolved ∧
            (settled.deselect claim).surfaced = settled.surfaced := by
          unfold Settled.deselect
          split
          · exact ⟨rfl, rfl, rfl⟩
          · split
            · exact ⟨rfl, rfl, rfl⟩
            · exact ⟨rfl, rfl, rfl⟩
        rw [← deselected.1, ← deselected.2.1, ← deselected.2.2]
        unfold Settled.exclude Settled.withdraw
        simp only
        split
        · unfold Settled.keep
          split
          · exact ⟨rfl, rfl, rfl⟩
          · exact ⟨rfl, rfl, rfl⟩
          · exact ⟨rfl, rfl, rfl⟩
        · exact ⟨rfl, rfl, rfl⟩
      rw [List.foldl_cons, ← one.1, ← one.2.1, ← one.2.2]
      exact inductionHypothesis (settled.exclude claim)

/-- A conflict of the second pass is left when it is not handled and has no choice. -/
theorem enterFinding_frame (scope : Option String) (settled : Settled) (conflict : ConflictSet) :
    (settled.enterFinding state scope conflict).handled = settled.handled ∧
      (settled.enterFinding state scope conflict).surfaced = settled.surfaced ∧
      ∀ other, other ∈ (settled.enterFinding state scope conflict).unresolved ↔
        other ∈ settled.unresolved ∨ (other = conflict ∧ conflict.conflictId ∉ settled.handled ∧
          (committedChoice state conflict scope).applied = false) := by
  unfold Settled.enterFinding
  by_cases handled : conflict.conflictId ∈ settled.handled
  · rw [if_pos handled]
    exact ⟨rfl, rfl, fun other => by simp [handled]⟩
  · rw [if_neg handled]
    cases applies : (committedChoice state conflict scope).applied with
    | true =>
        simp only [applies, if_true]
        cases (committedChoice state conflict scope).claim with
        | none => exact ⟨rfl, rfl, fun other => by simp⟩
        | some claim =>
            obtain ⟨sameHandled, sameUnresolved, sameSurfaced⟩ :=
              foldl_exclude_frame (Settled.rejected state scope conflict) settled
            exact ⟨sameHandled, sameSurfaced, fun other => by simp [sameUnresolved]⟩
    | false =>
        simp only [applies, Bool.false_eq_true, if_false]
        exact ⟨rfl, rfl, fun other => by simp [Settled.leave, handled]⟩

theorem enterFindings_frame (scope : Option String) (conflicts : List ConflictSet)
    (settled : Settled) :
    (conflicts.foldl (Settled.enterFinding state scope) settled).handled = settled.handled ∧
      (conflicts.foldl (Settled.enterFinding state scope) settled).surfaced = settled.surfaced ∧
      ∀ other, other ∈ (conflicts.foldl (Settled.enterFinding state scope) settled).unresolved ↔
        other ∈ settled.unresolved ∨ (other ∈ conflicts ∧ other.conflictId ∉ settled.handled ∧
          (committedChoice state other scope).applied = false) := by
  induction conflicts generalizing settled with
  | nil => exact ⟨rfl, rfl, fun other => by simp⟩
  | cons conflict conflicts inductionHypothesis =>
      obtain ⟨handled, surfaced, unresolved⟩ := @enterFinding_frame _ state scope settled conflict
      obtain ⟨laterHandled, laterSurfaced, later⟩ :=
        inductionHypothesis (settled.enterFinding state scope conflict)
      refine ⟨laterHandled.trans handled, laterSurfaced.trans surfaced, ?_⟩
      intro other
      rw [List.foldl_cons, later, unresolved, handled, List.mem_cons]
      constructor
      · rintro ((earlier | ⟨same, outside⟩) | ⟨among, outside⟩)
        · exact Or.inl earlier
        · rw [same]
          exact Or.inr ⟨Or.inl rfl, outside⟩
        · exact Or.inr ⟨Or.inr among, outside⟩
      · rintro (earlier | ⟨same | among, outside⟩)
        · exact Or.inl (Or.inl earlier)
        · rw [same] at outside
          exact Or.inl (Or.inr ⟨same, outside⟩)
        · exact Or.inr ⟨among, outside⟩

/-- The settled part leaves exactly the current conflicts without a choice that applies. -/
theorem settledView_unresolved
    (run : materialize log registry detectors validAt context = .ok state) {scope : Option String}
    {settled : Settled} (view : settledView state scope = .ok settled) (conflict : ConflictSet) :
    conflict ∈ settled.unresolved ↔
      conflict ∈ state.conflicts ∧ (committedChoice state conflict scope).applied = false := by
  rw [settledView, bind_ok_iff] at view
  obtain ⟨first, entered, same⟩ := view
  rw [pure_ok_iff] at same
  have handles := enterKeys_handles entered
  have current : ∀ {key : ClaimKey} {other : ConflictSet},
      handledConflict state key = some other → other ∈ state.conflicts := by
    intro key other found
    exact (mem_selectableConflicts run (List.mem_of_mem_head? found)).1
  rw [← same, (@enterFindings_frame _ state scope state.conflicts first).2.2 conflict,
    handles.unresolved]
  constructor
  · rintro (⟨entry, _, found, unapplied⟩ | ⟨listed, _, unapplied⟩)
    · exact ⟨current found, unapplied⟩
    · exact ⟨listed, unapplied⟩
  · rintro ⟨listed, unapplied⟩
    by_cases handled : conflict.conflictId ∈ first.handled
    · obtain ⟨entry, among, other, found, sameId⟩ := (handles.handled _).mp handled
      rw [conflict_of_id run (current found) listed sameId] at found
      exact Or.inl ⟨entry, among, found, unapplied⟩
    · exact Or.inr ⟨listed, handled, unapplied⟩

/-- Putting the unresolved conflicts in order keeps each of them once. -/
private theorem orderUnresolved_spec {conflicts : List ConflictSet}
    (known : ∀ first ∈ conflicts, ∀ second ∈ conflicts, first.conflictId = second.conflictId →
      first = second) :
    ((orderUnresolved conflicts).map (·.conflictId)).Nodup ∧
      ∀ conflict, conflict ∈ orderUnresolved conflicts ↔ conflict ∈ conflicts := by
  have lists := Lists.ofItems_of_injective known
  constructor
  · have distinct : ((Dict.values (Dict.ofItems (fun conflict : ConflictSet =>
        conflict.conflictId) conflicts)).map (·.conflictId)).Nodup := by
      rw [List.Nodup, List.pairwise_map]
      exact lists.values_distinct.imp (fun below => ne_of_lt below)
    exact ((sortBy_perm _ _).map _).nodup_iff.mpr distinct
  · intro conflict
    rw [orderUnresolved, mem_sortBy, lists.mem_values]

/-- The unresolved conflicts of any view. -/
theorem buildView_unresolved
    (run : materialize log registry detectors validAt context = .ok state)
    {constraints : ViewConstraints} {resolver : Option Resolver} {projection : Projection}
    (view : buildView state constraints resolver = .ok projection) :
    (projection.unresolvedConflicts.map (·.conflictId)).Nodup ∧
      ∀ conflict, conflict ∈ projection.unresolvedConflicts ↔ conflict ∈ state.conflicts ∧
        ∀ lane, state.IsViewLane conflict constraints.scope lane →
          state.effectiveResolutionsByConflictRefAndScope[lane]? = none := by
  obtain ⟨settled, settles, shows⟩ := buildView_settled view
  have listed := settledView_unresolved run settles
  have known : ∀ first ∈ settled.unresolved, ∀ second ∈ settled.unresolved,
      first.conflictId = second.conflictId → first = second := by
    intro first firstListed second secondListed same
    exact conflict_of_id run ((listed first).mp firstListed).1
      ((listed second).mp secondListed).1 same
  obtain ⟨distinct, members⟩ := orderUnresolved_spec known
  rw [shows.unresolved]
  refine ⟨distinct, ?_⟩
  intro conflict
  rw [members, listed]
  apply and_congr_right
  intro current
  rw [← Bool.not_eq_true, committedChoice_applied_iff run current, ← Option.ne_none_iff_exists',
    ne_eq, not_not]
  simp only [resolutionLane_iff run, forall_eq']

/-- No resolver changes what a view selects, keeps available, surfaces or leaves
unresolved, and a view leaves exactly the current conflicts without an effective
resolution in their lane. -/
theorem resolvers_cannot_decide
    (run : materialize log registry detectors validAt context = .ok state)
    (constraints : ViewConstraints) (first second : Option Resolver) {one two : Projection}
    (firstView : buildView state constraints first = .ok one)
    (secondView : buildView state constraints second = .ok two) :
    one.selectedClaims = two.selectedClaims ∧ one.compatibleClaims = two.compatibleClaims ∧
      one.surfacedConflicts = two.surfacedConflicts ∧
      one.surfacedFindings = two.surfacedFindings ∧
      one.unresolvedConflicts = two.unresolvedConflicts ∧
      (one.unresolvedConflicts.map (·.conflictId)).Nodup ∧
      ∀ conflict, conflict ∈ one.unresolvedConflicts ↔ conflict ∈ state.conflicts ∧
        ∀ lane, state.IsViewLane conflict constraints.scope lane →
          state.effectiveResolutionsByConflictRefAndScope[lane]? = none := by
  obtain ⟨settled, settles, firstShows⟩ := buildView_settled firstView
  obtain ⟨other, otherSettles, secondShows⟩ := buildView_settled secondView
  rw [settles] at otherSettles
  injection otherSettles with same
  subst same
  exact ⟨firstShows.selected.trans secondShows.selected.symm,
    firstShows.compatible.trans secondShows.compatible.symm,
    firstShows.surfaced.trans secondShows.surfaced.symm,
    firstShows.findings.trans secondShows.findings.symm,
    firstShows.unresolved.trans secondShows.unresolved.symm,
    buildView_unresolved run firstView⟩

/-! ## Queries and views -/

/-- Resolutions are recorded in the lane, no event is, and no resolution applies any more. -/
def MemoryState.Lapsed (state : MemoryState) (validAt : Option String) (lane : Lane) : Prop :=
  state.HasHistory lane ∧
    (∀ record : ConflictLifecycleEvent,
      state.lifecycleEventsById[record.eventId]? = some record → record.lane ≠ lane) ∧
    ∀ record : ResolutionRecord, state.resolutionsById[record.resolutionId]? = some record →
      record.lane = lane → resolutionApplies record validAt ≠ .ok true

/-- A lapsed lane has a history in which nothing counts. -/
private theorem lapsed_iff (lane : Lane) :
    state.Lapsed validAt lane ↔
      state.HasHistory lane ∧ ∀ entry, ¬state.InTimeline validAt lane entry := by
  apply and_congr_right
  intro _
  constructor
  · rintro ⟨noEvents, noneApplies⟩ entry entered
    cases entered with
    | resolution record known here applies => exact noneApplies record known here applies
    | event record known here => exact noEvents record known here
  · intro nothing
    exact ⟨fun record known here => nothing _ (.event record known here),
      fun record known here applies => nothing _ (.resolution record known here applies)⟩

/-- Nothing is effective in a lapsed lane. -/
private theorem lapsed_idle
    (run : materialize log registry detectors validAt context = .ok state)
    {conflict : ConflictSet} (current : conflict ∈ state.conflicts) {scope : Option String}
    (lapsed : state.Lapsed validAt ⟨conflict.conflictRef, scope⟩) :
    state.effectiveResolutionsByConflictRefAndScope[Lane.mk conflict.conflictRef scope]? =
      none := by
  obtain ⟨folded, folds, effectiveIs, _⟩ := materialize_lane run current scope
  rw [effectiveIs]
  cases active : folded.active with
  | none => simp [LaneState.effective, active]
  | some resolution =>
      obtain ⟨entry, isLast, _⟩ := (folds.active resolution).mp active
      exact absurd isLast.1 (((lapsed_iff _).mp lapsed).2 entry)

/-- The status lane of a query belongs to the conflict. -/
private theorem statusLane_scope (state : MemoryState) (conflict : ConflictSet)
    (scope : Option String) :
    ∃ laneScope, state.statusLane conflict scope = ⟨conflict.conflictRef, laneScope⟩ := by
  simp only [MemoryState.statusLane]
  split
  · exact ⟨none, rfl⟩
  · exact ⟨scope, rfl⟩

/-- A query for resolved conflicts finds those with an effective resolution in their
status lane. -/
theorem findConflicts_resolved_iff
    (run : materialize log registry detectors validAt context = .ok state)
    {conflict : ConflictSet} (current : conflict ∈ state.conflicts) (scope : Option String) :
    conflict ∈ state.findConflicts { status := some "resolved", scope := scope } ↔
      ∃ resolution, state.effectiveResolutionsByConflictRefAndScope[
        state.statusLane conflict scope]? = some resolution := by
  refine (state.mem_findConflicts_status .resolved scope conflict).trans ?_
  obtain ⟨laneScope, laneIs⟩ := statusLane_scope state conflict scope
  rw [laneIs, ← resolved_iff_effective run current, MemoryState.currentStatus, laneIs]
  cases state.lifecycleStatusByConflictRefAndScope[Lane.mk conflict.conflictRef laneScope]? with
  | none => simp
  | some status => simp [current]

/-- The lane of a scope has a status when something in it counts. -/
private theorem scoped_status
    (run : materialize log registry detectors validAt context = .ok state)
    {conflict : ConflictSet} (current : conflict ∈ state.conflicts) (scope : String) :
    Lane.mk conflict.conflictRef (some scope) ∈ state.lifecycleStatusByConflictRefAndScope ↔
      ∃ entry, state.InTimeline validAt ⟨conflict.conflictRef, some scope⟩ entry := by
  obtain ⟨folded, folds, _, statusIs⟩ := materialize_lane run current (some scope)
  have untouched := folds.untouched
  rw [← not_exists] at untouched
  rw [Dict.mem_iff, statusIs, ← not_iff_not, ← untouched, ← Option.ne_none_iff_exists', not_not]
  cases active : folded.active with
  | none => simp [LaneState.finalStatus, active]
  | some resolution =>
      obtain ⟨entry, isLast, _⟩ := (folds.active resolution).mp active
      simp only [LaneState.finalStatus, active, reduceCtorEq, false_iff]
      intro absent
      exact untouched.mp absent ⟨entry, isLast.1⟩

/-- Where the status lane of a query and the lane of a view part. -/
private theorem statusLane_eq
    (run : materialize log registry detectors validAt context = .ok state)
    {conflict : ConflictSet} (current : conflict ∈ state.conflicts) (scope : Option String) :
    (¬state.Lapsed validAt ⟨conflict.conflictRef, scope⟩ →
      state.statusLane conflict scope = resolutionLane state conflict scope) ∧
    (state.Lapsed validAt ⟨conflict.conflictRef, scope⟩ →
      state.statusLane conflict scope = Lane.global conflict.conflictRef ∧
      resolutionLane state conflict scope = ⟨conflict.conflictRef, scope⟩) := by
  rw [lapsed_iff]
  cases scope with
  | none => exact ⟨fun _ => by simp [MemoryState.statusLane, resolutionLane, Lane.global],
      fun _ => ⟨by simp [MemoryState.statusLane, Lane.global], rfl⟩⟩
  | some scope =>
      have status := scoped_status run current scope
      have lane := resolutionLane_iff run conflict (some scope)
      by_cases counted : ∃ entry, state.InTimeline validAt ⟨conflict.conflictRef, some scope⟩ entry
      · have history : state.HasHistory ⟨conflict.conflictRef, some scope⟩ := by
          obtain ⟨entry, entered⟩ := counted
          cases entered with
          | resolution record known here _ => exact Or.inl ⟨record, known, here⟩
          | event record known here => exact Or.inr ⟨record, known, here⟩
        constructor
        · intro _
          rw [(lane _).mp (Or.inl ⟨history, rfl⟩)]
          simp [MemoryState.statusLane, status.mpr counted]
        · rintro ⟨_, nothing⟩
          exact absurd counted (not_exists.mpr nothing)
      · have absent : Lane.mk conflict.conflictRef (some scope) ∉
            state.lifecycleStatusByConflictRefAndScope := fun present => counted (status.mp present)
        have fallback : state.statusLane conflict (some scope) =
            Lane.global conflict.conflictRef := by
          simp [MemoryState.statusLane, absent]
        constructor
        · intro live
          have idle : ¬state.HasHistory ⟨conflict.conflictRef, some scope⟩ :=
            fun history => live ⟨history, not_exists.mp counted⟩
          rw [fallback, (lane _).mp (Or.inr ⟨idle, rfl⟩)]
        · rintro ⟨history, _⟩
          exact ⟨fallback, (lane _).mp (Or.inl ⟨history, rfl⟩)⟩

/-- The query and the view agree on a conflict unless the lane of the scope has lapsed
while the global lane has an effective resolution. -/
theorem resolved_iff_not_unresolved
    (run : materialize log registry detectors validAt context = .ok state)
    {constraints : ViewConstraints} {resolver : Option Resolver} {projection : Projection}
    (view : buildView state constraints resolver = .ok projection) {conflict : ConflictSet}
    (current : conflict ∈ state.conflicts) :
    (conflict ∈ state.findConflicts { status := some "resolved", scope := constraints.scope } ↔
        conflict ∉ projection.unresolvedConflicts) ↔
      ¬(state.Lapsed validAt ⟨conflict.conflictRef, constraints.scope⟩ ∧
        ∃ resolution, state.effectiveResolutionsByConflictRefAndScope[
          Lane.global conflict.conflictRef]? = some resolution) := by
  have left : conflict ∉ projection.unresolvedConflicts ↔
      ∃ resolution, state.effectiveResolutionsByConflictRefAndScope[
        resolutionLane state conflict constraints.scope]? = some resolution := by
    rw [(buildView_unresolved run view).2, ← Option.ne_none_iff_exists']
    simp only [current, true_and, resolutionLane_iff run, forall_eq', ne_eq]
  rw [findConflicts_resolved_iff run current, left]
  obtain ⟨agree, part⟩ := statusLane_eq run current constraints.scope
  by_cases lapsed : state.Lapsed validAt ⟨conflict.conflictRef, constraints.scope⟩
  · obtain ⟨status, lane⟩ := part lapsed
    rw [status, lane, lapsed_idle run current lapsed]
    simp [lapsed]
  · rw [agree lapsed]
    simp [lapsed]

end State

end Views

/-! ## A disputed key -/

section Example

attribute [local instance] Reference.shortRuntime

/-- Two values for one key. -/
def disputedOps : List Op :=
  [.claimAdded ⟨"op-a", "r", "t"⟩ (Reference.fact "a" Reference.key (.str "x") []),
    .claimAdded ⟨"op-b", "r", "t"⟩ (Reference.fact "b" Reference.key (.str "y") [])]

/-- A resolver that always answers with the same claim. -/
def insistent : Resolver := fun _ _ _ => .ok ⟨some "a", "because", none, ∅⟩

theorem resolvers_cannot_decide_insistent :
    ∃ state one two, materialize (Reference.logOf disputedOps) .empty [] none ∅ = .ok state ∧
      buildView state (.ofScope none) none = .ok one ∧
      buildView state (.ofScope none) (some insistent) = .ok two ∧
      one.selectedClaims = two.selectedClaims ∧
      one.unresolvedConflicts = two.unresolvedConflicts ∧ one.unresolvedConflicts.length = 1 := by
  have computed : ((materialize (Reference.logOf disputedOps) .empty [] none ∅).toOption.bind
      fun state => (buildView state (.ofScope none) none).toOption.bind fun one =>
        (buildView state (.ofScope none) (some insistent)).toOption.map fun _ =>
          one.unresolvedConflicts.length) = some 1 := by
    decide +kernel
  cases run : materialize (Reference.logOf disputedOps) .empty [] none ∅ with
  | error failure =>
      rw [run] at computed
      cases computed
  | ok state =>
      rw [run, Except.toOption, Option.bind_some] at computed
      cases firstView : buildView state (.ofScope none) none with
      | error failure =>
          rw [firstView] at computed
          cases computed
      | ok one =>
          rw [firstView, Except.toOption, Option.bind_some] at computed
          cases secondView : buildView state (.ofScope none) (some insistent) with
          | error failure =>
              rw [secondView] at computed
              cases computed
          | ok two =>
              rw [secondView] at computed
              injection computed with computed
              obtain ⟨selected, _, _, _, unresolved, _⟩ :=
                resolvers_cannot_decide run (.ofScope none) none (some insistent) firstView
                  secondView
              exact ⟨state, one, two, rfl, firstView, secondView, selected, unresolved, computed⟩

/-- A global resolution, and a later one for one scope that ends after a day. -/
def lapsedOps : List Op :=
  disputedOps ++
  [.resolutionAdded ⟨"op-c", "r", "t"⟩ (Reference.selection "c" "a" "b" Reference.c_ne_empty
      Reference.a_ne_b),
    .resolutionAdded ⟨"op-d", "r", "t"⟩ (Reference.scopedSelection "d" "b" "a" "task"
      "2024-01-02T00:00:00Z" Reference.d_ne_empty Reference.b_ne_a)]

/-- After that day the query finds the conflict resolved and the view leaves it unresolved. -/
theorem lapsed_resolved_and_unresolved :
    ∃ state projection conflict,
      materialize (Reference.logOf lapsedOps) .empty [] (some "2024-06-01T00:00:00Z") ∅ =
        .ok state ∧
      buildView state (.ofScope (some "task")) none = .ok projection ∧
      conflict ∈ state.conflicts ∧
      conflict ∈ state.findConflicts { status := some "resolved", scope := some "task" } ∧
      conflict ∈ projection.unresolvedConflicts := by
  have computed : ((materialize (Reference.logOf lapsedOps) .empty []
      (some "2024-06-01T00:00:00Z") ∅).toOption.bind fun state =>
        (buildView state (.ofScope (some "task")) none).toOption.map fun projection =>
          state.conflicts.map fun conflict =>
            decide (conflict ∈ state.findConflicts
              { status := some "resolved", scope := some "task" }) &&
            decide (conflict ∈ projection.unresolvedConflicts)) = some [true] := by
    decide +kernel
  cases run : materialize (Reference.logOf lapsedOps) .empty [] (some "2024-06-01T00:00:00Z") ∅ with
  | error failure =>
      rw [run] at computed
      cases computed
  | ok state =>
      rw [run, Except.toOption, Option.bind_some] at computed
      cases view : buildView state (.ofScope (some "task")) none with
      | error failure =>
          rw [view] at computed
          cases computed
      | ok projection =>
          rw [view] at computed
          injection computed with computed
          obtain ⟨conflict, single, both⟩ := List.map_eq_singleton_iff.mp computed
          simp only [Bool.and_eq_true, decide_eq_true_eq] at both
          refine ⟨state, projection, conflict, rfl, view, ?_, both⟩
          rw [single]
          exact List.mem_singleton_self conflict

/-- Within that day both find it resolved for the scope. -/
theorem resolved_iff_not_unresolved_scoped :
    ∃ state projection conflict,
      materialize (Reference.logOf lapsedOps) .empty [] (some "2024-01-01T12:00:00Z") ∅ =
        .ok state ∧
      buildView state (.ofScope (some "task")) none = .ok projection ∧
      conflict ∈ state.conflicts ∧ conflict ∉ projection.unresolvedConflicts ∧
      ((conflict ∈ state.findConflicts { status := some "resolved", scope := some "task" } ↔
          conflict ∉ projection.unresolvedConflicts) ↔
        ¬(state.Lapsed (some "2024-01-01T12:00:00Z") ⟨conflict.conflictRef, some "task"⟩ ∧
          ∃ resolution, state.effectiveResolutionsByConflictRefAndScope[
            Lane.global conflict.conflictRef]? = some resolution)) := by
  have computed : ((materialize (Reference.logOf lapsedOps) .empty []
      (some "2024-01-01T12:00:00Z") ∅).toOption.bind fun state =>
        (buildView state (.ofScope (some "task")) none).toOption.map fun projection =>
          state.conflicts.map fun conflict =>
            decide (conflict ∉ projection.unresolvedConflicts)) = some [true] := by
    decide +kernel
  cases run : materialize (Reference.logOf lapsedOps) .empty [] (some "2024-01-01T12:00:00Z") ∅ with
  | error failure =>
      rw [run] at computed
      cases computed
  | ok state =>
      rw [run, Except.toOption, Option.bind_some] at computed
      cases view : buildView state (.ofScope (some "task")) none with
      | error failure =>
          rw [view] at computed
          cases computed
      | ok projection =>
          rw [view] at computed
          injection computed with computed
          obtain ⟨conflict, single, settled⟩ := List.map_eq_singleton_iff.mp computed
          have current : conflict ∈ state.conflicts := by
            rw [single]
            exact List.mem_singleton_self conflict
          exact ⟨state, projection, conflict, rfl, view, current, of_decide_eq_true settled,
            resolved_iff_not_unresolved run view current⟩

end Example

end Statefuse
