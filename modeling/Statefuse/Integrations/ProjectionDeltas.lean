import Statefuse.Integrations.Projection
import Statefuse.Materialize.Affected
import Statefuse.Reference

/-!
# Projection deltas

What a repository holds of a canonical state becomes what it should hold of the next one
when it withdraws the deletes of the step's projection delta and stores its upserts: every
record that differs belongs to an affected claim, conflict or resolution.
-/

namespace Statefuse

open Foundation

section Steps

variable [Runtime]

/-! ## The records of a state -/

/-- The ids of the conflicts of its key that a claim is a candidate of. -/
def MemoryState.conflictIdsOf (state : MemoryState) (claim : Claim) : List String :=
  sortBy id (((state.conflictsByKey[claim.key]?.getD []).filter fun conflict =>
    conflict.candidates.any fun candidate => candidate.claimId = claim.claimId).map
      (·.conflictId))

/-- A record that a state is projected to in a namespace. -/
inductive MemoryState.Shows (state : MemoryState) (nameSpace : String) :
    RetrievalRecord → Prop where
  | claim (claim : Claim) (active : claim ∈ state.activeClaimsByKey[claim.key]?.getD [])
      (within : claim.key.nameSpace = nameSpace) :
      Shows state nameSpace (claimRecord claim (state.conflictIdsOf claim))
  | conflict (key : ClaimKey) (conflict : ConflictSet)
      (current : state.conflictsByKey[key]? = some [conflict])
      (within : touches conflict nameSpace = true) :
      Shows state nameSpace (conflictRecord state conflict nameSpace)
  | resolution (resolution : ResolutionRecord) (record : RetrievalRecord)
      (known : state.resolutionsById[resolution.resolutionId]? = some resolution)
      (shown : resolutionRecord state resolution nameSpace = some record) :
      Shows state nameSpace record

private theorem enterCandidates_get (claimId conflictId : String) (candidates : List Claim)
    (distinct : (candidates.map Claim.claimId).Nodup) (byClaim : Dict String (List String)) :
    (candidates.foldl (fun byClaim claim => byClaim.insert claim.claimId
        (sortBy id (byClaim[claim.claimId]?.getD [] ++ [conflictId]))) byClaim)[claimId]?.getD [] =
      if candidates.any fun candidate => candidate.claimId = claimId then
        sortBy id (byClaim[claimId]?.getD [] ++ [conflictId])
      else byClaim[claimId]?.getD [] := by
  induction candidates generalizing byClaim with
  | nil => rfl
  | cons head tail inductionHypothesis =>
      rw [List.map_cons, List.nodup_cons] at distinct
      rw [List.foldl_cons, inductionHypothesis distinct.2, List.any_cons, Dict.get_insert]
      by_cases here : head.claimId = claimId
      · have once : (tail.any fun candidate => decide (candidate.claimId = claimId)) = false := by
          rw [List.any_eq_false]
          intro candidate later same
          refine distinct.1 (List.mem_map.mpr ⟨candidate, later, ?_⟩)
          rw [here]
          exact of_decide_eq_true same
        simp [once, here]
      · simp [here]

/-- The conflicts of a claim, in whatever order they are listed. -/
theorem conflictsByClaim_get (claimId : String) (conflicts : List ConflictSet)
    (distinct : ∀ conflict ∈ conflicts, (conflict.candidates.map Claim.claimId).Nodup) :
    (conflictsByClaim conflicts)[claimId]?.getD [] =
      sortBy id ((conflicts.filter fun conflict =>
        conflict.candidates.any fun candidate => candidate.claimId = claimId).map
          (·.conflictId)) := by
  induction conflicts using List.reverseRecOn with
  | nil => rfl
  | append_singleton init last inductionHypothesis =>
      have earlier := inductionHypothesis
        (fun conflict member => distinct conflict (List.mem_append_left _ member))
      rw [conflictsByClaim, List.foldl_append, List.foldl_cons, List.foldl_nil,
        enterCandidates_get _ _ _ (distinct last (by simp)), ← conflictsByClaim, earlier,
        List.filter_append, List.map_append]
      split
      · rename_i named
        rw [List.filter_cons, if_pos named, List.filter_nil, List.map_singleton]
        exact sortBy_eq_of_perm ((sortBy_perm id _).append_right _) (fun _ _ _ _ same => same)
      · rename_i unnamed
        rw [List.filter_cons, if_neg unnamed, List.filter_nil, List.map_nil, List.append_nil]

namespace MemoryState.Traceable

variable {state : MemoryState}

theorem mem_active (traceable : state.Traceable) (claim : Claim) :
    claim ∈ state.activeClaimsByKey[claim.key]?.getD [] ↔
      state.claimsById[claim.claimId]? = some claim ∧ claim.claimId ∉ state.inactiveClaimIds := by
  obtain ⟨_, tracks⟩ := traceable.tracks
  exact (tracks.active claim.key claim).trans (and_iff_left rfl)

/-- A conflict that names an active claim is a conflict of its key. -/
theorem key_of_candidate (traceable : state.Traceable) {key : ClaimKey} {conflict : ConflictSet}
    (current : state.conflictsByKey[key]? = some [conflict]) {claim candidate : Claim}
    (active : claim ∈ state.activeClaimsByKey[claim.key]?.getD [])
    (member : candidate ∈ conflict.candidates) (same : candidate.claimId = claim.claimId) :
    key = claim.key := by
  obtain ⟨sameKey, bound⟩ := traceable.coherent.among.of_getD
    ((traceable.drawn key conflict current).members candidate member)
  rw [same, ((traceable.mem_active claim).mp active).1, Option.some.injEq] at bound
  rw [bound]
  exact sameKey.symm

/-- The conflicts of an active claim are those of its key. -/
theorem conflictsByClaim_eq (traceable : state.Traceable) {claim : Claim}
    (active : claim ∈ state.activeClaimsByKey[claim.key]?.getD []) :
    (conflictsByClaim state.conflicts)[claim.claimId]?.getD [] = state.conflictIdsOf claim := by
  rw [conflictsByClaim_get, MemoryState.conflictIdsOf, ← traceable.coherent.conflictsAt_eq,
    MemoryState.conflictsAt, List.filter_filter]
  · congr 2
    apply List.filter_congr
    intro conflict listed
    obtain ⟨key, current⟩ := (traceable.coherent.mem_conflicts conflict).mp listed
    rw [Bool.eq_iff_iff, Bool.and_eq_true, decide_eq_true_eq]
    refine (and_iff_left_of_imp ?_).symm
    intro named
    obtain ⟨candidate, member, same⟩ := List.any_eq_true.mp named
    rw [← traceable.key_of_candidate current active member (of_decide_eq_true same)]
    obtain ⟨_, listed, _, _, finding⟩ := traceable.coherent.tables.single key _ current
    rw [List.cons.injEq] at listed
    rw [← listed.1] at finding
    rw [finding.keys]
    exact List.mem_singleton_self key
  · intro conflict listed
    obtain ⟨key, current⟩ := (traceable.coherent.mem_conflicts conflict).mp listed
    exact (traceable.drawn key conflict current).distinct

theorem direct (traceable : state.Traceable) {key : ClaimKey} {conflict : ConflictSet}
    (current : state.conflictsByKey[key]? = some [conflict]) : DirectAt key conflict := by
  obtain ⟨_, listed, direct⟩ := traceable.coherent.tables.single key _ current
  rw [List.cons.injEq] at listed
  rw [listed.1]
  exact direct

theorem mem_projectState (traceable : state.Traceable) {nameSpace : String}
    (record : RetrievalRecord) :
    record ∈ projectState state nameSpace ↔ state.Shows nameSpace record := by
  simp only [projectState, mem_sortBy, List.mem_append, List.mem_map, List.mem_filter,
    List.mem_filterMap, decide_eq_true_eq, or_assoc]
  constructor
  · rintro (⟨claim, ⟨listed, within⟩, same⟩ | ⟨conflict, ⟨listed, within⟩, same⟩ |
      ⟨resolution, listed, shown⟩)
    · obtain ⟨claims, grouped, member⟩ := List.mem_flatten.mp listed
      obtain ⟨key, found⟩ := (Dict.mem_values _ _).mp grouped
      have active : claim ∈ state.activeClaimsByKey[claim.key]?.getD [] := by
        rw [(traceable.coherent.among.known key claims found claim member).1, found]
        exact member
      rw [← same, traceable.conflictsByClaim_eq active]
      exact .claim claim active within
    · obtain ⟨key, current⟩ := (traceable.coherent.mem_conflicts conflict).mp listed
      rw [← same]
      exact .conflict key conflict current within
    · obtain ⟨resolutionId, found⟩ := (Dict.mem_values _ _).mp listed
      have sameId : resolution.resolutionId = resolutionId :=
        traceable.filed.resolutions resolutionId resolution found
      exact .resolution resolution record (by rw [sameId]; exact found) shown
  · intro shows
    cases shows with
    | claim claim active within =>
        refine Or.inl ⟨claim, ⟨?_, within⟩, by rw [traceable.conflictsByClaim_eq active]⟩
        cases found : state.activeClaimsByKey[claim.key]? with
        | none =>
            rw [found] at active
            cases active
        | some claims =>
            rw [found] at active
            exact List.mem_flatten.mpr ⟨claims, (Dict.mem_values _ _).mpr ⟨_, found⟩, active⟩
    | conflict key conflict current within =>
        exact Or.inr (Or.inl ⟨conflict,
          ⟨(traceable.coherent.mem_conflicts conflict).mpr ⟨key, current⟩, within⟩, rfl⟩)
    | resolution resolution record known shown =>
        exact Or.inr (Or.inr ⟨resolution, (Dict.mem_values _ _).mpr ⟨_, known⟩, shown⟩)

end MemoryState.Traceable

/-! ## Projection ids -/

omit [Runtime] in
/-- Texts whose first letters differ are different. -/
private theorem append_ne {first second : String} (count : Nat)
    (firstLong : count ≤ first.toList.length) (secondLong : count ≤ second.toList.length)
    (differ : first.toList.take count ≠ second.toList.take count) (left right : String) :
    first ++ left ≠ second ++ right := by
  intro same
  have letters := congrArg (fun text : String => text.toList.take count) same
  simp only [String.toList_append] at letters
  rw [List.take_append_of_le_length firstLong, List.take_append_of_le_length secondLong] at letters
  exact differ letters

omit [Runtime] in
theorem claim_ne_conflict (claimId conflictId : String) :
    claimProjectionId claimId ≠ conflictProjectionId conflictId :=
  append_ne 12 (by decide +kernel) (by decide +kernel) (by decide +kernel) _ _

omit [Runtime] in
theorem claim_ne_resolution (claimId resolutionId : String) :
    claimProjectionId claimId ≠ resolutionProjectionId resolutionId :=
  append_ne 11 (by decide +kernel) (by decide +kernel) (by decide +kernel) _ _

omit [Runtime] in
theorem conflict_ne_resolution (conflictId resolutionId : String) :
    conflictProjectionId conflictId ≠ resolutionProjectionId resolutionId :=
  append_ne 11 (by decide +kernel) (by decide +kernel) (by decide +kernel) _ _

theorem resolutionRecord_id {state : MemoryState} {resolution : ResolutionRecord}
    {nameSpace : String} {record : RetrievalRecord}
    (shown : resolutionRecord state resolution nameSpace = some record) :
    record.projectionId = resolutionProjectionId resolution.resolutionId := by
  unfold resolutionRecord at shown
  dsimp only at shown
  split at shown
  · injection shown with shown
    rw [← shown]
  · cases shown

namespace MemoryState.Traceable

variable {state : MemoryState} {nameSpace : String}

theorem conflict_of_id (traceable : state.Traceable) (collisionFree : CollisionFree)
    {key other : ClaimKey} {first second : ConflictSet}
    (isFirst : state.conflictsByKey[key]? = some [first])
    (isSecond : state.conflictsByKey[other]? = some [second])
    (same : first.conflictId = second.conflictId) : first = second := by
  have sameKey := (traceable.direct isFirst).eq_of_id collisionFree (traceable.direct isSecond) same
  rw [sameKey, isSecond, Option.some.injEq, List.cons.injEq] at isFirst
  exact isFirst.1.symm

/-- Two records with one projection id are one record. -/
theorem shows_unique (traceable : state.Traceable) (collisionFree : CollisionFree)
    {first second : RetrievalRecord} (isFirst : state.Shows nameSpace first)
    (isSecond : state.Shows nameSpace second) (same : first.projectionId = second.projectionId) :
    first = second := by
  cases isFirst with
  | claim claim active _ =>
      cases isSecond with
      | claim other otherActive _ =>
          have sameId : claim.claimId = other.claimId := (String.append_right_inj _).mp same
          have bound := ((traceable.mem_active claim).mp active).1
          rw [sameId, ((traceable.mem_active other).mp otherActive).1, Option.some.injEq] at bound
          rw [bound]
      | conflict _ _ _ _ => exact absurd same (claim_ne_conflict _ _)
      | resolution _ _ _ shown =>
          exact absurd (same.trans (resolutionRecord_id shown)) (claim_ne_resolution _ _)
  | conflict key conflict current _ =>
      cases isSecond with
      | claim _ _ _ => exact absurd same.symm (claim_ne_conflict _ _)
      | conflict other otherConflict otherCurrent _ =>
          have sameId := (String.append_right_inj _).mp same
          rw [traceable.conflict_of_id collisionFree current otherCurrent sameId]
      | resolution _ _ _ shown =>
          exact absurd (same.trans (resolutionRecord_id shown)) (conflict_ne_resolution _ _)
  | resolution resolution _ known shown =>
      have isResolution := resolutionRecord_id shown
      cases isSecond with
      | claim _ _ _ => exact absurd (same.symm.trans isResolution) (claim_ne_resolution _ _)
      | conflict _ _ _ _ => exact absurd (same.symm.trans isResolution) (conflict_ne_resolution _ _)
      | resolution other _ otherKnown otherShown =>
          rw [isResolution, resolutionRecord_id otherShown] at same
          have sameId : resolution.resolutionId = other.resolutionId :=
            (String.append_right_inj _).mp same
          rw [sameId, otherKnown, Option.some.injEq] at known
          rw [known, shown, Option.some.injEq] at otherShown
          exact otherShown

/-- The projected records by id. -/
theorem projected_lists (traceable : state.Traceable) (collisionFree : CollisionFree)
    (nameSpace : String) :
    Lists (projected state nameSpace) RetrievalRecord.projectionId (state.Shows nameSpace) := by
  refine (Lists.ofItems_of_injective ?_).congr traceable.mem_projectState
  intro first isFirst second isSecond same
  exact traceable.shows_unique collisionFree ((traceable.mem_projectState first).mp isFirst)
    ((traceable.mem_projectState second).mp isSecond) same

end MemoryState.Traceable

/-! ## What the delta stores and withdraws -/

namespace Projecting

variable {state : MemoryState} {nameSpace : String} {projecting : Projecting}

/-- The upserts are records of the state, and the deletes are of no record. -/
structure Sound (state : MemoryState) (nameSpace : String) (projecting : Projecting) : Prop where
  upserts : ∀ (projectionId : String) (record : RetrievalRecord),
    projecting.upserts[projectionId]? = some record →
    state.Shows nameSpace record ∧ record.projectionId = projectionId
  deletes : ∀ projectionId ∈ projecting.deletes, ∀ record, state.Shows nameSpace record →
    record.projectionId ≠ projectionId

theorem Sound.upsert (sound : projecting.Sound state nameSpace) {record : RetrievalRecord}
    (shown : state.Shows nameSpace record) : (projecting.upsert record).Sound state nameSpace := by
  refine ⟨?_, sound.deletes⟩
  intro projectionId other found
  change (projecting.upserts.insert record.projectionId record)[projectionId]? = _ at found
  rw [Dict.get_insert] at found
  split at found
  · rename_i same
    injection found with found
    rw [← found]
    exact ⟨shown, same⟩
  · exact sound.upserts projectionId other found

theorem Sound.delete (sound : projecting.Sound state nameSpace) {projectionId : String}
    (gone : ∀ record, state.Shows nameSpace record → record.projectionId ≠ projectionId) :
    (projecting.delete projectionId).Sound state nameSpace := by
  refine ⟨sound.upserts, ?_⟩
  intro other deleted record shown
  rcases (PySet.mem_insert _ _ _).mp deleted with same | before
  · rw [← same]
    exact gone record shown
  · exact sound.deletes other before record shown

theorem projectClaim_sound (traceable : state.Traceable)
    (sound : projecting.Sound state nameSpace) (claimId : String) :
    (projectClaim state nameSpace projecting claimId).Sound state nameSpace := by
  unfold projectClaim
  cases found : state.claimsById[claimId]? with
  | none => exact sound
  | some claim =>
      have sameId := traceable.coherent.among.keyed claimId claim found
      subst sameId
      dsimp only
      split
      · exact sound
      · rename_i within
        split
        · rename_i gone
          -- An inactive claim has no record.
          refine sound.delete ?_
          intro record shown same
          cases shown with
          | claim other active _ =>
              have sameId : other.claimId = claim.claimId := (String.append_right_inj _).mp same
              rcases gone with inactive | inapplicable
              · rw [← sameId] at inactive
                exact ((traceable.mem_active other).mp active).2 inactive
              · have applicable := traceable.filed.applicable
                change state.inapplicableClaimIds = ∅ at applicable
                rw [applicable] at inapplicable
                simp at inapplicable
          | conflict _ _ _ _ => exact claim_ne_conflict _ _ same.symm
          | resolution _ _ _ shown =>
              exact claim_ne_resolution _ _ (same.symm.trans (resolutionRecord_id shown))
        · rename_i kept
          rw [not_or] at kept
          exact sound.upsert (.claim claim ((traceable.mem_active claim).mpr ⟨found, kept.1⟩)
            (not_not.mp within))

theorem projectConflict_sound (traceable : state.Traceable)
    (sound : projecting.Sound state nameSpace) (conflictId : String) :
    (projectConflict state nameSpace projecting conflictId).Sound state nameSpace := by
  unfold projectConflict
  cases found : state.conflictsById[conflictId]? with
  | none =>
      refine sound.delete ?_
      intro record shown same
      cases shown with
      | claim _ _ _ => exact claim_ne_conflict _ _ same
      | conflict key conflict current _ =>
          have sameId : conflict.conflictId = conflictId := (String.append_right_inj _).mp same
          exact traceable.coherent.tables.listed.get_none.mp found conflict ⟨key, current⟩ sameId
      | resolution _ _ _ shown =>
          exact conflict_ne_resolution _ _ (same.symm.trans (resolutionRecord_id shown))
  | some conflict =>
      obtain ⟨⟨key, current⟩, _⟩ := (traceable.coherent.tables.listed conflictId conflict).mp found
      dsimp only
      split
      · rename_i within
        exact sound.upsert (.conflict key conflict current within)
      · exact sound

theorem projectConflictRef_sound (traceable : state.Traceable)
    (sound : projecting.Sound state nameSpace) (conflictRef : String) :
    (projectConflictRef state nameSpace projecting conflictRef).Sound state nameSpace := by
  unfold projectConflictRef
  cases found : state.conflictsByRef[conflictRef]? with
  | none => exact sound
  | some conflict =>
      obtain ⟨⟨key, current⟩, _⟩ := (traceable.byRef conflictRef conflict).mp found
      dsimp only
      split
      · rename_i within
        exact sound.upsert (.conflict key conflict current within)
      · exact sound

theorem projectResolution_sound (traceable : state.Traceable)
    (sound : projecting.Sound state nameSpace) (resolutionId : String) :
    (projectResolution state nameSpace projecting resolutionId).Sound state nameSpace := by
  unfold projectResolution
  cases found : state.resolutionsById[resolutionId]? with
  | none => exact sound
  | some resolution =>
      have sameId : resolution.resolutionId = resolutionId :=
        traceable.filed.resolutions resolutionId resolution found
      rw [← sameId] at found
      dsimp only
      split
      · exact sound
      · rename_i record shown
        exact sound.upsert (.resolution resolution record found shown)

/-- The projection id is stored or withdrawn. -/
def Handles (projecting : Projecting) (projectionId : String) : Prop :=
  projectionId ∈ projecting.upserts ∨ projectionId ∈ projecting.deletes

variable {projectionId : String}

omit [Runtime] in
theorem Handles.upsert (handled : projecting.Handles projectionId) (record : RetrievalRecord) :
    (projecting.upsert record).Handles projectionId :=
  handled.imp (fun stored => Std.ExtTreeMap.mem_insert.mpr (Or.inr stored)) id

omit [Runtime] in
theorem Handles.delete (handled : projecting.Handles projectionId) (other : String) :
    (projecting.delete other).Handles projectionId :=
  handled.imp id (fun deleted => (PySet.mem_insert _ _ _).mpr (Or.inr deleted))

omit [Runtime] in
theorem handles_upsert (record : RetrievalRecord) :
    (projecting.upsert record).Handles record.projectionId :=
  Or.inl (Std.ExtTreeMap.mem_insert.mpr (Or.inl (compare_eq_iff_eq.mpr rfl)))

omit [Runtime] in
theorem handles_delete (deleted : String) : (projecting.delete deleted).Handles deleted :=
  Or.inr ((PySet.mem_insert _ _ _).mpr (Or.inl rfl))

theorem Handles.projectClaim (handled : projecting.Handles projectionId) (claimId : String) :
    (projecting.projectClaim state nameSpace claimId).Handles projectionId := by
  unfold Projecting.projectClaim
  split
  · exact handled
  · split
    · exact handled
    · split
      · exact handled.delete _
      · exact handled.upsert _

theorem Handles.projectConflict (handled : projecting.Handles projectionId) (conflictId : String) :
    (projecting.projectConflict state nameSpace conflictId).Handles projectionId := by
  unfold Projecting.projectConflict
  split
  · exact handled.delete _
  · split
    · exact handled.upsert _
    · exact handled

theorem Handles.projectConflictRef (handled : projecting.Handles projectionId)
    (conflictRef : String) :
    (projecting.projectConflictRef state nameSpace conflictRef).Handles projectionId := by
  unfold Projecting.projectConflictRef
  split
  · exact handled
  · split
    · exact handled.upsert _
    · exact handled

theorem Handles.projectResolution (handled : projecting.Handles projectionId)
    (resolutionId : String) :
    (projecting.projectResolution state nameSpace resolutionId).Handles projectionId := by
  unfold Projecting.projectResolution
  split
  · exact handled
  · split
    · exact handled
    · exact handled.upsert _

omit [Runtime] in
/-- What one item of a loop handles stays handled to its end. -/
theorem handles_foldl {step : Projecting → String → Projecting}
    (keeps : ∀ (projecting : Projecting) (item : String), projecting.Handles projectionId →
      (step projecting item).Handles projectionId) {items : List String}
    (either : projecting.Handles projectionId ∨
      ∃ item ∈ items, ∀ projecting, (step projecting item).Handles projectionId) :
    (items.foldl step projecting).Handles projectionId := by
  induction items generalizing projecting with
  | nil =>
      rcases either with handled | ⟨_, impossible, _⟩
      · exact handled
      · cases impossible
  | cons head tail inductionHypothesis =>
      rw [List.foldl_cons]
      apply inductionHypothesis
      rcases either with handled | ⟨item, member, handles⟩
      · exact Or.inl (keeps projecting head handled)
      · rcases List.mem_cons.mp member with same | later
        · rw [same] at handles
          exact Or.inl (handles projecting)
        · exact Or.inr ⟨item, later, handles⟩

theorem sound_foldl {step : Projecting → String → Projecting}
    (keeps : ∀ (projecting : Projecting) (item : String), projecting.Sound state nameSpace →
      (step projecting item).Sound state nameSpace) (items : List String)
    (sound : projecting.Sound state nameSpace) :
    (items.foldl step projecting).Sound state nameSpace := by
  induction items generalizing projecting with
  | nil => exact sound
  | cons head tail inductionHypothesis => exact inductionHypothesis (keeps projecting head sound)

theorem handles_claim {claimId : String} {claim : Claim}
    (bound : state.claimsById[claimId]? = some claim) (within : claim.key.nameSpace = nameSpace)
    (sameId : claim.claimId = claimId) :
    (projecting.projectClaim state nameSpace claimId).Handles (claimProjectionId claimId) := by
  unfold Projecting.projectClaim
  rw [bound]
  dsimp only
  rw [if_neg (not_not.mpr within)]
  split
  · exact handles_delete _
  · rw [← sameId]
    exact handles_upsert (claimRecord claim _)

theorem handles_conflict {conflictId : String}
    (within : ∀ conflict, state.conflictsById[conflictId]? = some conflict →
      touches conflict nameSpace = true ∧ conflict.conflictId = conflictId) :
    (projecting.projectConflict state nameSpace conflictId).Handles
      (conflictProjectionId conflictId) := by
  unfold Projecting.projectConflict
  split
  · exact handles_delete _
  · rename_i conflict found
    obtain ⟨touched, sameId⟩ := within conflict found
    rw [if_pos touched, ← sameId]
    exact handles_upsert (conflictRecord state conflict nameSpace)

theorem handles_conflictRef {conflictRef : String} {conflict : ConflictSet}
    (found : state.conflictsByRef[conflictRef]? = some conflict)
    (within : touches conflict nameSpace = true) :
    (projecting.projectConflictRef state nameSpace conflictRef).Handles
      (conflictProjectionId conflict.conflictId) := by
  unfold Projecting.projectConflictRef
  rw [found]
  dsimp only
  rw [if_pos within]
  exact handles_upsert (conflictRecord state conflict nameSpace)

theorem handles_resolution {resolutionId : String} {resolution : ResolutionRecord}
    {record : RetrievalRecord} (found : state.resolutionsById[resolutionId]? = some resolution)
    (shown : resolutionRecord state resolution nameSpace = some record) :
    (projecting.projectResolution state nameSpace resolutionId).Handles record.projectionId := by
  unfold Projecting.projectResolution
  rw [found]
  dsimp only
  rw [shown]
  exact handles_upsert record

/-- What `project_state_delta` has stored and withdrawn after its four loops. -/
def ofDelta (state : MemoryState) (nameSpace : String) (delta : MaterializationDelta) :
    Projecting :=
  let claims := delta.affectedClaimIds.foldl (Projecting.projectClaim state nameSpace) ⟨∅, ∅⟩
  let conflicts := (sortedSet (delta.previousConflictIds ++ delta.currentConflictIds)).foldl
    (Projecting.projectConflict state nameSpace) claims
  let refs :=
    delta.affectedConflictRefs.foldl (Projecting.projectConflictRef state nameSpace) conflicts
  delta.affectedResolutionIds.foldl (Projecting.projectResolution state nameSpace) refs

theorem ofDelta_sound (traceable : state.Traceable) (delta : MaterializationDelta) :
    (ofDelta state nameSpace delta).Sound state nameSpace := by
  have start : Sound state nameSpace ⟨∅, ∅⟩ := ⟨by simp, by simp⟩
  have claims := sound_foldl (fun _ claimId sound => projectClaim_sound traceable sound claimId)
    delta.affectedClaimIds start
  have conflicts := sound_foldl
    (fun _ conflictId sound => projectConflict_sound traceable sound conflictId)
    (sortedSet (delta.previousConflictIds ++ delta.currentConflictIds)) claims
  have refs := sound_foldl
    (fun _ conflictRef sound => projectConflictRef_sound traceable sound conflictRef)
    delta.affectedConflictRefs conflicts
  exact sound_foldl
    (fun _ resolutionId sound => projectResolution_sound traceable sound resolutionId)
    delta.affectedResolutionIds refs

/-- An id that some loop handles is handled in the end. -/
theorem ofDelta_handles {delta : MaterializationDelta}
    (handled : (∃ claimId ∈ delta.affectedClaimIds, ∀ projecting,
        (projectClaim state nameSpace projecting claimId).Handles projectionId) ∨
      (∃ conflictId ∈ sortedSet (delta.previousConflictIds ++ delta.currentConflictIds),
        ∀ projecting,
          (projectConflict state nameSpace projecting conflictId).Handles projectionId) ∨
      (∃ conflictRef ∈ delta.affectedConflictRefs, ∀ projecting,
        (projectConflictRef state nameSpace projecting conflictRef).Handles projectionId) ∨
      ∃ resolutionId ∈ delta.affectedResolutionIds, ∀ projecting,
        (projectResolution state nameSpace projecting resolutionId).Handles projectionId) :
    (ofDelta state nameSpace delta).Handles projectionId := by
  refine handles_foldl (fun _ item held => held.projectResolution item) ?_
  rcases handled with claims | conflicts | refs | resolutions
  · refine Or.inl (handles_foldl (fun _ item held => held.projectConflictRef item) (Or.inl ?_))
    refine handles_foldl (fun _ item held => held.projectConflict item) (Or.inl ?_)
    exact handles_foldl (fun _ item held => held.projectClaim item) (Or.inr claims)
  · refine Or.inl (handles_foldl (fun _ item held => held.projectConflictRef item) (Or.inl ?_))
    exact handles_foldl (fun _ item held => held.projectConflict item) (Or.inr conflicts)
  · exact Or.inl (handles_foldl (fun _ item held => held.projectConflictRef item) (Or.inr refs))
  · exact Or.inr resolutions

end Projecting

/-- The deletes of a projection delta that is no rebuild. -/
def Projecting.withdrawn (projecting : Projecting) : List String :=
  projecting.deletes.toList.filter fun projectionId => !projecting.upserts.contains projectionId

omit [Runtime] in
theorem Projecting.mem_withdrawn (projecting : Projecting) (projectionId : String) :
    projectionId ∈ projecting.withdrawn ↔
      projectionId ∈ projecting.deletes ∧ projecting.upserts[projectionId]? = none := by
  rw [Projecting.withdrawn, List.mem_filter, PySet.mem_toList, Bool.not_eq_true',
    ← Bool.not_eq_true, Std.ExtTreeMap.contains_iff_mem, Dict.mem_iff,
    ← Option.isSome_iff_exists, Option.not_isSome_iff_eq_none]

theorem projectStateDelta_eq (state : MemoryState) (nameSpace : String)
    {delta : MaterializationDelta} (incremental : delta.fullRebuild = false) :
    projectStateDelta state nameSpace delta =
      ⟨Dict.values (Projecting.ofDelta state nameSpace delta).upserts,
        (Projecting.ofDelta state nameSpace delta).withdrawn⟩ := by
  rw [projectStateDelta, if_neg (by rw [incremental]; exact Bool.false_ne_true)]
  rfl

/-! ## Records that a step leaves alone -/

section Step

variable {state next : MemoryState} {delta : MaterializationDelta} {nameSpace : String}

/-- A claim that is not affected is active as before, in the same conflicts. -/
theorem claim_untouched (before : state.Traceable) (after : next.Traceable)
    (traces : delta.Traces state next) {claim : Claim}
    (unmarked : claim.claimId ∉ delta.affectedClaimIds) :
    (claim ∈ state.activeClaimsByKey[claim.key]?.getD [] ↔
        claim ∈ next.activeClaimsByKey[claim.key]?.getD []) ∧
      state.conflictIdsOf claim = next.conflictIdsOf claim := by
  obtain ⟨sameClaim, sameActivity⟩ := traces.claims claim.claimId unmarked
  constructor
  · rw [before.mem_active, after.mem_active, sameClaim, sameActivity]
  · unfold MemoryState.conflictIdsOf
    by_cases marked : claim.key ∈ delta.affectedKeys
    · -- Neither the old nor the new conflict of an affected key names the claim.
      have unnamed : ∀ {conflicts : List ConflictSet}, (∀ conflict ∈ conflicts,
          ∀ candidate ∈ conflict.candidates, candidate.claimId ∈ delta.affectedClaimIds) →
          conflicts.filter (fun conflict =>
            conflict.candidates.any fun candidate => candidate.claimId = claim.claimId) = [] := by
        intro conflicts all
        rw [List.filter_eq_nil_iff]
        intro conflict listed named
        obtain ⟨candidate, member, same⟩ := List.any_eq_true.mp named
        rw [← of_decide_eq_true same] at unmarked
        exact unmarked (all conflict listed candidate member)
      obtain ⟨old, oldListed, oldReport, _⟩ := before.coherent.tables.at_key claim.key
      obtain ⟨new, newListed, newReport, _⟩ := after.coherent.tables.at_key claim.key
      rw [oldListed, newListed, unnamed, unnamed]
      · intro conflict listed
        exact (traces.current claim.key marked conflict
          ((newReport conflict).mpr (Option.mem_toList.mp listed))).2
      · intro conflict listed
        exact (traces.previous claim.key marked conflict
          ((oldReport conflict).mpr (Option.mem_toList.mp listed))).2
    · rw [traces.unmarked claim.key marked]

/-- A conflict whose reference is not affected has the same record. -/
theorem conflictRecord_untouched (traces : delta.Traces state next) {conflict : ConflictSet}
    (unaffected : conflict.conflictRef ∉ delta.affectedConflictRefs) :
    conflictRecord state conflict nameSpace = conflictRecord next conflict nameSpace := by
  have same : state.globalStatus conflict = next.globalStatus conflict := by
    unfold MemoryState.globalStatus
    rw [traces.statuses (Lane.global conflict.conflictRef) unaffected]
  unfold conflictRecord
  rw [same]

/-- A resolution of known claims whose reference is not affected has the same record. -/
theorem resolutionRecord_untouched (traces : delta.Traces state next)
    {resolution : ResolutionRecord}
    (unaffected : resolution.conflictRef ∉ delta.affectedConflictRefs)
    (sameClaims : ∀ claimId ∈ resolution.claimIds,
      next.claimsById[claimId]? = state.claimsById[claimId]?) :
    resolutionRecord state resolution nameSpace = resolutionRecord next resolution nameSpace := by
  have within : ((sortedSet resolution.claimIds).any fun claimId =>
      state.claimsById[claimId]?.any fun claim => claim.key.nameSpace = nameSpace) =
      (sortedSet resolution.claimIds).any fun claimId =>
        next.claimsById[claimId]?.any fun claim => claim.key.nameSpace = nameSpace := by
    rw [Bool.eq_iff_iff, List.any_eq_true, List.any_eq_true]
    apply exists_congr
    intro claimId
    apply and_congr_right
    intro listed
    rw [sameClaims claimId (mem_sortedSet.mp listed)]
  unfold resolutionRecord
  dsimp only
  rw [within, traces.statuses resolution.lane unaffected]

/-- Conflicts of one id touch the same namespaces. -/
theorem touches_of_id (after : next.Traceable) (collisionFree : CollisionFree) {key : ClaimKey}
    {conflict : ConflictSet} (direct : DirectAt key conflict)
    (within : touches conflict nameSpace = true) {other : ConflictSet}
    (found : next.conflictsById[conflict.conflictId]? = some other) :
    touches other nameSpace = true ∧ other.conflictId = conflict.conflictId := by
  obtain ⟨⟨place, current⟩, sameId⟩ :=
    (after.coherent.tables.listed conflict.conflictId other).mp found
  refine ⟨?_, sameId⟩
  have sameKey := (after.direct current).eq_of_id collisionFree direct sameId
  obtain ⟨_, _, otherFinding⟩ := after.direct current
  obtain ⟨_, _, finding⟩ := direct
  rw [touches, finding.keys] at within
  rw [touches, otherFinding.keys, sameKey]
  exact within

/-- A conflict that the delta does not handle is in both states with the same record. -/
theorem conflict_untouched (after : next.Traceable) (collisionFree : CollisionFree)
    (traces : delta.Traces state next) {key : ClaimKey} {conflict : ConflictSet}
    (direct : DirectAt key conflict) (within : touches conflict nameSpace = true)
    (unhandled : ¬(Projecting.ofDelta next nameSpace delta).Handles
      (conflictProjectionId conflict.conflictId))
    (either : state.conflictsByKey[key]? = some [conflict] ∨
      next.conflictsByKey[key]? = some [conflict]) :
    (state.conflictsByKey[key]? = some [conflict] ∧ next.conflictsByKey[key]? = some [conflict]) ∧
      conflictRecord state conflict nameSpace = conflictRecord next conflict nameSpace := by
  have unmarked : key ∉ delta.affectedKeys := by
    intro marked
    have reported : conflict.conflictId ∈ delta.previousConflictIds ++ delta.currentConflictIds :=
      List.mem_append.mpr (either.imp (fun old => (traces.previous key marked conflict old).1)
        (fun new => (traces.current key marked conflict new).1))
    exact unhandled (Projecting.ofDelta_handles (Or.inr (Or.inl ⟨conflict.conflictId,
      mem_sortedSet.mpr reported, fun _ => Projecting.handles_conflict
        (fun other found => touches_of_id after collisionFree direct within found)⟩)))
  have same := traces.unmarked key unmarked
  have both : state.conflictsByKey[key]? = some [conflict] ∧
      next.conflictsByKey[key]? = some [conflict] := by
    rcases either with old | new
    · exact ⟨old, same.trans old⟩
    · exact ⟨same.symm.trans new, new⟩
  refine ⟨both, conflictRecord_untouched traces ?_⟩
  intro affected
  exact unhandled (Projecting.ofDelta_handles (Or.inr (Or.inr (Or.inl ⟨conflict.conflictRef,
    affected, fun _ => Projecting.handles_conflictRef
      (after.byRef.get_key ⟨key, both.2⟩) within⟩))))

/-- A claim that the delta does not handle is not affected. -/
theorem unmarked_of_unhandled {claim : Claim}
    (bound : next.claimsById[claim.claimId]? = some claim)
    (within : claim.key.nameSpace = nameSpace)
    (unhandled : ¬(Projecting.ofDelta next nameSpace delta).Handles
      (claimProjectionId claim.claimId)) : claim.claimId ∉ delta.affectedClaimIds := by
  intro marked
  exact unhandled (Projecting.ofDelta_handles (Or.inl ⟨claim.claimId, marked,
    fun _ => Projecting.handles_claim bound within rfl⟩))

/-- A resolution that the delta does not handle was there with the same record. -/
theorem resolution_untouched (traces : delta.Traces state next) {resolution : ResolutionRecord}
    {record : RetrievalRecord}
    (known : next.resolutionsById[resolution.resolutionId]? = some resolution)
    (shown : resolutionRecord next resolution nameSpace = some record)
    (unhandled : ¬(Projecting.ofDelta next nameSpace delta).Handles record.projectionId) :
    state.resolutionsById[resolution.resolutionId]? = some resolution ∧
      resolutionRecord state resolution nameSpace = some record := by
  have unmarked : resolution.resolutionId ∉ delta.affectedResolutionIds := by
    intro marked
    exact unhandled (Projecting.ofDelta_handles (Or.inr (Or.inr (Or.inr
      ⟨resolution.resolutionId, marked, fun _ => Projecting.handles_resolution known shown⟩))))
  obtain ⟨before, unaffected, sameClaims⟩ := traces.resolutions resolution known unmarked
  exact ⟨before, (resolutionRecord_untouched traces unaffected sameClaims).trans shown⟩

/-- A resolution that had a record has one again. -/
theorem resolutionRecord_remains (traces : delta.Traces state next)
    {resolution : ResolutionRecord} {record : RetrievalRecord}
    (shown : resolutionRecord state resolution nameSpace = some record) :
    ∃ later, resolutionRecord next resolution nameSpace = some later := by
  unfold resolutionRecord at shown ⊢
  dsimp only at shown ⊢
  split at shown
  · rename_i within
    rw [if_pos]
    · exact ⟨_, rfl⟩
    · obtain ⟨claimId, listed, named⟩ := List.any_eq_true.mp within
      refine List.any_eq_true.mpr ⟨claimId, listed, ?_⟩
      cases found : state.claimsById[claimId]? with
      | none =>
          rw [found] at named
          cases named
      | some claim =>
          rw [found] at named
          rw [traces.bound claimId claim found]
          exact named
  · cases shown

/-- A record that the delta does not handle is a record of both states or of neither. -/
theorem shows_untouched (before : state.Traceable) (after : next.Traceable)
    (collisionFree : CollisionFree) (traces : delta.Traces state next) {record : RetrievalRecord}
    (unhandled : ¬(Projecting.ofDelta next nameSpace delta).Handles record.projectionId) :
    state.Shows nameSpace record ↔ next.Shows nameSpace record := by
  constructor
  · intro shown
    cases shown with
    | claim claim active within =>
        have bound := traces.bound _ _ ((before.mem_active claim).mp active).1
        obtain ⟨sameActivity, sameConflicts⟩ := claim_untouched before after traces
          (unmarked_of_unhandled bound within unhandled)
        rw [sameConflicts]
        exact .claim claim (sameActivity.mp active) within
    | conflict key conflict current within =>
        obtain ⟨⟨_, remains⟩, sameRecord⟩ := conflict_untouched after collisionFree traces
          (before.direct current) within unhandled (Or.inl current)
        rw [sameRecord]
        exact .conflict key conflict remains within
    | resolution resolution _ known shown =>
        obtain ⟨later, laterShown⟩ := resolutionRecord_remains traces shown
        have sameId := (resolutionRecord_id laterShown).trans (resolutionRecord_id shown).symm
        have remains := traces.resolved _ _ known
        rw [← sameId] at unhandled
        have same := (resolution_untouched traces remains laterShown unhandled).2
        rw [shown, Option.some.injEq] at same
        rw [same]
        exact .resolution resolution later remains laterShown
  · intro shown
    cases shown with
    | claim claim active within =>
        have bound := ((after.mem_active claim).mp active).1
        obtain ⟨sameActivity, sameConflicts⟩ := claim_untouched before after traces
          (unmarked_of_unhandled bound within unhandled)
        rw [← sameConflicts]
        exact .claim claim (sameActivity.mpr active) within
    | conflict key conflict current within =>
        obtain ⟨⟨was, _⟩, sameRecord⟩ := conflict_untouched after collisionFree traces
          (after.direct current) within unhandled (Or.inr current)
        rw [← sameRecord]
        exact .conflict key conflict was within
    | resolution resolution _ known shown =>
        obtain ⟨was, sameRecord⟩ := resolution_untouched traces known shown unhandled
        exact .resolution resolution record was sameRecord

end Step

/-! ## Applying the delta -/

/-- The records of a repository once it has withdrawn the deletes and stored the upserts. -/
def ProjectionDelta.apply (delta : ProjectionDelta) (records : Dict String RetrievalRecord) :
    Dict String RetrievalRecord :=
  delta.upserts.foldl (fun records record => records.insert record.projectionId record)
    (delta.deletes.foldl (fun records projectionId => records.erase projectionId) records)

section Apply

variable {records : Dict String RetrievalRecord}

omit [Runtime] in
theorem withdraw_get (deletes : List String) (projectionId : String) :
    (deletes.foldl (fun records deleted => records.erase deleted) records)[projectionId]? =
      if projectionId ∈ deletes then none else records[projectionId]? := by
  induction deletes generalizing records with
  | nil => simp
  | cons head tail inductionHypothesis =>
      rw [List.foldl_cons, inductionHypothesis, Dict.get_erase]
      by_cases here : head = projectionId
      · simp [here]
      · simp [here, Ne.symm here]

omit [Runtime] in
theorem store_get (upserts : List RetrievalRecord) (projectionId : String) :
    (upserts.foldl (fun records record => records.insert record.projectionId record)
        records)[projectionId]? =
      ((Dict.ofItems RetrievalRecord.projectionId upserts)[projectionId]?).or
        records[projectionId]? := by
  induction upserts using List.reverseRecOn with
  | nil => simp [Dict.ofItems]
  | append_singleton init last inductionHypothesis =>
      rw [Dict.ofItems, List.foldl_append, List.foldl_append, List.foldl_cons, List.foldl_nil,
        List.foldl_cons, List.foldl_nil, Dict.get_insert, Dict.get_insert]
      split
      · rfl
      · exact inductionHypothesis

end Apply

/-- What a traced step does to a projection id: its record is stored, it is withdrawn, or
nothing happens and nothing has changed. -/
theorem projection_cases (collisionFree : CollisionFree) {state next : MemoryState}
    (before : state.Traceable) (after : next.Traceable) {delta : MaterializationDelta}
    (traces : delta.Traces state next) (nameSpace projectionId : String) :
    (∃ record, (Projecting.ofDelta next nameSpace delta).upserts[projectionId]? = some record ∧
        (projected next nameSpace)[projectionId]? = some record) ∨
      ((Projecting.ofDelta next nameSpace delta).upserts[projectionId]? = none ∧
        projectionId ∈ (Projecting.ofDelta next nameSpace delta).withdrawn ∧
        (projected next nameSpace)[projectionId]? = none) ∨
      ((Projecting.ofDelta next nameSpace delta).upserts[projectionId]? = none ∧
        projectionId ∉ (Projecting.ofDelta next nameSpace delta).withdrawn ∧
        (projected state nameSpace)[projectionId]? =
          (projected next nameSpace)[projectionId]?) := by
  have lists := after.projected_lists collisionFree nameSpace
  have unhandled : ∀ record : RetrievalRecord,
      ¬(Projecting.ofDelta next nameSpace delta).Handles record.projectionId →
      (state.Shows nameSpace record ↔ next.Shows nameSpace record) :=
    fun record => shows_untouched before after collisionFree traces
  have sound : (Projecting.ofDelta next nameSpace delta).Sound next nameSpace :=
    Projecting.ofDelta_sound after delta
  generalize Projecting.ofDelta next nameSpace delta = projecting at sound unhandled ⊢
  cases upserted : projecting.upserts[projectionId]? with
  | some record =>
      obtain ⟨shown, sameId⟩ := sound.upserts projectionId record upserted
      exact Or.inl ⟨record, rfl, by rw [← sameId, lists.get_key shown]⟩
  | none =>
      right
      rw [Projecting.mem_withdrawn, upserted]
      by_cases deleted : projectionId ∈ projecting.deletes
      · exact Or.inl ⟨rfl, ⟨deleted, rfl⟩, lists.get_none.mpr (sound.deletes projectionId deleted)⟩
      · refine Or.inr ⟨rfl, fun withdrawn => deleted withdrawn.1, ?_⟩
        apply Option.ext
        intro record
        rw [before.projected_lists collisionFree nameSpace projectionId record,
          lists projectionId record]
        apply and_congr_left
        intro sameId
        refine unhandled record ?_
        rw [sameId]
        refine fun handled => handled.elim (fun stored => ?_) deleted
        obtain ⟨_, found⟩ := (Dict.mem_iff _ _).mp stored
        rw [upserted] at found
        cases found

/-- The upserts are filed under their ids. -/
theorem Projecting.ofDelta_keyed {state : MemoryState} (traceable : state.Traceable)
    (nameSpace : String) (delta : MaterializationDelta) :
    Keyed (Projecting.ofDelta state nameSpace delta).upserts RetrievalRecord.projectionId :=
  fun projectionId record found =>
    ((Projecting.ofDelta_sound traceable delta).upserts projectionId record found).2

/-- A repository that holds the records of a canonical state holds those of the next one
once it has applied the projection delta of the step: no record of a claim, a conflict or a
resolution is stale, missing or superfluous. -/
theorem projectStateDelta_exact (collisionFree : CollisionFree) {state next : MemoryState}
    (canonical : state.Canonical) {ops : List Op} {delta : MaterializationDelta}
    (run : applyOperationsIncrementally state ops [] = .ok (next, delta)) (nameSpace : String) :
    (projectStateDelta next nameSpace delta).apply (projected state nameSpace) =
      projected next nameSpace := by
  have before := canonical.traceable collisionFree
  obtain ⟨after, traces⟩ := applyOperations_traces collisionFree before run
  have cases := projection_cases collisionFree before after traces nameSpace
  have keyed := Projecting.ofDelta_keyed after nameSpace delta
  rw [projectStateDelta_eq next nameSpace (incremental_of_run run)]
  generalize Projecting.ofDelta next nameSpace delta = projecting at cases keyed ⊢
  have stored : Dict.ofItems RetrievalRecord.projectionId (Dict.values projecting.upserts) =
      projecting.upserts :=
    (Lists.ofItems (keyed.lists.values_distinct.imp (fun below => ne_of_lt below))).unique
      keyed.lists
  apply Dict.ext
  intro projectionId
  rw [ProjectionDelta.apply, store_get, withdraw_get, stored]
  rcases cases projectionId with ⟨record, upserted, current⟩ | ⟨unstored, withdrawn, current⟩ |
    ⟨unstored, kept, unchanged⟩
  · rw [upserted, current, Option.some_or]
  · rw [unstored, current, Option.none_or, if_pos withdrawn]
  · rw [unstored, Option.none_or, if_neg kept, unchanged]

end Steps

section Example

attribute [local instance] Reference.runtime

private theorem droppedCheck : RetractionFields.check
    ⟨⟨"op-e", "r", "t"⟩, some "d", none, [], "dropped", none, none, none, none⟩ = .ok () := rfl

private def dropped : ClaimRetracted where
  opId := "op-e"
  replicaId := "r"
  timestamp := "t"
  targetClaimId := some "d"
  targetClaimRef := none
  evidenceIds := []
  reason := "dropped"
  supersedesClaimId := none
  supersedesClaimRef := none
  signingKeyId := none
  signature := none
  checked := droppedCheck

/-- Two claims disagree, and a third one is already rejected. -/
private def earlierOps : List Op :=
  [.claimAdded ⟨"op-a", "r", "t"⟩ (Reference.fact "a" Reference.key (.str "x") []),
    .claimAdded ⟨"op-d", "r", "t"⟩ (Reference.fact "d" Reference.key (.str "z") []),
    .resolutionAdded ⟨"op-c", "r", "t"⟩ (Reference.selection "c" "a" "b" Reference.c_ne_empty
      Reference.a_ne_b)]

/-- The rejected claim arrives, and one of the others is retracted. -/
private def laterOps : List Op :=
  [.claimRetracted dropped,
    .claimAdded ⟨"op-b", "r", "t"⟩ (Reference.fact "b" Reference.key (.str "y") [])]

private def laterDelta : Option (List (List String) × Nat) := do
  let state ← (materialize (Reference.logOf earlierOps) .empty [] none ∅).toOption
  let (next, delta) ← (applyOperationsIncrementally state laterOps []).toOption
  let projection := projectStateDelta next "n" delta
  return (projection.upserts.map RetrievalRecord.claimIds, projection.deletes.length)

/-- Both claims, their conflict and the resolution are stored; the retracted claim and its
conflict are withdrawn. -/
theorem projectStateDelta_exact_late : ∃ state next delta,
    materialize (Reference.logOf earlierOps) .empty [] none ∅ = .ok state ∧
      applyOperationsIncrementally state laterOps [] = .ok (next, delta) ∧
      (projectStateDelta next "n" delta).upserts.map RetrievalRecord.claimIds =
        [["a"], ["b"], ["a", "b"], ["a", "b"]] ∧
      (projectStateDelta next "n" delta).deletes.length = 2 ∧
      (projectStateDelta next "n" delta).apply (projected state "n") = projected next "n" := by
  have computed : laterDelta = some ([["a"], ["b"], ["a", "b"], ["a", "b"]], 2) := by
    decide +kernel
  unfold laterDelta at computed
  cases run : materialize (Reference.logOf earlierOps) .empty [] none ∅ with
  | error failure =>
      rw [run] at computed
      cases computed
  | ok state =>
      rw [run] at computed
      cases step : applyOperationsIncrementally state laterOps [] with
      | error failure =>
          simp [Except.toOption, step] at computed
      | ok result =>
          obtain ⟨next, delta⟩ := result
          simp only [Except.toOption, step, Option.bind_eq_bind, Option.bind_some,
            Option.pure_def, Option.some.injEq, Prod.mk.injEq] at computed
          exact ⟨state, next, delta, rfl, step, computed.1, computed.2,
            projectStateDelta_exact Reference.collisionFree (.full run) step "n"⟩

end Example

end Statefuse
