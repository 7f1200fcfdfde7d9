import Statefuse.Materialize.Tombstones

/-!
# What the marks of a step cover

A claim that a step does not mark is active after the step when it was before, with the
same conflicts, and a resolution that the step does not mark is about claims that were
known before.  The tables that this rests on fit together in every canonical state
(`MemoryState.Canonical`), whatever records its log binds.
-/

namespace Statefuse

open Foundation

variable [Runtime]

/-! ## The first loop -/

namespace Working

/-- Every claim applies, and every resolution is filed under its reference and under the
claims it names. -/
structure Filed (working : Working) : Prop where
  applicable : working.inapplicableClaimIds = ∅
  resolutions : Keyed working.resolutionsById (·.resolutionId)
  byRef : ∀ resolution : ResolutionRecord,
    working.resolutionsById[resolution.resolutionId]? = some resolution →
    resolution ∈ working.resolutionsByRef[resolution.conflictRef]?.getD []
  byClaim : ∀ resolution : ResolutionRecord,
    working.resolutionsById[resolution.resolutionId]? = some resolution →
    ∀ claimId ∈ resolution.claimIds,
      resolution.resolutionId ∈ working.resolutionIdsByClaimId[claimId]?.getD ∅

/-- The marks cover the difference between two working copies. -/
structure Traces (start next : Working) : Prop where
  claimIds : ∀ claimId ∈ start.affectedClaimIds, claimId ∈ next.affectedClaimIds
  resolutionIds : ∀ resolutionId ∈ start.affectedResolutionIds,
    resolutionId ∈ next.affectedResolutionIds
  resolved : ∀ (resolutionId : String) (resolution : ResolutionRecord),
    start.resolutionsById[resolutionId]? = some resolution →
    next.resolutionsById[resolutionId]? = some resolution
  claims : ∀ claimId : String, claimId ∉ next.affectedClaimIds →
    next.claimsById[claimId]? = start.claimsById[claimId]? ∧
      (claimId ∈ next.inactiveClaimIds ↔ claimId ∈ start.inactiveClaimIds)
  resolutions : ∀ resolution : ResolutionRecord,
    next.resolutionsById[resolution.resolutionId]? = some resolution →
    resolution.resolutionId ∉ next.affectedResolutionIds →
    start.resolutionsById[resolution.resolutionId]? = some resolution ∧
      ∀ claimId ∈ resolution.claimIds, next.claimsById[claimId]? = start.claimsById[claimId]?

namespace Traces

theorem refl (working : Working) : Traces working working :=
  ⟨fun _ => id, fun _ => id, fun _ _ => id, fun _ _ => ⟨rfl, Iff.rfl⟩,
    fun _ bound _ => ⟨bound, fun _ _ => rfl⟩⟩

theorem trans {first second third : Working} (before : Traces first second)
    (after : Traces second third) : Traces first third where
  claimIds := fun claimId marked => after.claimIds claimId (before.claimIds claimId marked)
  resolutionIds := fun resolutionId marked =>
    after.resolutionIds resolutionId (before.resolutionIds resolutionId marked)
  resolved := fun resolutionId resolution bound =>
    after.resolved resolutionId resolution (before.resolved resolutionId resolution bound)
  claims := by
    intro claimId unmarked
    obtain ⟨sameClaim, sameActivity⟩ := after.claims claimId unmarked
    obtain ⟨oldClaim, oldActivity⟩ :=
      before.claims claimId (fun marked => unmarked (after.claimIds claimId marked))
    exact ⟨sameClaim.trans oldClaim, sameActivity.trans oldActivity⟩
  resolutions := by
    intro resolution bound unmarked
    obtain ⟨between, sameClaims⟩ := after.resolutions resolution bound unmarked
    obtain ⟨old, oldClaims⟩ := before.resolutions resolution between
      (fun marked => unmarked (after.resolutionIds resolution.resolutionId marked))
    exact ⟨old, fun claimId named => (sameClaims claimId named).trans (oldClaims claimId named)⟩

end Traces

/-- Claims, resolutions and the marks of either are as they were. -/
structure Agrees (first second : Working) : Prop where
  claims : second.claimsById = first.claimsById
  inactive : second.inactiveClaimIds = first.inactiveClaimIds
  inapplicable : second.inapplicableClaimIds = first.inapplicableClaimIds
  resolutions : second.resolutionsById = first.resolutionsById
  byRef : second.resolutionsByRef = first.resolutionsByRef
  byClaim : second.resolutionIdsByClaimId = first.resolutionIdsByClaimId
  claimIds : second.affectedClaimIds = first.affectedClaimIds
  resolutionIds : second.affectedResolutionIds = first.affectedResolutionIds

variable {working next : Working} {registry : PredicateRegistry}

theorem Agrees.traced (agrees : Agrees working next) (filed : working.Filed) :
    next.Filed ∧ Traces working next := by
  constructor
  · constructor
    · rw [agrees.inapplicable]
      exact filed.applicable
    · rw [agrees.resolutions]
      exact filed.resolutions
    · rw [agrees.resolutions, agrees.byRef]
      exact filed.byRef
    · rw [agrees.resolutions, agrees.byClaim]
      exact filed.byClaim
  · refine ⟨?_, ?_, ?_, ?_, ?_⟩
    · rw [agrees.claimIds]
      exact fun _ => id
    · rw [agrees.resolutionIds]
      exact fun _ => id
    · rw [agrees.resolutions]
      exact fun _ _ => id
    · rw [agrees.claims, agrees.inactive]
      exact fun _ _ => ⟨rfl, Iff.rfl⟩
    · rw [agrees.resolutions, agrees.claims]
      exact fun _ bound _ => ⟨bound, fun _ _ => rfl⟩

omit [Runtime] in
/-- A record is new, or the table is as it was. -/
theorem insertImmutable_cases {α : Type} [PyEq α] {mapping table : Dict String α} {key : String}
    {value : α} {name : String} {inserted : Bool}
    (run : insertImmutable mapping key value name = .ok (table, inserted)) :
    (table = mapping ∧ inserted = false) ∨
      (mapping[key]? = none ∧ table = mapping.insert key value ∧ inserted = true) := by
  unfold insertImmutable at run
  cases found : mapping[key]? with
  | none =>
      rw [found] at run
      injection run with run
      injection run with sameTable sameFlag
      exact Or.inr ⟨rfl, sameTable.symm, sameFlag.symm⟩
  | some existing =>
      rw [found] at run
      simp only at run
      split at run
      · injection run with run
        injection run with sameTable sameFlag
        exact Or.inl ⟨sameTable.symm, sameFlag.symm⟩
      · cases run

/-- A new claim marks the resolutions that named it before it arrived. -/
theorem applyClaim_traced {claim : Claim} (filed : working.Filed)
    (run : applyClaim registry working claim = .ok next) :
    next.Filed ∧ Traces working next := by
  rw [applyClaim, bind_ok_iff] at run
  obtain ⟨⟨table, inserted⟩, bound, run⟩ := run
  rcases insertImmutable_cases bound with ⟨sameTable, notInserted⟩ | ⟨_, sameTable, isInserted⟩
  · subst sameTable notInserted
    injection run with run
    rw [← run]
    exact Agrees.traced ⟨rfl, rfl, rfl, rfl, rfl, rfl, rfl, rfl⟩ filed
  subst sameTable isInserted
  injection run with run
  subst run
  refine ⟨⟨filed.applicable, filed.resolutions, filed.byRef, filed.byClaim⟩,
    ⟨?_, ?_, fun _ _ => id, ?_, ?_⟩⟩
  · exact fun claimId marked => (PySet.mem_insert _ _ _).mpr (Or.inr marked)
  · exact fun resolutionId marked => mem_addAll.mpr (Or.inl marked)
  · intro claimId unmarked
    dsimp only at unmarked ⊢
    rw [PySet.mem_insert, not_or] at unmarked
    rw [Dict.get_insert, if_neg unmarked.1]
    refine ⟨rfl, ?_⟩
    split
    · rw [PySet.mem_insert]
      exact or_iff_right unmarked.1
    · exact Iff.rfl
  · intro resolution known unmarked
    refine ⟨known, ?_⟩
    intro claimId named
    dsimp only at unmarked ⊢
    rw [Dict.get_insert, if_neg]
    intro same
    refine unmarked (mem_addAll.mpr (Or.inr ((PySet.mem_toList _ _).mpr ?_)))
    rw [same]
    exact filed.byClaim resolution known claimId named

omit [Runtime] in
theorem mem_addUnder {index : Dict String (PySet String)} {keys : List String} {value : String}
    (wanted other : String) :
    other ∈ (addUnder index keys value)[wanted]?.getD ∅ ↔
      other ∈ index[wanted]?.getD ∅ ∨ (wanted ∈ keys ∧ other = value) := by
  induction keys generalizing index with
  | nil => simp [addUnder]
  | cons head tail inductionHypothesis =>
      have one : addUnder index (head :: tail) value =
          addUnder (addTo index head value) tail value := rfl
      rw [one, inductionHypothesis, mem_addTo, List.mem_cons, or_assoc, or_and_right]

theorem applyResolution_traced {resolution : ResolutionRecord} (filed : working.Filed)
    (run : working.applyResolution resolution = .ok next) :
    next.Filed ∧ Traces working next := by
  rw [applyResolution, bind_ok_iff] at run
  obtain ⟨⟨table, inserted⟩, bound, run⟩ := run
  rcases insertImmutable_cases bound with ⟨sameTable, notInserted⟩ | ⟨new, sameTable, isInserted⟩
  · subst sameTable notInserted
    injection run with run
    rw [← run]
    exact Agrees.traced ⟨rfl, rfl, rfl, rfl, rfl, rfl, rfl, rfl⟩ filed
  subst sameTable isInserted
  injection run with run
  subst run
  have earlier : ∀ other : ResolutionRecord,
      (working.resolutionsById.insert resolution.resolutionId resolution)[other.resolutionId]? =
        some other →
      working.resolutionsById[other.resolutionId]? = some other ∨ other = resolution := by
    intro other known
    rw [Dict.get_insert] at known
    split at known
    · injection known with known
      exact Or.inr known.symm
    · exact Or.inl known
  refine ⟨⟨filed.applicable, filed.resolutions.insert resolution, ?_, ?_⟩,
    ⟨fun _ => id, ?_, ?_, fun _ _ => ⟨rfl, Iff.rfl⟩, ?_⟩⟩
  · intro other known
    dsimp only
    rw [insertSorted, Dict.get_insert]
    split
    · rename_i here
      rw [Option.getD_some, mem_sortBy, List.mem_append, List.mem_singleton, here]
      exact (earlier other known).imp (filed.byRef other) id
    · rename_i apart
      rcases earlier other known with old | same
      · exact filed.byRef other old
      · exact absurd (by rw [same]) apart
  · intro other known claimId named
    dsimp only
    rw [mem_addUnder]
    rcases earlier other known with old | same
    · exact Or.inl (filed.byClaim other old claimId named)
    · rw [same] at named ⊢
      exact Or.inr ⟨named, rfl⟩
  · exact fun resolutionId marked => (PySet.mem_insert _ _ _).mpr (Or.inr marked)
  · intro resolutionId other known
    dsimp only
    rw [Dict.get_insert, if_neg]
    · exact known
    · intro same
      rw [← same, new] at known
      cases known
  · intro other known unmarked
    dsimp only at unmarked
    rw [PySet.mem_insert, not_or] at unmarked
    rcases earlier other known with old | same
    · exact ⟨old, fun _ _ => rfl⟩
    · exact absurd (by rw [same]) unmarked.1

/-- A retraction marks the claims it makes inactive, known or not. -/
theorem applyRetraction_traced (filed : working.Filed) (retraction : ClaimRetracted) :
    (working.applyRetraction retraction).Filed ∧
      Traces working (working.applyRetraction retraction) := by
  have spec : Deactivated (working.recordRetraction retraction)
      (working.applyRetraction retraction)
      ((working.recordRetraction retraction).retractionTargets retraction).toList :=
    deactivate_all _
  generalize ((working.recordRetraction retraction).retractionTargets retraction).toList = targets
    at spec
  generalize working.applyRetraction retraction = next at spec
  have claims : next.claimsById = working.claimsById := by
    rw [spec.eq]
    rfl
  have resolutions : next.resolutionsById = working.resolutionsById := by
    rw [spec.eq]
    rfl
  have byRef : next.resolutionsByRef = working.resolutionsByRef := by
    rw [spec.eq]
    rfl
  have byClaim : next.resolutionIdsByClaimId = working.resolutionIdsByClaimId := by
    rw [spec.eq]
    rfl
  have resolutionIds : next.affectedResolutionIds = working.affectedResolutionIds := by
    rw [spec.eq]
    rfl
  have claimIds : ∀ claimId, claimId ∉ next.affectedClaimIds →
      (claimId ∉ working.affectedClaimIds ∧ truthy retraction.targetClaimId ≠ some claimId) ∧
        ¬(claimId ∈ targets ∧
          ∃ claim, (working.recordRetraction retraction).claimsById[claimId]? = some claim) := by
    intro claimId unmarked
    rw [spec.claimIds, mem_recorded_claimIds, not_or, not_or] at unmarked
    exact unmarked
  refine ⟨⟨spec.inapplicable filed.applicable, ?_, ?_, ?_⟩, ⟨?_, ?_, ?_, ?_, ?_⟩⟩
  · rw [resolutions]
    exact filed.resolutions
  · rw [resolutions, byRef]
    exact filed.byRef
  · rw [resolutions, byClaim]
    exact filed.byClaim
  · intro claimId marked
    by_contra unmarked
    exact (claimIds claimId unmarked).1.1 marked
  · rw [resolutionIds]
    exact fun _ => id
  · rw [resolutions]
    exact fun _ _ => id
  · intro claimId unmarked
    obtain ⟨⟨_, other⟩, spared⟩ := claimIds claimId unmarked
    rw [claims, spec.inactive, mem_recorded_inactive]
    exact ⟨rfl, (or_iff_left spared).trans (or_iff_left other)⟩
  · rw [resolutions, claims]
    exact fun _ bound _ => ⟨bound, fun _ _ => rfl⟩

theorem applyOp_traced {op : Op} (filed : working.Filed)
    (run : applyOp registry working op = .ok next) :
    next.Filed ∧ Traces working next := by
  have same : ∀ {next : Working}, Agrees working next → next.Filed ∧ Traces working next :=
    fun agrees => agrees.traced filed
  cases op with
  | claimAdded header claim => exact applyClaim_traced filed run
  | claimRetracted retraction =>
      injection run with run
      rw [← run]
      exact applyRetraction_traced filed retraction
  | resolutionAdded header resolution => exact applyResolution_traced filed run
  | sourceAdded header source =>
      rw [applyOp, applySource, bind_ok_iff] at run
      obtain ⟨⟨table, inserted⟩, _, run⟩ := run
      cases inserted with
      | false =>
          injection run with run
          rw [← run]
          exact same ⟨rfl, rfl, rfl, rfl, rfl, rfl, rfl, rfl⟩
      | true =>
          injection run with run
          obtain ⟨keys, marked, _⟩ := @markClaimKeys_all _ { working with sourcesById := table }
            (working.evidenceIdsBySourceId[source.sourceId]?.getD ∅).toList
          rw [← run]
          dsimp only
          rw [marked]
          exact same ⟨rfl, rfl, rfl, rfl, rfl, rfl, rfl, rfl⟩
  | evidenceAdded header evidence =>
      rw [applyOp, applyEvidence, bind_ok_iff] at run
      obtain ⟨⟨table, inserted⟩, _, run⟩ := run
      cases inserted with
      | false =>
          injection run with run
          rw [← run]
          exact same ⟨rfl, rfl, rfl, rfl, rfl, rfl, rfl, rfl⟩
      | true =>
          injection run with run
          rw [← run]
          exact same ⟨rfl, rfl, rfl, rfl, rfl, rfl, rfl, rfl⟩
  | decisionAdded header decision =>
      rw [applyOp, applyDecision, bind_ok_iff] at run
      obtain ⟨⟨table, inserted⟩, _, run⟩ := run
      injection run with run
      rw [← run]
      exact same ⟨rfl, rfl, rfl, rfl, rfl, rfl, rfl, rfl⟩
  | derivationAdded header derivation =>
      rw [applyOp, applyDerivation, bind_ok_iff] at run
      obtain ⟨⟨table, inserted⟩, _, run⟩ := run
      cases inserted with
      | false =>
          injection run with run
          rw [← run]
          exact same ⟨rfl, rfl, rfl, rfl, rfl, rfl, rfl, rfl⟩
      | true =>
          injection run with run
          rw [← run]
          exact same ⟨rfl, rfl, rfl, rfl, rfl, rfl, rfl, rfl⟩
  | conflictLifecycleEventAdded header event =>
      rw [applyOp, applyEvent, bind_ok_iff] at run
      obtain ⟨⟨table, inserted⟩, _, run⟩ := run
      cases inserted with
      | false =>
          injection run with run
          rw [← run]
          exact same ⟨rfl, rfl, rfl, rfl, rfl, rfl, rfl, rfl⟩
      | true =>
          injection run with run
          rw [← run]
          exact same ⟨rfl, rfl, rfl, rfl, rfl, rfl, rfl, rfl⟩

/-- Entering operations one by one. -/
theorem enter_traced {ops : List Op} {contents : Contents} (filed : working.Filed)
    (tracks : working.Tracks registry contents)
    (run : ops.foldlM (applyOp registry) working = .ok next) :
    (next.Filed ∧ next.Tracks registry (ops.foldl Contents.add contents)) ∧
      Traces working next := by
  induction ops generalizing working contents with
  | nil =>
      rw [List.foldlM_nil, pure_ok_iff] at run
      rw [← run]
      exact ⟨⟨filed, tracks⟩, .refl working⟩
  | cons head tail inductionHypothesis =>
      rw [List.foldlM_cons, bind_ok_iff] at run
      obtain ⟨entered, stepped, run⟩ := run
      obtain ⟨filedNext, step⟩ := applyOp_traced filed stepped
      obtain ⟨after, traces⟩ := inductionHypothesis filedNext (applyOp_tracks tracks stepped) run
      exact ⟨after, step.trans traces⟩

end Working

/-! ## The second loop -/

/-- The candidates of a conflict are some of the claims, each once. -/
structure ConflictSet.DrawnFrom (conflict : ConflictSet) (claims : List Claim) : Prop where
  members : ∀ candidate ∈ conflict.candidates, candidate ∈ claims
  distinct : (conflict.candidates.map Claim.claimId).Nodup

theorem drawn_of_finding {context : ConflictDetectionContext} {key : ClaimKey}
    {claims : List Claim} {conflict : ConflictSet}
    (sorted : claims.Pairwise (fun first second => first.claimId < second.claimId))
    (keyed : ∀ claim ∈ claims, claim.key = key)
    (run : findingOf context key claims = .ok (some conflict)) : conflict.DrawnFrom claims := by
  have finding := findingOf_spec sorted keyed run
  constructor
  · intro candidate member
    rw [finding.candidates, mem_sortBy] at member
    exact (List.mem_filter.mp member).1
  · rw [finding.candidates]
    refine ((sortBy_perm Claim.claimId _).map Claim.claimId).nodup_iff.mpr ?_
    rw [List.Nodup, List.pairwise_map]
    exact (sorted.filter _).imp (fun below => ne_of_lt below)

theorem DirectAt.eq_of_ref (collisionFree : CollisionFree) {key other : ClaimKey}
    {first second : ConflictSet} (isFirst : DirectAt key first) (isSecond : DirectAt other second)
    (same : first.conflictRef = second.conflictRef) : key = other := by
  obtain ⟨_, _, firstFinding⟩ := isFirst
  obtain ⟨_, _, secondFinding⟩ := isSecond
  rw [firstFinding.conflictRef, secondFinding.conflictRef] at same
  exact directRef_injective collisionFree same

/-- After some keys are done, the table by reference lists the conflicts, and the claims of
their old and new conflicts are marked. -/
structure KeyUpdate.Reports (update start : KeyUpdate) (state : MemoryState)
    (context : ConflictDetectionContext) (done : List ClaimKey) : Prop where
  byRef : Lists update.conflictsByRef (·.conflictRef)
    (fun conflict => ∃ key : ClaimKey, update.conflictsByKey[key]? = some [conflict])
  claimIds : ∀ claimId ∈ start.affectedClaimIds, claimId ∈ update.affectedClaimIds
  drawn : ∀ key ∈ done, ∀ conflict : ConflictSet, update.conflictsByKey[key]? = some [conflict] →
    conflict.DrawnFrom (context.activeClaimsByKey[key]?.getD [])
  previous : ∀ key ∈ done, ∀ conflict : ConflictSet, state.conflictsByKey[key]? = some [conflict] →
    ∀ candidate ∈ conflict.candidates, candidate.claimId ∈ update.affectedClaimIds
  current : ∀ key ∈ done, ∀ conflict : ConflictSet, update.conflictsByKey[key]? = some [conflict] →
    ∀ candidate ∈ conflict.candidates, candidate.claimId ∈ update.affectedClaimIds

private theorem mem_reported_candidateIds {report : Option ConflictSet} {conflict : ConflictSet}
    (isReport : report = some conflict) {candidate : Claim}
    (member : candidate ∈ conflict.candidates) :
    candidate.claimId ∈ candidateIds report.toList := by
  rw [isReport]
  exact List.mem_flatMap.mpr
    ⟨conflict, List.mem_singleton_self conflict, List.mem_map.mpr ⟨candidate, member, rfl⟩⟩

section Rounds

variable {state : MemoryState} {context : ConflictDetectionContext} {update start : KeyUpdate}
  {done : List ClaimKey} {key : ClaimKey}

theorem updateKey_reports (passage : Passage state context)
    (follows : update.Follows state context done) (fresh : key ∉ done) {next : KeyUpdate}
    (run : updateKey context state.activeClaimsByKey update key = .ok next)
    (reports : update.Reports start state context done) :
    next.Reports start state context (done ++ [key]) := by
  obtain ⟨old, new, index, comparisons, computed, oldReport, oldDirect, found, _⟩ :=
    updateKey_replaces passage follows fresh (readable_of_round passage follows fresh run)
  rw [run] at computed
  injection computed with same
  subst same
  have before : ∀ conflict,
      update.conflictsByKey[key]? = some [conflict] ↔ old = some conflict := by
    intro conflict
    rw [(follows.untouched key fresh).1]
    exact oldReport conflict
  have earlier : ∀ other ∈ done, key ≠ other := by
    intro other member same
    exact fresh (by rw [same]; exact member)
  have apart : ∀ {report : Option ConflictSet},
      (∀ conflict, report = some conflict → DirectAt key conflict) →
      ∀ other conflict, update.conflictsByKey[other]? = some [conflict] →
      ∀ reported, report = some reported → conflict.conflictRef = reported.conflictRef →
        other = key := by
    intro report direct other conflict held reported isReported same
    obtain ⟨_, listed, otherDirect⟩ := follows.tables.single other _ held
    rw [List.cons.injEq] at listed
    rw [← listed.1] at otherDirect
    exact otherDirect.eq_of_ref passage.collisionFree (direct reported isReported) same
  have kept : ∀ claimId ∈ update.affectedClaimIds, claimId ∈
      (update.replace key old.toList new.toList index comparisons).affectedClaimIds :=
    fun claimId marked => mem_addAll.mpr (Or.inl (mem_addAll.mpr (Or.inl marked)))
  refine ⟨?_, fun claimId marked => kept claimId (reports.claimIds claimId marked), ?_, ?_, ?_⟩
  · refine lists_replace reports.byRef before replace_report ?_ (apart oldDirect)
      (apart (direct_of_finding passage found))
    intro other conflict different
    rw [(replace_others (Ne.symm different)).1]
  · intro wanted member conflict held
    rcases List.mem_append.mp member with isDone | last
    · rw [(replace_others (earlier wanted isDone)).1] at held
      exact reports.drawn wanted isDone conflict held
    · rw [List.mem_singleton.mp last] at held ⊢
      rw [replace_report] at held
      rw [held] at found
      exact drawn_of_finding (sorted_getD passage.sorted key) (passage.keyed key) found
  · intro wanted member conflict held candidate listed
    rcases List.mem_append.mp member with isDone | last
    · exact kept _ (reports.previous wanted isDone conflict held candidate listed)
    · rw [List.mem_singleton.mp last] at held
      have isOld := mem_reported_candidateIds ((oldReport conflict).mp held) listed
      exact mem_addAll.mpr (Or.inl (mem_addAll.mpr (Or.inr isOld)))
  · intro wanted member conflict held candidate listed
    rcases List.mem_append.mp member with isDone | last
    · rw [(replace_others (earlier wanted isDone)).1] at held
      exact kept _ (reports.current wanted isDone conflict held candidate listed)
    · rw [List.mem_singleton.mp last, replace_report] at held
      exact mem_addAll.mpr (Or.inr (mem_reported_candidateIds held listed))

theorem reports_of_keys (passage : Passage state context) (working : Working)
    {keys : List ClaimKey} (distinct : keys.Nodup)
    (byRef : Lists state.conflictsByRef (·.conflictRef)
      (fun conflict => ∃ key : ClaimKey, state.conflictsByKey[key]? = some [conflict]))
    (run : keys.foldlM (updateKey context state.activeClaimsByKey)
      (KeyUpdate.ofState state working) = .ok update) :
    update.Reports (KeyUpdate.ofState state working) state context keys := by
  refine (foldlM_invariant_split (fun done (update : KeyUpdate) =>
    update.Follows state context done ∧
      update.Reports (KeyUpdate.ofState state working) state context done)
    keys _ _ run ⟨(follows_of_keys passage working List.nodup_nil rfl).1,
      ⟨byRef, fun _ => id, by simp, by simp, by simp⟩⟩ ?_).2
  rintro done key rest update next split ⟨follows, reports⟩ stepped
  rw [split] at distinct
  have fresh : key ∉ done := by
    intro member
    exact (List.nodup_append.mp distinct).2.2 key member key List.mem_cons_self rfl
  obtain ⟨other, computed, after⟩ :=
    updateKey_follows passage follows fresh (readable_of_round passage follows fresh stepped)
  rw [stepped] at computed
  injection computed with same
  rw [← same] at after
  exact ⟨after, updateKey_reports passage follows fresh stepped reports⟩

end Rounds

/-! ## Canonical states -/

/-- A state that full materialization computes without instant, context and detectors, or
that incremental steps lead to from such a state. -/
inductive MemoryState.Canonical : MemoryState → Prop where
  | full {log : OpLog} {registry : PredicateRegistry} {state : MemoryState}
      (run : materialize log registry [] none ∅ = .ok state) : Canonical state
  | step {state next : MemoryState} {ops : List Op} {delta : MaterializationDelta}
      (canonical : Canonical state)
      (run : applyOperationsIncrementally state ops [] = .ok (next, delta)) : Canonical next

/-- The tables of a state that its records are projected from fit together. -/
structure MemoryState.Traceable (state : MemoryState) : Prop where
  coherent : state.Coherent
  filed : (Working.ofState state).Filed
  tracks : ∃ contents, (Working.ofState state).Tracks state.predicateRegistry contents
  byRef : Lists state.conflictsByRef (·.conflictRef)
    (fun conflict => ∃ key : ClaimKey, state.conflictsByKey[key]? = some [conflict])
  drawn : ∀ (key : ClaimKey) (conflict : ConflictSet),
    state.conflictsByKey[key]? = some [conflict] →
    conflict.DrawnFrom (state.activeClaimsByKey[key]?.getD [])

/-- What the delta of a step leaves out is the same before and after it. -/
structure MaterializationDelta.Traces (delta : MaterializationDelta)
    (first second : MemoryState) : Prop where
  statuses : ∀ lane : Lane, lane.conflictRef ∉ delta.affectedConflictRefs →
    first.lifecycleStatusByConflictRefAndScope[lane]? =
      second.lifecycleStatusByConflictRefAndScope[lane]?
  bound : ∀ (claimId : String) (claim : Claim), first.claimsById[claimId]? = some claim →
    second.claimsById[claimId]? = some claim
  claims : ∀ claimId : String, claimId ∉ delta.affectedClaimIds →
    second.claimsById[claimId]? = first.claimsById[claimId]? ∧
      (claimId ∈ second.inactiveClaimIds ↔ claimId ∈ first.inactiveClaimIds)
  unmarked : ∀ key : ClaimKey, key ∉ delta.affectedKeys →
    second.conflictsByKey[key]? = first.conflictsByKey[key]?
  previous : ∀ key ∈ delta.affectedKeys, ∀ conflict : ConflictSet,
    first.conflictsByKey[key]? = some [conflict] →
    conflict.conflictId ∈ delta.previousConflictIds ∧
      ∀ candidate ∈ conflict.candidates, candidate.claimId ∈ delta.affectedClaimIds
  current : ∀ key ∈ delta.affectedKeys, ∀ conflict : ConflictSet,
    second.conflictsByKey[key]? = some [conflict] →
    conflict.conflictId ∈ delta.currentConflictIds ∧
      ∀ candidate ∈ conflict.candidates, candidate.claimId ∈ delta.affectedClaimIds
  resolved : ∀ (resolutionId : String) (resolution : ResolutionRecord),
    first.resolutionsById[resolutionId]? = some resolution →
    second.resolutionsById[resolutionId]? = some resolution
  resolutions : ∀ resolution : ResolutionRecord,
    second.resolutionsById[resolution.resolutionId]? = some resolution →
    resolution.resolutionId ∉ delta.affectedResolutionIds →
    first.resolutionsById[resolution.resolutionId]? = some resolution ∧
      resolution.conflictRef ∉ delta.affectedConflictRefs ∧
      ∀ claimId ∈ resolution.claimIds, second.claimsById[claimId]? = first.claimsById[claimId]?

/-- What either of two deltas names, and nothing else. -/
structure MaterializationDelta.IsUnion (whole former latter : MaterializationDelta) : Prop where
  keys : ∀ key : ClaimKey,
    key ∈ whole.affectedKeys ↔ key ∈ former.affectedKeys ∨ key ∈ latter.affectedKeys
  claimIds : ∀ claimId : String, claimId ∈ whole.affectedClaimIds ↔
    claimId ∈ former.affectedClaimIds ∨ claimId ∈ latter.affectedClaimIds
  previousIds : ∀ conflictId : String, conflictId ∈ whole.previousConflictIds ↔
    conflictId ∈ former.previousConflictIds ∨ conflictId ∈ latter.previousConflictIds
  currentIds : ∀ conflictId : String, conflictId ∈ whole.currentConflictIds ↔
    conflictId ∈ former.currentConflictIds ∨ conflictId ∈ latter.currentConflictIds
  refs : ∀ conflictRef : String, conflictRef ∈ whole.affectedConflictRefs ↔
    conflictRef ∈ former.affectedConflictRefs ∨ conflictRef ∈ latter.affectedConflictRefs
  resolutionIds : ∀ resolutionId : String, resolutionId ∈ whole.affectedResolutionIds ↔
    resolutionId ∈ former.affectedResolutionIds ∨ resolutionId ∈ latter.affectedResolutionIds

/-- Deltas of consecutive steps leave out together what neither step changes. -/
theorem MaterializationDelta.Traces.trans {whole former latter : MaterializationDelta}
    {first second third : MemoryState} (union : whole.IsUnion former latter)
    (before : former.Traces first second) (after : latter.Traces second third) :
    whole.Traces first third where
  statuses := by
    intro lane absent
    rw [union.refs, not_or] at absent
    exact (before.statuses lane absent.1).trans (after.statuses lane absent.2)
  bound := fun claimId claim bound => after.bound claimId claim (before.bound claimId claim bound)
  claims := by
    intro claimId absent
    rw [union.claimIds, not_or] at absent
    obtain ⟨sameClaim, sameActivity⟩ := after.claims claimId absent.2
    obtain ⟨oldClaim, oldActivity⟩ := before.claims claimId absent.1
    exact ⟨sameClaim.trans oldClaim, sameActivity.trans oldActivity⟩
  unmarked := by
    intro key absent
    rw [union.keys, not_or] at absent
    exact (after.unmarked key absent.2).trans (before.unmarked key absent.1)
  previous := by
    intro key marked conflict found
    by_cases early : key ∈ former.affectedKeys
    · obtain ⟨isPrevious, named⟩ := before.previous key early conflict found
      exact ⟨(union.previousIds _).mpr (Or.inl isPrevious),
        fun candidate member => (union.claimIds _).mpr (Or.inl (named candidate member))⟩
    · -- The first step leaves the conflict of the key to the second one.
      have late := ((union.keys key).mp marked).resolve_left early
      obtain ⟨isPrevious, named⟩ :=
        after.previous key late conflict ((before.unmarked key early).trans found)
      exact ⟨(union.previousIds _).mpr (Or.inr isPrevious),
        fun candidate member => (union.claimIds _).mpr (Or.inr (named candidate member))⟩
  current := by
    intro key marked conflict found
    by_cases late : key ∈ latter.affectedKeys
    · obtain ⟨isCurrent, named⟩ := after.current key late conflict found
      exact ⟨(union.currentIds _).mpr (Or.inr isCurrent),
        fun candidate member => (union.claimIds _).mpr (Or.inr (named candidate member))⟩
    · have early := ((union.keys key).mp marked).resolve_right late
      obtain ⟨isCurrent, named⟩ :=
        before.current key early conflict ((after.unmarked key late).symm.trans found)
      exact ⟨(union.currentIds _).mpr (Or.inl isCurrent),
        fun candidate member => (union.claimIds _).mpr (Or.inl (named candidate member))⟩
  resolved := fun resolutionId resolution known =>
    after.resolved resolutionId resolution (before.resolved resolutionId resolution known)
  resolutions := by
    intro resolution known absent
    rw [union.resolutionIds, not_or] at absent
    obtain ⟨between, unaffected, sameClaims⟩ := after.resolutions resolution known absent.2
    obtain ⟨old, oldUnaffected, oldClaims⟩ := before.resolutions resolution between absent.1
    refine ⟨old, ?_, fun claimId named =>
      (sameClaims claimId named).trans (oldClaims claimId named)⟩
    rw [union.refs, not_or]
    exact ⟨oldUnaffected, unaffected⟩

theorem mem_tidyActive {working : Working} {key : ClaimKey} {claim : Claim} :
    claim ∈ working.tidyActive.activeClaimsByKey[key]?.getD [] ↔
      claim ∈ working.activeClaimsByKey[key]?.getD [] := by
  rw [tidy_get]
  cases working.activeClaimsByKey[key]? with
  | none => rfl
  | some claims =>
      rw [Option.map_some, Option.getD_some, Option.filter]
      split
      · exact mem_sortBy
      · rename_i empty
        have none : sortBy Claim.claimId claims = [] := by simpa using empty
        rw [sortBy_eq_nil] at none
        simp [none]

section State

variable {entered : Working} {registry : PredicateRegistry} {decisions : List Decision}

/-- The working copies of the next step start where this one ends. -/
theorem Working.Tracks.resume {contents : Contents} (tracks : entered.Tracks registry contents)
    (sorts : sortDecisions (Dict.values entered.decisionsById) = .ok decisions)
    (update : KeyUpdate) (lifecycle : LifecycleFold) :
    (ofState (entered.tidyActive.state registry decisions update lifecycle)).Tracks registry
      contents where
  records := {
    sources := tracks.records.sources
    evidence := tracks.records.evidence
    claims := tracks.records.claims
    decisions := by
      have lists := tracks.records.decisions.keyed.lists
      change Gathers (Dict.ofItems (·.decisionId) decisions) _ _
      rw [(decisions_sorted lists sorts).1.unique lists]
      exact tracks.records.decisions
    derivations := tracks.records.derivations
    resolutions := tracks.records.resolutions
    events := tracks.records.events }
  refs := fun claimRef claimId member =>
    tracks.refs claimRef claimId (mem_unlisted_listed.mp member)
  ownRef := fun claimId claim found => mem_unlisted_listed.mpr (tracks.ownRef claimId claim found)
  target := tracks.target
  targetRef := tracks.targetRef
  sound := tracks.sound
  complete := tracks.complete
  active := fun key claim => mem_tidyActive.trans (tracks.active key claim)

theorem Working.Filed.resume (filed : entered.Filed) (update : KeyUpdate)
    (lifecycle : LifecycleFold) :
    (ofState (entered.tidyActive.state registry decisions update lifecycle)).Filed where
  applicable := filed.applicable
  resolutions := filed.resolutions
  byRef := filed.byRef
  byClaim := fun resolution known claimId named =>
    mem_unlisted_listed.mpr (filed.byClaim resolution known claimId named)

end State

/-- An unmarked resolution belongs to a reference that is not affected. -/
private theorem unaffected_ref {entered : Working} (filed : entered.Filed) {refs : List String}
    {resolution : ResolutionRecord}
    (known : entered.resolutionsById[resolution.resolutionId]? = some resolution)
    (unmarked : resolution.resolutionId ∉ (entered.tidyActive.resolutionIds refs).toList) :
    resolution.resolutionId ∉ entered.affectedResolutionIds ∧ resolution.conflictRef ∉ refs := by
  rw [PySet.mem_toList, Working.resolutionIds, mem_addAll, not_or] at unmarked
  refine ⟨unmarked.1, ?_⟩
  intro affected
  exact unmarked.2 (List.mem_flatMap.mpr ⟨resolution.conflictRef, affected,
    List.mem_map.mpr ⟨resolution, filed.byRef resolution known, rfl⟩⟩)

/-- A step from a state whose tables fit together reaches one, and its delta leaves out only
what it does not change. -/
theorem applyOperations_traces (collisionFree : CollisionFree) {state next : MemoryState}
    (traceable : state.Traceable) {ops : List Op} {delta : MaterializationDelta}
    (run : applyOperationsIncrementally state ops [] = .ok (next, delta)) :
    next.Traceable ∧ delta.Traces state next := by
  obtain ⟨coherent, accounts⟩ := applyOperations_accounts collisionFree traceable.coherent run
  by_cases some : ops = []
  · rw [applyOperationsIncrementally, if_neg (by simp), if_pos some] at run
    injection run with run
    injection run with sameState sameDelta
    subst sameState
    exact ⟨traceable, accounts.statuses, fun _ _ => id, fun _ _ => ⟨rfl, Iff.rfl⟩, fun _ _ => rfl,
      by simp [← sameDelta, MaterializationDelta.empty],
      by simp [← sameDelta, MaterializationDelta.empty], fun _ _ => id,
      fun _ known _ => ⟨known, by simp [← sameDelta, MaterializationDelta.empty],
        fun _ _ => rfl⟩⟩
  · rw [applyOperationsIncrementally_ok_iff some] at run
    obtain ⟨entered, enters, activeDecisions, sorts, update, updates, lifecycle, _, same⟩ := run
    injection same with sameState sameDelta
    subst sameState sameDelta
    have leaves := Working.enter_leaves enters
    have passage := passage_of_enter collisionFree traceable.coherent leaves activeDecisions
    have distinct : entered.affectedKeys.toList.Nodup :=
      (PySet.toList_sorted _).imp (fun below => ne_of_lt below)
    obtain ⟨follows, _⟩ := follows_of_keys passage entered.tidyActive distinct updates
    have reports := reports_of_keys passage entered.tidyActive distinct traceable.byRef updates
    obtain ⟨contents, tracks⟩ := traceable.tracks
    obtain ⟨⟨filed, tracked⟩, traces⟩ := Working.enter_traced traceable.filed tracks enters
    constructor
    · refine ⟨coherent, filed.resume update lifecycle, ⟨_, tracked.resume sorts update lifecycle⟩,
        reports.byRef, ?_⟩
      intro key conflict found
      by_cases marked : key ∈ entered.affectedKeys.toList
      · exact reports.drawn key marked conflict found
      · have before := (follows.untouched key marked).1.symm.trans found
        rw [← accounts.active key marked]
        exact traceable.drawn key conflict before
    · refine ⟨accounts.statuses, leaves.bound, ?_, fun key unmarked =>
        (follows.untouched key unmarked).1, ?_, ?_, traces.resolved, ?_⟩
      · intro claimId unmarked
        refine traces.claims claimId (fun marked => unmarked ?_)
        exact (PySet.mem_toList _ _).mpr (reports.claimIds claimId marked)
      · intro key marked conflict found
        exact ⟨(PySet.mem_toList _ _).mpr (follows.previousIds key marked conflict found),
          fun candidate listed => (PySet.mem_toList _ _).mpr
            (reports.previous key marked conflict found candidate listed)⟩
      · intro key marked conflict found
        exact ⟨(PySet.mem_toList _ _).mpr (follows.currentIds key marked conflict found),
          fun candidate listed => (PySet.mem_toList _ _).mpr
            (reports.current key marked conflict found candidate listed)⟩
      · intro resolution known unmarked
        obtain ⟨unentered, unaffected⟩ := unaffected_ref filed known unmarked
        obtain ⟨before, sameClaims⟩ := traces.resolutions resolution known unentered
        exact ⟨before, unaffected, sameClaims⟩

/-- The resolutions of a reference, as grouped by full materialization. -/
private theorem mem_resolutionsOfRef {resolutionsById : Dict String ResolutionRecord}
    (keyed : Keyed resolutionsById (·.resolutionId)) {resolution : ResolutionRecord}
    (known : resolutionsById[resolution.resolutionId]? = some resolution) :
    resolution ∈
      (groupResolutionHistory resolutionsById).1[resolution.conflictRef]?.getD [] := by
  have grouped : Groups ResolutionRecord.order
      (groupBy (fun record : ResolutionRecord => record.conflictRef)
        (Dict.values resolutionsById)) _ :=
    groups_groupBy (fun record : ResolutionRecord => record.conflictRef)
      (keyed.lists.values_distinct.imp
        (fun {first second} below same => ne_of_lt below (congrArg Prod.snd same)))
  rw [groupResolutionHistory, grouped.sortGroups.mem_getD]
  exact ⟨(Dict.mem_values _ _).mpr ⟨_, known⟩, rfl⟩

/-- The conflicts of full materialization, by reference and by their candidates. -/
private theorem materialize_conflicts (collisionFree : CollisionFree) {log : OpLog}
    {registry : PredicateRegistry} {state : MemoryState}
    (run : materialize log registry [] none ∅ = .ok state) :
    Lists state.conflictsByRef (·.conflictRef)
        (fun conflict => ∃ key : ClaimKey, state.conflictsByKey[key]? = some [conflict]) ∧
      ∀ (key : ClaimKey) (conflict : ConflictSet), state.conflictsByKey[key]? = some [conflict] →
        conflict.DrawnFrom (state.activeClaimsByKey[key]?.getD []) := by
  obtain ⟨active, distinctIds⟩ := materialize_active run
  obtain ⟨_, collected, collects, partition, _, decisions, _, conflicts, detected, indexes, built,
    lifecycle, _, same⟩ := materialize_ok_iff.mp run
  subst same
  have readable : ∀ claim, (collected.state registry
      (sortGroups Claim.claimId (groupBy Claim.key partition.1)) partition.2 decisions conflicts
      indexes lifecycle).Applicable none ∅ claim → Readable claim :=
    fun claim isActive => readable_of_buildIndexes active built claim.key claim ⟨isActive, rfl⟩
  obtain ⟨contextGrouped, contextClaims⟩ := detection_grouped active distinctIds registry
    collected.evidenceById collected.sourcesById collected.derivationsById decisions
  obtain ⟨conflicts', detected', sorted, findings⟩ :=
    runConflictDetectors_direct collisionFree contextGrouped contextClaims readable
  have sameConflicts : (Except.ok conflicts : Result _) = .ok conflicts' :=
    detected.symm.trans detected'
  injection sameConflicts with sameConflicts
  subst sameConflicts
  obtain ⟨_, byRef, _, byKey, _⟩ := conflict_tables collisionFree contextGrouped sorted findings
  refine ⟨byRef.congr (fun conflict =>
    exists_congr fun key => (single_iff byKey key conflict).symm), ?_⟩
  intro key conflict found
  exact drawn_of_finding (active_sorted contextGrouped key)
    (fun claim listed => ((mem_active contextGrouped key claim).mp listed).2)
    ((single_iff byKey key conflict).mp found)

theorem materialize_traceable (collisionFree : CollisionFree) {log : OpLog}
    {registry : PredicateRegistry} {state : MemoryState}
    (run : materialize log registry [] none ∅ = .ok state) : state.Traceable := by
  obtain ⟨coherent, sameRegistry⟩ := materialize_coherent collisionFree run
  obtain ⟨byRef, drawn⟩ := materialize_conflicts collisionFree run
  have tracks := Working.ofState_tracks run
  refine ⟨coherent, ?_, ⟨_, by rw [sameRegistry]; exact tracks⟩, byRef, drawn⟩
  have keyed := tracks.records.resolutions.keyed
  obtain ⟨_, collected, _, partition, partitioned, _, _, _, _, _, _, _, _, same⟩ :=
    materialize_ok_iff.mp run
  rw [partitionClaims_eq, Except.ok.injEq] at partitioned
  subst partitioned same
  refine ⟨rfl, keyed, fun resolution known => mem_resolutionsOfRef keyed known, ?_⟩
  intro resolution known claimId named
  refine ((Indexes.reverseIndex ResolutionRecord.claimIds (fun item => item.resolutionId)
    (Dict.values collected.resolutionsById)).listed.unlisted.mem_getD claimId _).mpr ?_
  exact ⟨resolution, (Dict.mem_values _ _).mpr ⟨_, known⟩, named, rfl⟩

theorem MemoryState.Canonical.traceable (collisionFree : CollisionFree) {state : MemoryState}
    (canonical : state.Canonical) : state.Traceable := by
  induction canonical with
  | full run => exact materialize_traceable collisionFree run
  | step _ run traceable => exact (applyOperations_traces collisionFree traceable run).1

end Statefuse
