import Statefuse.Materialize.Effective

/-!
# What claims and resolutions depend on

Sources, evidence, decisions and derivations annotate conflicts.  They decide neither which
claims are active or retracted nor which resolutions are effective: leaving any of them out
of a log changes none of this (`materialize_narrowed`).

Custom detectors are code of the caller.  The result holds for those that look at claims
only and report under a name of their own.
-/

namespace Statefuse

open Foundation

variable [Runtime]

/-- An operation about claims or about their resolutions. -/
def Op.isAuthoritative : Op → Bool
  | .claimAdded .. | .claimRetracted .. => true
  | .resolutionAdded .. | .conflictLifecycleEventAdded .. => true
  | _ => false

/-- Whatever the narrower table binds, the wider one binds to an equal record. -/
def BoundIn {α : Type} [PyEq α] (wide narrow : Dict String α) : Prop :=
  ∀ (recordId : String) (record : α), narrow[recordId]? = some record →
    ∃ other : α, wide[recordId]? = some other ∧ pyEq other record = true

omit [Runtime] in
theorem BoundIn.refl {α : Type} [PyEq α] (records : Dict String α) : BoundIn records records := by
  intro recordId record found
  exact ⟨record, found, pyEq_refl record⟩

omit [Runtime] in
/-- The wider table got a record that the narrower one has not. -/
theorem BoundIn.bind_left {α : Type} [PyEq α] {wide narrow next : Dict String α}
    {recordId name : String} {record : α} (bound : BoundIn wide narrow)
    (run : bindRecord wide recordId record name = .ok next) : BoundIn next narrow := by
  have inserted := bindRecord_ok run
  intro otherId other found
  rcases bound otherId other found with ⟨existing, isExisting, same⟩
  rw [inserted]
  by_cases here : recordId = otherId
  · subst here
    refine ⟨record, Dict.get_insert_self _ _ _, ?_⟩
    unfold bindRecord at run
    rw [isExisting] at run
    by_cases equal : pyEq existing record = true
    · exact pyEq_trans (pyEq_symm equal) same
    · simp only [if_neg equal] at run
      cases run
  · exact ⟨existing, (Dict.get_insert_of_ne _ here _).trans isExisting, same⟩

omit [Runtime] in
/-- A record that enters the wider table also enters the narrower one. -/
theorem BoundIn.bind {α : Type} [PyEq α] {wide narrow next : Dict String α}
    {recordId name : String} {record : α} (bound : BoundIn wide narrow)
    (run : bindRecord wide recordId record name = .ok next) :
    bindRecord narrow recordId record name = .ok (narrow.insert recordId record) ∧
      BoundIn next (narrow.insert recordId record) := by
  constructor
  · unfold bindRecord
    cases found : narrow[recordId]? with
    | none => rfl
    | some existing =>
        rcases bound recordId existing found with ⟨other, isOther, same⟩
        unfold bindRecord at run
        rw [isOther] at run
        by_cases equal : pyEq other record = true
        · exact if_pos (pyEq_trans (pyEq_symm same) equal)
        · simp only [if_neg equal] at run
          cases run
  · rw [bindRecord_ok run]
    intro otherId other found
    rw [Dict.get_insert] at found ⊢
    by_cases here : recordId = otherId
    · rw [if_pos here] at found ⊢
      exact ⟨other, found, pyEq_refl other⟩
    · rw [if_neg here] at found ⊢
      exact bound otherId other found

/-- The same claims, retractions, resolutions and events, and no more of the other records. -/
structure Collected.Narrows (wide narrow : Collected) : Prop where
  claimsById : narrow.claimsById = wide.claimsById
  claimIdsByRef : narrow.claimIdsByRef = wide.claimIdsByRef
  retractionsByTarget : narrow.retractionsByTarget = wide.retractionsByTarget
  retractionsByTargetRef : narrow.retractionsByTargetRef = wide.retractionsByTargetRef
  resolutionsById : narrow.resolutionsById = wide.resolutionsById
  lifecycleEventsById : narrow.lifecycleEventsById = wide.lifecycleEventsById
  sources : BoundIn wide.sourcesById narrow.sourcesById
  evidence : BoundIn wide.evidenceById narrow.evidenceById
  decisions : BoundIn wide.decisionsById narrow.decisionsById
  derivations : BoundIn wide.derivationsById narrow.derivationsById

theorem Collected.narrows_self (collected : Collected) : collected.Narrows collected :=
  ⟨rfl, rfl, rfl, rfl, rfl, rfl, .refl _, .refl _, .refl _, .refl _⟩

section Collecting

variable {registry : PredicateRegistry} {wide narrow next : Collected} {op : Op}

/-- A record that is left out changes nothing that counts. -/
theorem collectStep_left (narrows : wide.Narrows narrow)
    (run : collectStep registry wide op = .ok next) (left : op.isAuthoritative = false) :
    next.Narrows narrow := by
  cases op with
  | sourceAdded header source =>
      rw [collectStep, bind_ok_iff] at run
      rcases run with ⟨records, bound, run⟩
      rw [pure_ok_iff] at run
      subst run
      exact { narrows with sources := narrows.sources.bind_left bound }
  | evidenceAdded header evidence =>
      rw [collectStep, bind_ok_iff] at run
      rcases run with ⟨records, bound, run⟩
      rw [pure_ok_iff] at run
      subst run
      exact { narrows with evidence := narrows.evidence.bind_left bound }
  | decisionAdded header decision =>
      rw [collectStep, bind_ok_iff] at run
      rcases run with ⟨records, bound, run⟩
      rw [pure_ok_iff] at run
      subst run
      exact { narrows with decisions := narrows.decisions.bind_left bound }
  | derivationAdded header derivation =>
      rw [collectStep, bind_ok_iff] at run
      rcases run with ⟨records, bound, run⟩
      rw [pure_ok_iff] at run
      subst run
      exact { narrows with derivations := narrows.derivations.bind_left bound }
  | claimAdded header claim => cases left
  | claimRetracted retraction => cases left
  | resolutionAdded header resolution => cases left
  | conflictLifecycleEventAdded header event => cases left

/-- An operation that both logs have. -/
theorem collectStep_both (narrows : wide.Narrows narrow)
    (run : collectStep registry wide op = .ok next) :
    ∃ narrowNext, collectStep registry narrow op = .ok narrowNext ∧ next.Narrows narrowNext := by
  cases op with
  | sourceAdded header source =>
      rw [collectStep, bind_ok_iff] at run
      rcases run with ⟨records, bound, run⟩
      rw [pure_ok_iff] at run
      subst run
      rcases narrows.sources.bind bound with ⟨also, within⟩
      rw [collectStep, bind_of_ok also]
      exact ⟨_, rfl, { narrows with sources := within }⟩
  | evidenceAdded header evidence =>
      rw [collectStep, bind_ok_iff] at run
      rcases run with ⟨records, bound, run⟩
      rw [pure_ok_iff] at run
      subst run
      rcases narrows.evidence.bind bound with ⟨also, within⟩
      rw [collectStep, bind_of_ok also]
      exact ⟨_, rfl, { narrows with evidence := within }⟩
  | claimAdded header claim =>
      rw [collectStep, bind_ok_iff] at run
      rcases run with ⟨records, bound, run⟩
      rw [pure_ok_iff] at run
      subst run
      rw [← narrows.claimsById] at bound
      rw [collectStep, bind_of_ok bound]
      exact ⟨_, rfl, { narrows with
        claimsById := rfl
        claimIdsByRef := congrArg (addTo · _ _) narrows.claimIdsByRef }⟩
  | claimRetracted retraction =>
      injection run with run
      subst run
      exact ⟨_, rfl, { narrows with
        retractionsByTarget := congrArg (appendRetraction · _ _) narrows.retractionsByTarget
        retractionsByTargetRef :=
          congrArg (appendRetraction · _ _) narrows.retractionsByTargetRef }⟩
  | decisionAdded header decision =>
      rw [collectStep, bind_ok_iff] at run
      rcases run with ⟨records, bound, run⟩
      rw [pure_ok_iff] at run
      subst run
      rcases narrows.decisions.bind bound with ⟨also, within⟩
      rw [collectStep, bind_of_ok also]
      exact ⟨_, rfl, { narrows with decisions := within }⟩
  | derivationAdded header derivation =>
      rw [collectStep, bind_ok_iff] at run
      rcases run with ⟨records, bound, run⟩
      rw [pure_ok_iff] at run
      subst run
      rcases narrows.derivations.bind bound with ⟨also, within⟩
      rw [collectStep, bind_of_ok also]
      exact ⟨_, rfl, { narrows with derivations := within }⟩
  | resolutionAdded header resolution =>
      rw [collectStep, bind_ok_iff] at run
      rcases run with ⟨records, bound, run⟩
      rw [pure_ok_iff] at run
      subst run
      rw [← narrows.resolutionsById] at bound
      rw [collectStep, bind_of_ok bound]
      exact ⟨_, rfl, { narrows with resolutionsById := rfl }⟩
  | conflictLifecycleEventAdded header event =>
      rw [collectStep, bind_ok_iff] at run
      rcases run with ⟨records, bound, run⟩
      rw [pure_ok_iff] at run
      subst run
      rw [← narrows.lifecycleEventsById] at bound
      rw [collectStep, bind_of_ok bound]
      exact ⟨_, rfl, { narrows with lifecycleEventsById := rfl }⟩

/-- Leaving operations out that are about other records. -/
theorem collect_narrowed {ops : List Op} {keep : Op → Bool}
    (authority : ∀ op ∈ ops, op.isAuthoritative = true → keep op = true) {collected : Collected}
    (run : ops.foldlM (collectStep registry) .empty = .ok collected) :
    ∃ narrowed, (ops.filter keep).foldlM (collectStep registry) .empty = .ok narrowed ∧
      collected.Narrows narrowed := by
  refine foldlM_invariant (fun done state => ∃ narrowed,
    (done.filter keep).foldlM (collectStep registry) .empty = .ok narrowed ∧
      state.Narrows narrowed) ops _ _ run ⟨_, rfl, Collected.narrows_self _⟩ ?_
  intro done op state next holds listed stepped
  rcases holds with ⟨narrowed, reached, narrows⟩
  rw [List.filter_append, List.foldlM_append, bind_of_ok reached]
  by_cases kept : keep op = true
  · rcases collectStep_both narrows stepped with ⟨narrowNext, step, after⟩
    rw [List.filter_cons_of_pos kept, List.filter_nil, List.foldlM_cons, bind_of_ok step]
    exact ⟨narrowNext, rfl, after⟩
  · have left : op.isAuthoritative = false := by
      by_contra authoritative
      exact kept (authority op listed (Bool.not_eq_false _ ▸ authoritative))
    rw [List.filter_cons_of_neg kept, List.filter_nil]
    exact ⟨narrowed, rfl, collectStep_left narrows stepped left⟩

end Collecting

/-! ## Detecting -/

/-- Contexts with the same claims. -/
structure ConflictDetectionContext.SameClaims (first second : ConflictDetectionContext) :
    Prop where
  active : first.activeClaimsByKey = second.activeClaimsByKey
  claimsById : first.claimsById = second.claimsById
  registry : first.predicateRegistry = second.predicateRegistry

/-- A custom detector that looks at claims only and reports under a name of its own. -/
structure ReadsClaims (detector : ConflictDetector) : Prop where
  determined : ∀ first second : ConflictDetectionContext, first.SameClaims second →
    detector first = detector second
  named : ∀ context found, detector context = .ok found →
    ∀ conflict ∈ found, conflict.detectorId ≠ "direct"

/-- The contexts have the same claims, and the part that is kept of the annotations of a finding
is the same. -/
structure ConflictDetectionContext.AnnotatesAlike (kept : JSONObject → JSONObject)
    (first second : ConflictDetectionContext) : Prop extends first.SameClaims second where
  annotations : ∀ (candidates : List Claim) (aggregate : Bool),
    kept (findingAnnotations first candidates aggregate) =
      kept (findingAnnotations second candidates aggregate)

theorem ConflictSet.keeping_valid (kept : JSONObject → JSONObject) (conflict : ConflictSet) :
    ConflictFields.Valid
      { conflict.toConflictFields with annotations := kept conflict.annotations } :=
  { conflict.valid with }

/-- A conflict with a part of its annotations. -/
def ConflictSet.keeping (kept : JSONObject → JSONObject) (conflict : ConflictSet) :
    ConflictSet where
  toConflictFields := { conflict.toConflictFields with annotations := kept conflict.annotations }
  valid := conflict.keeping_valid kept

section Detecting

variable {kept : JSONObject → JSONObject} {first second : ConflictDetectionContext}
  {conflict : ConflictSet}

theorem create_keeping {fields : ConflictFields} {annotations : JSONObject}
    (same : kept fields.annotations = kept annotations)
    (run : ConflictSet.create fields = .ok conflict) :
    ∃ other, ConflictSet.create { fields with annotations := annotations } = .ok other ∧
      conflict.keeping kept = other.keeping kept := by
  unfold ConflictSet.create at run ⊢
  by_cases distinct : (fields.candidates.map Claim.claimId).Nodup
  · by_cases present : fields.conflictId ≠ "" ∧ fields.conflictType ≠ "" ∧
        fields.conflictClass ≠ "" ∧ fields.conflictSubclass ≠ "" ∧ fields.detectorId ≠ ""
    · rw [dif_pos distinct, dif_pos present] at run ⊢
      injection run with run
      subst run
      refine ⟨_, rfl, ?_⟩
      simp only [ConflictSet.keeping, ConflictFields.normalized, same]
    · rw [dif_pos distinct, dif_neg present] at run
      cases run
  · rw [dif_neg distinct] at run
    cases run

theorem makeConflict_keeping {candidates : List Claim}
    {conflictType reason detectorId conflictClass conflictSubclass : String}
    {key : Option ClaimKey} {keys : List ClaimKey} {distinctValues : Option (List JSONValue)}
    {annotations others witness : JSONObject} (same : kept annotations = kept others)
    (run : makeConflict candidates conflictType reason detectorId conflictClass conflictSubclass
      key keys distinctValues annotations witness = .ok conflict) :
    ∃ other, makeConflict candidates conflictType reason detectorId conflictClass
        conflictSubclass key keys distinctValues others witness = .ok other ∧
      conflict.keeping kept = other.keeping kept := by
  unfold makeConflict at run ⊢
  cases ordered : sortBy Claim.claimId candidates with
  | nil =>
      simp only [ordered] at run
      cases run
  | cons head rest =>
      simp only [ordered] at run ⊢
      split at run
      · cases run
      · rename_i anchored
        rw [if_neg anchored]
        exact create_keeping same run

theorem makeConflict_named {candidates : List Claim}
    {conflictType reason detectorId conflictClass conflictSubclass : String}
    {key : ClaimKey} {keys : List ClaimKey} {distinctValues : Option (List JSONValue)}
    {annotations witness : JSONObject}
    (run : makeConflict candidates conflictType reason detectorId conflictClass conflictSubclass
      (some key) keys distinctValues annotations witness = .ok conflict) :
    conflict.key = key ∧ conflict.detectorId = detectorId := by
  unfold makeConflict at run
  cases ordered : sortBy Claim.claimId candidates with
  | nil =>
      simp only [ordered] at run
      cases run
  | cons head rest =>
      simp only [ordered] at run
      split at run
      · cases run
      · have fields := ConflictSet.fields_of_create run
        rw [fields]
        exact ⟨rfl, rfl⟩

theorem directFinding_keeping (alike : first.AnnotatesAlike kept second) {key : ClaimKey}
    {candidates : List Claim} {witnesses : List JSONObject}
    (run : directFinding first key candidates witnesses = .ok conflict) :
    ∃ other, directFinding second key candidates witnesses = .ok other ∧
      conflict.keeping kept = other.keeping kept := by
  rcases bind_ok_iff.mp run with ⟨aggregate, applicable, made⟩
  unfold directFinding
  rw [bind_of_ok applicable, ← alike.registry]
  exact makeConflict_keeping (alike.annotations candidates aggregate) made

theorem directConflictFor_keeping (alike : first.AnnotatesAlike kept second) {key : ClaimKey}
    {claims : List Claim} {found : Option ConflictSet}
    (run : directConflictFor first key claims = .ok found) :
    ∃ other, directConflictFor second key claims = .ok other ∧
      found.map (ConflictSet.keeping kept) = other.map (ConflictSet.keeping kept) := by
  simp only [directConflictFor, ← alike.registry] at run ⊢
  by_cases alone : (sortBy Claim.claimId claims).length ≤ 1 ∨
      first.predicateRegistry.isMultiValued key.predicate = true
  · rw [if_pos alone] at run ⊢
    exact ⟨found, run, rfl⟩
  · rw [if_neg alone] at run ⊢
    rcases bind_ok_iff.mp run with ⟨pairs, filtered, run⟩
    rw [bind_of_ok filtered]
    by_cases compatible : pairs = []
    · rw [if_pos compatible] at run ⊢
      exact ⟨found, run, rfl⟩
    · rw [if_neg compatible] at run ⊢
      rcases bind_ok_iff.mp run with ⟨witnesses, witnessed, run⟩
      rcases bind_ok_iff.mp run with ⟨conflict, made, run⟩
      rcases directFinding_keeping alike made with ⟨other, also, equal⟩
      rw [bind_of_ok witnessed, bind_of_ok also]
      rw [pure_ok_iff] at run
      subst run
      exact ⟨some other, rfl, congrArg some equal⟩

theorem directConflictFor_named {key : ClaimKey} {claims : List Claim}
    (run : directConflictFor first key claims = .ok (some conflict)) :
    conflict.key = key ∧ conflict.detectorId = "direct" := by
  simp only [directConflictFor] at run
  split at run
  · cases run
  · rcases bind_ok_iff.mp run with ⟨pairs, filtered, run⟩
    split at run
    · cases run
    · rcases bind_ok_iff.mp run with ⟨witnesses, witnessed, run⟩
      rcases bind_ok_iff.mp run with ⟨made, isMade, run⟩
      rw [pure_ok_iff] at run
      injection run with run
      subst run
      rcases bind_ok_iff.mp isMade with ⟨aggregate, applicable, isMade⟩
      exact makeConflict_named isMade

/-- The conflicts of the direct detector correspond, and there is one for each key. -/
theorem directConflicts_keeping (alike : first.AnnotatesAlike kept second)
    {direct : List ConflictSet}
    (run : directConflicts first = .ok direct) :
    ∃ others, directConflicts second = .ok others ∧
      direct.map (ConflictSet.keeping kept) = others.map (ConflictSet.keeping kept) := by
  rcases bind_ok_iff.mp run with ⟨found, detected, run⟩
  rw [pure_ok_iff] at run
  rcases mapM_image (Option.map (ConflictSet.keeping kept))
    (fun entry _ result computed => directConflictFor_keeping alike computed) detected
    with ⟨others, also, equal⟩
  rw [alike.active] at also
  refine ⟨others.reduceOption, ?_, ?_⟩
  · rw [directConflicts, bind_of_ok also]
    rfl
  · rw [← run, ← List.reduceOption_map, ← List.reduceOption_map, equal]

theorem directConflicts_named {direct : List ConflictSet}
    (run : directConflicts first = .ok direct) :
    direct.Pairwise (fun one other => one.key ≠ other.key) ∧
      ∀ conflict ∈ direct, conflict.detectorId = "direct" := by
  rcases bind_ok_iff.mp run with ⟨found, detected, run⟩
  rw [pure_ok_iff] at run
  subst run
  have distinct : first.activeClaimsByKey.toList.Pairwise fun one other => one.1 ≠ other.1 :=
    (Dict.toList_sorted _).imp fun below => ne_of_lt below
  have treated := mapM_ok_iff.mp detected
  clear detected run
  generalize first.activeClaimsByKey.toList = entries at distinct treated
  have general : found.reduceOption.Pairwise (fun one other => one.key ≠ other.key) ∧
      ∀ conflict ∈ found.reduceOption,
        conflict.detectorId = "direct" ∧ ∃ entry ∈ entries, conflict.key = entry.1 := by
    induction treated with
    | nil => exact ⟨List.Pairwise.nil, by simp [List.reduceOption]⟩
    | @cons entry result rest results computed treated inductionHypothesis =>
        rcases List.pairwise_cons.mp distinct with ⟨apart, distinct⟩
        rcases inductionHypothesis distinct with ⟨keysDistinct, named⟩
        have later : ∀ conflict ∈ results.reduceOption, conflict.detectorId = "direct" ∧
            ∃ found ∈ entry :: rest, conflict.key = found.1 := by
          intro conflict listed
          rcases named conflict listed with ⟨name, other, inside, ownKey⟩
          exact ⟨name, other, List.mem_cons_of_mem _ inside, ownKey⟩
        cases result with
        | none => exact ⟨keysDistinct, later⟩
        | some conflict =>
            rcases directConflictFor_named computed with ⟨ownKey, ownName⟩
            rw [List.reduceOption_cons_of_some]
            constructor
            · refine List.pairwise_cons.mpr ⟨?_, keysDistinct⟩
              intro other listed
              rcases named other listed with ⟨_, otherEntry, inside, otherKey⟩
              rw [ownKey, otherKey]
              exact apart otherEntry inside
            · intro other listed
              rcases List.mem_cons.mp listed with isFirst | isLater
              · rw [isFirst]
                exact ⟨ownName, entry, List.mem_cons_self, ownKey⟩
              · exact later other isLater
  exact ⟨general.1, fun conflict listed => (general.2 conflict listed).1⟩

/-! ### Accepting the findings -/

/-- The accepted conflicts correspond, and those of custom detectors are the same. -/
structure AcceptedConflicts.Matches (kept : JSONObject → JSONObject)
    (accepted others : AcceptedConflicts) : Prop where
  byId : ∀ conflictId : String, accepted.byId[conflictId]?.map (ConflictSet.keeping kept) =
    others.byId[conflictId]?.map (ConflictSet.keeping kept)
  custom : ∀ (conflictId : String) (conflict : ConflictSet),
    accepted.byId[conflictId]? = some conflict → conflict.detectorId ≠ "direct" →
      others.byId[conflictId]? = some conflict
  refs : accepted.refs = others.refs

variable {accepted others next : AcceptedConflicts} {other : ConflictSet}

/-- The checks on reported conflicts do not look at annotations. -/
theorem acceptConflict_matches (same : first.SameClaims second)
    (matching : accepted.Matches kept others)
    (equal : conflict.keeping kept = other.keeping kept)
    (custom : conflict.detectorId ≠ "direct" → conflict = other)
    (again : ∀ existing, accepted.byId[conflict.conflictId]? = some existing →
      pyEq existing conflict = true → conflict.detectorId ≠ "direct")
    (run : acceptConflict first accepted conflict = .ok next) :
    ∃ otherNext, acceptConflict second others other = .ok otherNext ∧
      next.Matches kept otherNext := by
  have fields := congrArg ConflictSet.toConflictFields equal
  injection fields with sameId sameKey sameCandidates _ _ sameRef sameType sameKeys _ _ sameName
  have sameMissing : missingCandidates first conflict = missingCandidates second other := by
    rw [missingCandidates, missingCandidates, sameCandidates, same.claimsById]
  have inserted : AcceptedConflicts.Matches kept
      ⟨accepted.byId.insert conflict.conflictId conflict,
        accepted.refs.insert conflict.conflictRef conflict.conflictId⟩
      ⟨others.byId.insert other.conflictId other,
        others.refs.insert other.conflictRef other.conflictId⟩ := {
    byId := by
      intro conflictId
      rw [Dict.get_insert, Dict.get_insert, ← sameId]
      by_cases here : conflict.conflictId = conflictId
      · rw [if_pos here, if_pos here, Option.map_some, Option.map_some, equal]
      · rw [if_neg here, if_neg here, matching.byId]
    custom := by
      intro conflictId wanted found isCustom
      rw [Dict.get_insert] at found ⊢
      rw [← sameId]
      by_cases here : conflict.conflictId = conflictId
      · rw [if_pos here] at found ⊢
        injection found with found
        rw [← found] at isCustom
        rw [← found, custom isCustom]
      · rw [if_neg here] at found ⊢
        exact matching.custom conflictId wanted found isCustom
    refs := by rw [matching.refs, sameId, sameRef] }
  simp only [acceptConflict] at run ⊢
  rw [← sameMissing]
  split at run
  · cases run
  · rename_i present
    rw [if_neg present]
    split at run
    · cases run
    · rename_i canonical
      rw [sameId, sameKey, sameCandidates, sameRef, sameType, sameKeys, sameName] at canonical
      rw [if_neg canonical]
      have sameFound := matching.byId conflict.conflictId
      cases found : accepted.byId[conflict.conflictId]? with
      | some existing =>
          simp only [found] at run
          split at run
          · rename_i isEqual
            injection run with run
            subst run
            have isCustom := again existing found isEqual
            have existingCustom : existing.detectorId ≠ "direct" := by
              have names : existing.detectorId = conflict.detectorId :=
                congrArg (fun key => key.2.2.1.2.2) (pyEq_iff.mp isEqual)
              rw [names]
              exact isCustom
            have alsoFound := matching.custom _ existing found existingCustom
            rw [← custom isCustom, alsoFound]
            simp only [isEqual, if_true]
            exact ⟨others, rfl, matching⟩
          · cases run
      | none =>
          rw [found, Option.map_none, eq_comm, Option.map_eq_none_iff] at sameFound
          rw [sameId] at sameFound
          simp only [found] at run
          simp only [sameFound]
          cases prior : accepted.refs[conflict.conflictRef]? with
          | none =>
              have alsoPrior : others.refs[other.conflictRef]? = none := by
                rw [← matching.refs, ← sameRef, prior]
              simp only [prior] at run
              injection run with run
              rw [← run]
              simp only [alsoPrior]
              exact ⟨_, rfl, inserted⟩
          | some priorId =>
              have alsoPrior : others.refs[other.conflictRef]? = some priorId := by
                rw [← matching.refs, ← sameRef, prior]
              simp only [prior] at run
              split at run
              · cases run
              · rename_i samePrior
                injection run with run
                rw [← run]
                rw [sameId] at samePrior
                simp only [alsoPrior]
                rw [if_neg samePrior]
                exact ⟨_, rfl, inserted⟩

/-- Accepting what corresponds. -/
theorem acceptConflicts_simulation (first second : ConflictDetectionContext)
    {corresponds : ConflictSet → ConflictSet → Prop}
    (related : List ConflictSet → AcceptedConflicts → AcceptedConflicts → Prop)
    {items others : List ConflictSet} {start result otherStart : AcceptedConflicts}
    (paired : List.Forall₂ corresponds items others)
    (run : items.foldlM (acceptConflict first) start = .ok result)
    (initially : related [] start otherStart)
    (preserved : ∀ done item otherItem rest state otherState next,
      items = done ++ item :: rest → corresponds item otherItem →
      related done state otherState → acceptConflict first state item = .ok next →
      ∃ otherNext, acceptConflict second otherState otherItem = .ok otherNext ∧
        related (done ++ [item]) next otherNext) :
    ∃ otherResult, others.foldlM (acceptConflict second) otherStart = .ok otherResult ∧
      related items result otherResult :=
  foldlM_simulation related paired run initially preserved

/-- The conflicts correspond. -/
theorem runConflictDetectors_keeping (alike : first.AnnotatesAlike kept second)
    {detectors : List ConflictDetector} (reads : ∀ detector ∈ detectors, ReadsClaims detector)
    {conflicts : List ConflictSet} (run : runConflictDetectors first detectors = .ok conflicts) :
    ∃ others, runConflictDetectors second detectors = .ok others ∧
      conflicts.map (ConflictSet.keeping kept) = others.map (ConflictSet.keeping kept) := by
  rcases bind_ok_iff.mp run with ⟨direct, detected, run⟩
  rcases bind_ok_iff.mp run with ⟨custom, reported, run⟩
  rcases bind_ok_iff.mp run with ⟨accepted, looped, run⟩
  rw [pure_ok_iff] at run
  rcases directConflicts_keeping alike detected with ⟨otherDirect, alsoDetected, equal⟩
  rcases directConflicts_named detected with ⟨apart, named⟩
  have alsoReported : (detectors.mapM fun detector => detector second) = .ok custom := by
    rcases mapM_image id (fun detector listed result computed =>
      ⟨result,
        ((reads detector listed).determined first second alike.toSameClaims).symm.trans computed,
        rfl⟩)
      reported with ⟨others, also, sameResults⟩
    rw [List.map_id, List.map_id] at sameResults
    rw [sameResults]
    exact also
  have customNamed : ∀ conflict ∈ custom.flatten, conflict.detectorId ≠ "direct" := by
    intro conflict listed
    rcases List.mem_flatten.mp listed with ⟨found, isFound, inside⟩
    rcases (mem_mapM_ok reported found).mp isFound with ⟨detector, isDetector, computed⟩
    exact (reads detector isDetector).named first found computed conflict inside
  rw [List.foldlM_append, bind_ok_iff] at looped
  rcases looped with ⟨middle, looped, loopedCustom⟩
  -- Direct conflicts have distinct keys, so none of them is reported twice.
  have paired : List.Forall₂ (fun conflict other : ConflictSet =>
      conflict.keeping kept = other.keeping kept) direct otherDirect := by
    have images : List.Forall₂ (· = ·) (direct.map (ConflictSet.keeping kept))
        (otherDirect.map (ConflictSet.keeping kept)) := List.forall₂_eq_eq_eq ▸ equal
    rw [List.forall₂_map_left_iff, List.forall₂_map_right_iff] at images
    exact images
  rcases acceptConflicts_simulation first second
    (fun done (state other : AcceptedConflicts) => state.Matches kept other ∧
      ∃ member, state.Holds member ∧ ∀ conflict, member conflict → conflict ∈ done)
    paired looped
    ⟨⟨fun _ => rfl, fun _ _ found _ => found, rfl⟩, _, AcceptedConflicts.holds_empty,
      fun _ none => none.elim⟩
    (by
      intro done conflict other rest state otherState next split equal holds stepped
      rcases holds with ⟨matching, member, holds, among⟩
      have isDirect : conflict.detectorId = "direct" := by
        apply named
        rw [split]
        simp
      have again : ∀ existing, state.byId[conflict.conflictId]? = some existing →
          pyEq existing conflict = true → conflict.detectorId ≠ "direct" := by
        intro existing found isEqual
        have before := among existing ((holds.byId _ _).mp found).1
        have keys : existing.key = conflict.key :=
          congrArg (fun key => key.1.2.1) (pyEq_iff.mp isEqual)
        rw [split] at apart
        exact absurd keys
          ((List.pairwise_append.mp apart).2.2 existing before conflict List.mem_cons_self)
      rcases acceptConflict_matches alike.toSameClaims matching equal
        (fun isCustom => absurd isDirect isCustom)
        again stepped with ⟨otherNext, also, after⟩
      refine ⟨otherNext, also, after, ?_⟩
      rcases acceptConflict_ok holds stepped with unchanged | entered
      · exact ⟨member, unchanged ▸ holds,
          fun conflict isMember => List.mem_append_left _ (among conflict isMember)⟩
      · refine ⟨_, entered, ?_⟩
        intro wanted isMember
        rcases isMember with before | isNew
        · exact List.mem_append_left _ (among wanted before)
        · simp [isNew])
    with ⟨otherMiddle, otherLooped, matching, _⟩
  rcases acceptConflicts_simulation first second
    (fun _ (state other : AcceptedConflicts) => state.Matches kept other)
    (List.forall₂_same.mpr fun (conflict : ConflictSet) (_ : conflict ∈ custom.flatten) => rfl)
    loopedCustom matching
    (by
      intro done conflict other rest state otherState next split equal matching stepped
      have isCustom : conflict.detectorId ≠ "direct" := by
        apply customNamed
        rw [split]
        simp
      subst equal
      exact acceptConflict_matches alike.toSameClaims matching rfl (fun _ => rfl)
        (fun _ _ _ => isCustom)
        stepped)
    with ⟨otherAccepted, otherLoopedCustom, final⟩
  refine ⟨Dict.values otherAccepted.byId, ?_, ?_⟩
  · rw [runConflictDetectors, bind_of_ok alsoDetected, bind_of_ok alsoReported,
      List.foldlM_append, bind_of_ok otherLooped, bind_of_ok otherLoopedCustom]
    rfl
  · have tables : (Std.ExtTreeMap.map (fun _ => ConflictSet.keeping kept) accepted.byId :
        Dict String ConflictSet) =
        Std.ExtTreeMap.map (fun _ => ConflictSet.keeping kept) otherAccepted.byId := by
      apply Dict.ext
      intro conflictId
      rw [Dict.get_map, Dict.get_map]
      exact final.byId conflictId
    rw [← run, ← Dict.values_map, ← Dict.values_map, tables]

end Detecting

/-! ## Materializing -/

section Computed

variable (kept : JSONObject → JSONObject)

/-- The indexes read the pairs of a conflict, not its annotations. -/
theorem buildIndexes_keeping (active : Dict ClaimKey (List Claim))
    (registry : PredicateRegistry) (direct : Dict ClaimKey ConflictSet) :
    buildIndexes active registry (Std.ExtTreeMap.map (fun _ => ConflictSet.keeping kept) direct) =
      buildIndexes active registry direct := by
  have each : ∀ (claims : List Claim) (conflict : Option ConflictSet),
      buildDirectConflictIndex claims registry (conflict.map (ConflictSet.keeping kept)) =
        buildDirectConflictIndex claims registry conflict := by
    intro claims conflict
    cases conflict with
    | none => rfl
    | some conflict => rfl
  unfold buildIndexes
  simp only [Dict.get_map, each]

/-- Resolutions are judged by the claims of a conflict, not by its annotations. -/
theorem foldLifecycle_keeping (resolutionsById : Dict String ResolutionRecord)
    (resolutionsByLane : Dict Lane (List ResolutionRecord))
    (eventsByLane : Dict Lane (List ConflictLifecycleEvent))
    (conflictsByRef : Dict String ConflictSet) (validAt : Option String) :
    foldLifecycle resolutionsById resolutionsByLane eventsByLane
        (Std.ExtTreeMap.map (fun _ => ConflictSet.keeping kept) conflictsByRef) validAt =
      foldLifecycle resolutionsById resolutionsByLane eventsByLane conflictsByRef validAt := by
  have each : ∀ (lanes : List Lane) (fold : LifecycleFold) (entry : String × ConflictSet),
      LifecycleFold.judgeConflict lanes fold (entry.1, entry.2.keeping kept) =
        LifecycleFold.judgeConflict lanes fold entry := fun _ _ _ => rfl
  simp only [foldLifecycle, Dict.toList_map, List.foldl_map, each]

theorem directConflictsByKey_keeping (conflicts : List ConflictSet) :
    Std.ExtTreeMap.map (fun _ => ConflictSet.keeping kept) (directConflictsByKey conflicts) =
      directConflictsByKey (conflicts.map (ConflictSet.keeping kept)) := by
  rw [directConflictsByKey, directConflictsByKey,
    Dict.map_ofItems (fun conflict : ConflictSet => conflict.key) (ConflictSet.keeping kept)
      (fun _ => rfl), List.filter_map]
  rfl

/-- What is computed from conflicts that correspond. -/
theorem conflicts_keeping {conflicts others : List ConflictSet}
    (equal : conflicts.map (ConflictSet.keeping kept) = others.map (ConflictSet.keeping kept))
    (active : Dict ClaimKey (List Claim)) (registry : PredicateRegistry)
    (resolutionsById : Dict String ResolutionRecord)
    (resolutionsByLane : Dict Lane (List ResolutionRecord))
    (eventsByLane : Dict Lane (List ConflictLifecycleEvent)) (validAt : Option String) :
    buildIndexes active registry (directConflictsByKey others) =
        buildIndexes active registry (directConflictsByKey conflicts) ∧
      foldLifecycle resolutionsById resolutionsByLane eventsByLane
          (Dict.ofItems (fun conflict : ConflictSet => conflict.conflictRef) others) validAt =
        foldLifecycle resolutionsById resolutionsByLane eventsByLane
          (Dict.ofItems (fun conflict : ConflictSet => conflict.conflictRef) conflicts)
          validAt := by
  have refs := Dict.map_ofItems (fun conflict : ConflictSet => conflict.conflictRef)
    (ConflictSet.keeping kept) (fun _ => rfl)
  constructor
  · rw [← buildIndexes_keeping kept, directConflictsByKey_keeping, ← equal,
      ← directConflictsByKey_keeping, buildIndexes_keeping]
  · rw [← foldLifecycle_keeping kept, refs, ← equal, ← refs, foldLifecycle_keeping]

end Computed

/-- What a materialization decides about claims and resolutions. -/
structure MemoryState.SameAuthority (first second : MemoryState) : Prop where
  claimsById : second.claimsById = first.claimsById
  active : second.activeClaimsByKey = first.activeClaimsByKey
  retracted : second.inactiveClaimIds = first.inactiveClaimIds
  activeResolutions : second.activeResolutionsByConflictRefAndScope =
    first.activeResolutionsByConflictRefAndScope
  effective : second.effectiveResolutionsByConflictRefAndScope =
    first.effectiveResolutionsByConflictRefAndScope
  statuses : second.lifecycleStatusByConflictRefAndScope =
    first.lifecycleStatusByConflictRefAndScope

/-- Decisions that can be sorted can be sorted without some of them. -/
theorem sortDecisions_narrowed {wide narrow : Dict String Decision} (bound : BoundIn wide narrow)
    {sorted : List Decision} (run : sortDecisions (Dict.values wide) = .ok sorted) :
    ∃ others, sortDecisions (Dict.values narrow) = .ok others := by
  rcases bind_ok_iff.mp run with ⟨timed, computed, _⟩
  have each : ∀ decision ∈ Dict.values narrow, ∃ entry, (do
      let time ← decisionTime decision
      return (time, decision)) = Except.ok entry := by
    intro decision listed
    rcases (Dict.mem_values narrow decision).mp listed with ⟨decisionId, found⟩
    rcases bound decisionId decision found with ⟨other, otherFound, same⟩
    rcases each_mapM_ok computed other ((Dict.mem_values wide other).mpr ⟨decisionId, otherFound⟩)
      with ⟨entry, isEntry⟩
    rcases bind_ok_iff.mp isEntry with ⟨time, isTime, _⟩
    have timestamps : other.timestamp = decision.timestamp :=
      congrArg (fun key => key.2.2.2) (pyEq_iff.mp same)
    rw [decisionTime, timestamps] at isTime
    have alsoTime : decisionTime decision = .ok time := isTime
    rw [bind_of_ok alsoTime]
    exact ⟨_, rfl⟩
  rcases exists_mapM_ok each with ⟨others, also⟩
  rw [sortDecisions, bind_of_ok also]
  exact ⟨_, rfl⟩

/-- Leaving records out that are neither claims nor about them changes nothing about claims
and resolutions. -/
theorem materialize_narrowed {log narrow : OpLog} {keep : Op → Bool}
    (authority : ∀ op ∈ log.iterOps, op.isAuthoritative = true → keep op = true)
    (kept : narrow.iterOps = log.iterOps.filter keep) {registry : PredicateRegistry}
    {detectors : List ConflictDetector} (reads : ∀ detector ∈ detectors, ReadsClaims detector)
    {validAt : Option String} {context : JSONObject} {state : MemoryState}
    (run : materialize log registry detectors validAt context = .ok state) :
    ∃ narrowed, materialize narrow registry detectors validAt context = .ok narrowed ∧
      state.SameAuthority narrowed := by
  rcases materialize_ok_iff.mp run with ⟨instant, collected, isCollected, active, isActive,
    decisions, isDecisions, conflicts, isConflicts, indexes, isIndexes, lifecycle, isLifecycle,
    isState⟩
  rcases collect_narrowed authority isCollected with ⟨others, alsoCollected, narrows⟩
  have inactive : inactiveIds others = inactiveIds collected := by
    rw [inactiveIds, inactiveIds, narrows.retractionsByTarget, narrows.retractionsByTargetRef,
      narrows.claimIdsByRef]
  have alsoActive : partitionClaims others (inactiveIds others) validAt context = .ok active := by
    rw [inactive, partitionClaims, narrows.claimsById]
    exact isActive
  rcases sortDecisions_narrowed narrows.decisions isDecisions with ⟨otherDecisions, alsoSorted⟩
  have alike : (detectionContext registry
      (sortGroups Claim.claimId (groupBy Claim.key active.1)) collected.evidenceById
        collected.sourcesById collected.derivationsById decisions).AnnotatesAlike (fun _ => ∅)
      (detectionContext registry (sortGroups Claim.claimId (groupBy Claim.key active.1))
        others.evidenceById others.sourcesById others.derivationsById otherDecisions) :=
    ⟨⟨rfl, rfl, rfl⟩, fun _ _ => rfl⟩
  rcases runConflictDetectors_keeping alike reads isConflicts with
    ⟨otherConflicts, alsoConflicts, equal⟩
  rcases conflicts_keeping _ equal (sortGroups Claim.claimId (groupBy Claim.key active.1))
    registry collected.resolutionsById (groupResolutionHistory collected.resolutionsById).2
    (groupLifecycleHistory collected.lifecycleEventsById).2 validAt with
    ⟨sameIndexes, sameLifecycle⟩
  have alsoLifecycle := sameLifecycle.trans isLifecycle
  rw [← narrows.resolutionsById, ← narrows.lifecycleEventsById] at alsoLifecycle
  have alsoRun := materialize_ok_iff.mpr ⟨instant, others, kept ▸ alsoCollected, active,
    alsoActive, otherDecisions, alsoSorted, otherConflicts, alsoConflicts, indexes,
    sameIndexes.trans isIndexes, lifecycle, alsoLifecycle, rfl⟩
  refine ⟨_, alsoRun, ?_⟩
  rw [← isState]
  exact ⟨narrows.claimsById, rfl, inactive, rfl, rfl, rfl⟩

end Statefuse
