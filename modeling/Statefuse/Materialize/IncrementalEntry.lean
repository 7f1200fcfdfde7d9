import Statefuse.Materialize.Common

/-!
# The first loop of an incremental step

The working copies hold exactly the records of the state and of the operations that
have been entered (`Working.Holds`), and the marks cover everything that these
operations may affect (`Working.Marks`): a claim whose key is not marked is untouched,
and likewise for claims, conflict references and resolutions.
-/

namespace Statefuse

open Foundation

section Inserting

variable {α : Type} [PyEq α] {records : Dict String α} {key : α → String} {member : α → Prop}

theorem insertImmutable_ok_iff (lists : Lists records key member) (record : α) (name : String)
    (structural : ∀ other, member other → pyEq other record = true → other = record)
    (result : Dict String α × Bool) :
    insertImmutable records (key record) record name = .ok result ↔
      (member record ∧ result = (records, false)) ∨
      ((∀ other, member other → key other ≠ key record) ∧
        result = (records.insert (key record) record, true)) := by
  unfold insertImmutable
  cases found : records[key record]? with
  | none =>
      have new := lists.get_none.mp found
      simp only [Except.ok.injEq]
      constructor
      · intro same
        exact Or.inr ⟨new, same.symm⟩
      · rintro (⟨listed, _⟩ | ⟨_, same⟩)
        · exact absurd rfl (new record listed)
        · exact same.symm
  | some existing =>
      obtain ⟨listed, same⟩ := (lists _ _).mp found
      by_cases equal : pyEq existing record = true
      · simp only [if_pos equal, Except.ok.injEq]
        have identical := structural existing listed equal
        constructor
        · intro kept
          rw [identical] at listed
          exact Or.inl ⟨listed, kept.symm⟩
        · rintro (⟨_, kept⟩ | ⟨new, _⟩)
          · exact kept.symm
          · exact absurd same (new existing listed)
      · simp only [if_neg equal]
        constructor
        · intro impossible
          cases impossible
        · rintro (⟨known, _⟩ | ⟨new, _⟩)
          · rw [lists.eq_of_key listed known same] at equal
            exact absurd (pyEq_refl record) equal
          · exact absurd same (new existing listed)

theorem insertImmutable_exists (lists : Lists records key member) {record : α} (name : String)
    (structural : ∀ other, member other → pyEq other record = true → other = record)
    (compatible : ∀ other, member other → key other = key record → other = record) :
    ∃ result, insertImmutable records (key record) record name = .ok result := by
  by_cases known : member record
  · exact ⟨_, (insertImmutable_ok_iff lists record name structural _).mpr (Or.inl ⟨known, rfl⟩)⟩
  · refine ⟨_, (insertImmutable_ok_iff lists record name structural _).mpr (Or.inr ⟨?_, rfl⟩)⟩
    intro other listed same
    rw [compatible other listed same] at listed
    exact known listed

end Inserting

theorem mem_addAll {α : Type} [LinearOrder α] {set : PySet α} {items : List α} {value : α} :
    value ∈ addAll set items ↔ value ∈ set ∨ value ∈ items :=
  PySet.mem_foldl_insert

private theorem absorbed {α : Type} {member : α → Prop} {record : α} (listed : member record) :
    (fun other => member other ∨ other = record) = member := by
  funext other
  apply propext
  constructor
  · rintro (known | same)
    · exact known
    · rw [same]
      exact listed
  · exact Or.inl

/-- The relation of a table of groups that has been extended by one record. -/
private theorem extended_iff {α K : Type} {member : α → Prop} (key : α → K) {fresh other : α}
    {wanted : K} :
    (member other ∧ key other = wanted) ∨ (wanted = key fresh ∧ other = fresh) ↔
      (member other ∨ other = fresh) ∧ key other = wanted := by
  constructor
  · rintro (⟨listed, same⟩ | ⟨same, equal⟩)
    · exact ⟨Or.inl listed, same⟩
    · rw [equal]
      exact ⟨Or.inr rfl, same.symm⟩
  · rintro ⟨listed | equal, same⟩
    · exact Or.inl ⟨listed, same⟩
    · rw [equal] at same
      exact Or.inr ⟨same.symm, equal⟩

/-- The relation of a reverse index that has been extended by one record. -/
private theorem indexed_iff {α : Type} {member : α → Prop} (keys : α → List String)
    (value : α → String) {fresh : α} {wanted found : String} :
    (∃ record, member record ∧ wanted ∈ keys record ∧ found = value record) ∨
        (wanted ∈ keys fresh ∧ found = value fresh) ↔
      ∃ record, (member record ∨ record = fresh) ∧ wanted ∈ keys record ∧
        found = value record := by
  constructor
  · rintro (⟨record, listed, cited, same⟩ | ⟨cited, same⟩)
    · exact ⟨record, Or.inl listed, cited, same⟩
    · exact ⟨fresh, Or.inr rfl, cited, same⟩
  · rintro ⟨record, listed | equal, cited, same⟩
    · exact Or.inl ⟨record, listed, cited, same⟩
    · rw [equal] at cited same
      exact Or.inr ⟨cited, same⟩

variable [Runtime]

/-! ## What the first loop maintains -/

/-- Nothing that a claim's part in the findings depends on has changed. -/
structure Untouched (registry : PredicateRegistry) (before contents : Contents) (claim : Claim) :
    Prop where
  known : before.claim claim
  active : before.active registry claim ↔ contents.active registry claim
  evidence : ∀ evidence, contents.evidence evidence → evidence.evidenceId ∈ claim.evidenceIds →
    before.evidence evidence
  source : ∀ evidence source, contents.evidence evidence →
    evidence.evidenceId ∈ claim.evidenceIds → contents.source source →
    evidence.sourceId = some source.sourceId → before.source source
  derivation : ∀ derivation, contents.derivation derivation →
    claim.derivationId = some derivation.derivationId → before.derivation derivation

namespace Working

/-- The reverse indexes of the working copies. -/
structure Indexed (working : Working) (registry : PredicateRegistry) (contents : Contents) :
    Prop where
  claimRefs : Projects working.claimRefsById (·.claimId) contents.claim
    (fun claim claimRef => registry.claimRefForClaim claim = claimRef)
  claimIdsByRef : Indexes working.claimIdsByRef (fun claimRef claimId =>
    ∃ claim, contents.claim claim ∧ registry.claimRefForClaim claim = claimRef ∧
      claim.claimId = claimId)
  claimIdsByEvidence : Indexes working.claimIdsByEvidenceId (fun evidenceId claimId =>
    ∃ claim, contents.claim claim ∧ evidenceId ∈ claim.evidenceIds ∧ claimId = claim.claimId)
  claimIdsByDerivation : Indexes working.claimIdsByDerivationId (fun derivationId claimId =>
    ∃ claim, contents.claim claim ∧ derivationId ∈ claim.derivationId.toList ∧
      claimId = claim.claimId)
  evidenceIdsBySource : Indexes working.evidenceIdsBySourceId (fun sourceId evidenceId =>
    ∃ evidence, contents.evidence evidence ∧ sourceId ∈ evidence.sourceId.toList ∧
      evidenceId = evidence.evidenceId)
  resolutionIdsByClaim : Indexes working.resolutionIdsByClaimId (fun claimId resolutionId =>
    ∃ resolution, contents.resolution resolution ∧ claimId ∈ resolution.claimIds ∧
      resolutionId = resolution.resolutionId)

/-- The retractions and what they deactivate. -/
structure Activity (working : Working) (registry : PredicateRegistry) (contents : Contents) :
    Prop where
  target : SortedGroups ClaimRetracted.order working.retractionsByTarget
    (contents.retractedUnder (·.targetClaimId))
  targetRef : SortedGroups ClaimRetracted.order working.retractionsByTargetRef
    (contents.retractedUnder (·.targetClaimRef))
  superseder : SortedGroups ClaimRetracted.order working.retractionsBySuperseder
    (contents.retractedUnder (·.supersedesClaimId))
  supersederRef : SortedGroups ClaimRetracted.order working.retractionsBySupersederRef
    (contents.retractedUnder (·.supersedesClaimRef))
  inactive : ∀ claimId, claimId ∈ working.inactiveClaimIds ↔ contents.inactive registry claimId
  inapplicable : working.inapplicableClaimIds = ∅
  active : ∀ (key : ClaimKey) (claim : Claim), claim ∈ working.activeClaimsByKey[key]?.getD [] ↔
    contents.active registry claim ∧ claim.key = key
  distinct : ∀ (key : ClaimKey) (claims : List Claim), working.activeClaimsByKey[key]? =
    some claims → claims.Pairwise (fun first second => first.claimId ≠ second.claimId)

/-- The histories of conflict references and lanes. -/
structure Histories (working : Working) (contents : Contents) : Prop where
  resolutionsByRef : SortedGroups ResolutionRecord.order working.resolutionsByRef
    (fun conflictRef resolution => contents.resolution resolution ∧
      resolution.conflictRef = conflictRef)
  resolutionsByLane : SortedGroups ResolutionRecord.order working.resolutionsByLane
    (fun lane resolution => contents.resolution resolution ∧ resolution.lane = lane)
  eventsByRef : SortedGroups ConflictLifecycleEvent.order working.lifecycleByRef
    (fun conflictRef event => contents.event event ∧ event.conflictRef = conflictRef)
  eventsByLane : SortedGroups ConflictLifecycleEvent.order working.lifecycleByLane
    (fun lane event => contents.event event ∧ event.lane = lane)

/-- The marks cover what the new operations may affect. -/
structure Marks (working : Working) (registry : PredicateRegistry) (before contents : Contents) :
    Prop where
  keys : ∀ claim, contents.claim claim → claim.key ∉ working.affectedKeys →
    Untouched registry before contents claim
  claimIds : ∀ claim, contents.claim claim → claim.claimId ∉ working.affectedClaimIds →
    before.claim claim ∧ (before.active registry claim ↔ contents.active registry claim)
  resolutionRefs : ∀ resolution, contents.resolution resolution →
    resolution.conflictRef ∉ working.affectedConflictRefs → before.resolution resolution
  eventRefs : ∀ event, contents.event event →
    event.conflictRef ∉ working.affectedConflictRefs → before.event event
  resolutionIds : ∀ resolution, contents.resolution resolution →
    resolution.resolutionId ∉ working.affectedResolutionIds → before.resolution resolution ∧
    ∀ claim, contents.claim claim → claim.claimId ∈ resolution.claimIds → before.claim claim

/-- The working copies hold the contents, and the marks cover what is new in them. -/
structure Holds (working : Working) (registry : PredicateRegistry) (before contents : Contents) :
    Prop where
  within : before.Within contents
  records : working.toRecords.Holds contents
  indexed : working.Indexed registry contents
  activity : working.Activity registry contents
  histories : working.Histories contents
  marks : working.Marks registry before contents

variable {working next : Working} {registry : PredicateRegistry} {before contents : Contents}

theorem mem_markClaimKeys {claimIds : List String} {key : ClaimKey} :
    key ∈ (working.markClaimKeys claimIds).affectedKeys ↔ key ∈ working.affectedKeys ∨
      ∃ claimId ∈ claimIds, ∃ claim, working.claimsById[claimId]? = some claim ∧
        claim.key = key := by
  induction claimIds generalizing working with
  | nil => simp [markClaimKeys]
  | cons head tail inductionHypothesis =>
      have one : working.markClaimKeys (head :: tail) =
          (working.markClaimKeys [head]).markClaimKeys tail := rfl
      have sameClaims : (working.markClaimKeys [head]).claimsById = working.claimsById := rfl
      have first : key ∈ (working.markClaimKeys [head]).affectedKeys ↔
          key ∈ working.affectedKeys ∨
            ∃ claim, working.claimsById[head]? = some claim ∧ claim.key = key := by
        cases found : working.claimsById[head]? with
        | none => simp [markClaimKeys, found]
        | some claim =>
            simp only [markClaimKeys, List.foldl_cons, List.foldl_nil, found, PySet.mem_insert,
              Option.some.injEq, exists_eq_left']
            exact or_comm
      rw [one, inductionHypothesis, sameClaims, first, or_assoc]
      simp only [List.mem_cons, exists_eq_or_imp]

/-- Marking the keys of the claims of several sets. -/
theorem markClaimKeys_all (evidenceIds : List String) :
    ∃ keys : PySet ClaimKey,
      evidenceIds.foldl (fun working evidenceId =>
        working.markClaimKeys (working.claimIdsByEvidenceId[evidenceId]?.getD ∅).toList) working =
        { working with affectedKeys := keys } ∧
      ∀ key, key ∈ keys ↔ key ∈ working.affectedKeys ∨ ∃ evidenceId ∈ evidenceIds,
        ∃ claimId ∈ working.claimIdsByEvidenceId[evidenceId]?.getD ∅, ∃ claim,
          working.claimsById[claimId]? = some claim ∧ claim.key = key := by
  induction evidenceIds generalizing working with
  | nil => exact ⟨working.affectedKeys, rfl, by simp⟩
  | cons head tail inductionHypothesis =>
      obtain ⟨keys, same, members⟩ := @inductionHypothesis
        (working.markClaimKeys (working.claimIdsByEvidenceId[head]?.getD ∅).toList)
      refine ⟨keys, same, ?_⟩
      intro key
      rw [members key, mem_markClaimKeys]
      simp only [PySet.mem_toList, List.mem_cons, exists_eq_or_imp, or_assoc]
      exact Iff.rfl

/-! ## One operation -/

theorem applySource_holds {header : OpHeader} {source : Source}
    (holds : working.Holds registry before contents)
    (plain : (contents.add (.sourceAdded header source)).Plain)
    (run : working.applySource source = .ok next) :
    next.Holds registry before (contents.add (.sourceAdded header source)) := by
  rw [applySource, bind_ok_iff] at run
  obtain ⟨result, inserted, run⟩ := run
  rw [insertImmutable_ok_iff holds.records.sources source "source_id"
    (fun other listed => plain.source other source (Or.inl listed) (Or.inr rfl))] at inserted
  rcases inserted with ⟨listed, same⟩ | ⟨new, same⟩
  · subst same
    injection run with run
    rw [← run, Contents.add, absorbed listed]
    exact holds
  · subst same
    injection run with run
    obtain ⟨keys, marked, members⟩ := @markClaimKeys_all _
      { working with sourcesById := working.sourcesById.insert source.sourceId source }
      (working.evidenceIdsBySourceId[source.sourceId]?.getD ∅).toList
    rw [← run]
    dsimp only
    rw [marked]
    have distinct : ∀ other, contents.source other → other.sourceId = source.sourceId →
        other = source := fun other listed equal => absurd equal (new other listed)
    refine ⟨?_, ?_, { holds.indexed with }, { holds.activity with }, { holds.histories with }, ?_⟩
    · exact { holds.within with
        source := fun record listed => Or.inl (holds.within.source record listed) }
    · exact { holds.records with sources := holds.records.sources.insert source distinct }
    · refine ⟨?_, holds.marks.claimIds, holds.marks.resolutionRefs, holds.marks.eventRefs,
        holds.marks.resolutionIds⟩
      intro claim listed unmarked
      rw [members] at unmarked
      obtain ⟨oldUnmarked, fresh⟩ := not_or.mp unmarked
      have untouched := holds.marks.keys claim listed oldUnmarked
      refine ⟨untouched.known, untouched.active, untouched.evidence, ?_, untouched.derivation⟩
      rintro evidence other isEvidence cited (isSource | isNew) sameSource
      · exact untouched.source evidence other isEvidence cited isSource sameSource
      · -- The new source is that of some evidence of the claim, so the key is marked.
        subst isNew
        refine absurd ⟨evidence.evidenceId, ?_, claim.claimId, ?_, claim, ?_, rfl⟩ fresh
        · rw [PySet.mem_toList]
          exact (holds.indexed.evidenceIdsBySource.mem_getD _ _).mpr
            ⟨evidence, isEvidence, by rw [sameSource]; simp, rfl⟩
        · exact (holds.indexed.claimIdsByEvidence.mem_getD _ _).mpr ⟨claim, listed, cited, rfl⟩
        · exact holds.records.claims.get_key listed

theorem applyEvidence_holds {header : OpHeader} {evidence : Evidence}
    (holds : working.Holds registry before contents)
    (plain : (contents.add (.evidenceAdded header evidence)).Plain)
    (run : working.applyEvidence evidence = .ok next) :
    next.Holds registry before (contents.add (.evidenceAdded header evidence)) := by
  rw [applyEvidence, bind_ok_iff] at run
  obtain ⟨result, inserted, run⟩ := run
  rw [insertImmutable_ok_iff holds.records.evidence evidence "evidence_id"
    (fun other listed => plain.evidence other evidence (Or.inl listed) (Or.inr rfl))] at inserted
  rcases inserted with ⟨listed, same⟩ | ⟨new, same⟩
  · subst same
    injection run with run
    rw [← run, Contents.add, absorbed listed]
    exact holds
  · subst same
    injection run with run
    rw [← run]
    have distinct : ∀ other, contents.evidence other → other.evidenceId = evidence.evidenceId →
        other = evidence := fun other listed equal => absurd equal (new other listed)
    refine ⟨?_, ?_, ?_, { holds.activity with }, { holds.histories with }, ?_⟩
    · exact { holds.within with
        evidence := fun record listed => Or.inl (holds.within.evidence record listed) }
    · exact { holds.records with evidence := holds.records.evidence.insert evidence distinct }
    · refine { holds.indexed with
        evidenceIdsBySource := (holds.indexed.evidenceIdsBySource.addUnder
          evidence.sourceId.toList evidence.evidenceId).congr ?_ }
      exact fun _ _ => indexed_iff (fun item : Evidence => item.sourceId.toList) (·.evidenceId)
    · refine ⟨?_, holds.marks.claimIds, holds.marks.resolutionRefs, holds.marks.eventRefs,
        holds.marks.resolutionIds⟩
      intro claim listed unmarked
      rw [mem_markClaimKeys] at unmarked
      obtain ⟨oldUnmarked, fresh⟩ := not_or.mp unmarked
      have untouched := holds.marks.keys claim listed oldUnmarked
      have uncited : evidence.evidenceId ∉ claim.evidenceIds := by
        intro cited
        refine fresh ⟨claim.claimId, ?_, claim, holds.records.claims.get_key listed, rfl⟩
        rw [PySet.mem_toList]
        exact (holds.indexed.claimIdsByEvidence.mem_getD _ _).mpr ⟨claim, listed, cited, rfl⟩
      refine ⟨untouched.known, untouched.active, ?_, ?_, untouched.derivation⟩
      · rintro record (isEvidence | isNew) cited
        · exact untouched.evidence record isEvidence cited
        · rw [isNew] at cited
          exact absurd cited uncited
      · rintro record source (isEvidence | isNew) cited isSource sameSource
        · exact untouched.source record source isEvidence cited isSource sameSource
        · rw [isNew] at cited
          exact absurd cited uncited

theorem applyDecision_holds {header : OpHeader} {decision : Decision}
    (holds : working.Holds registry before contents)
    (plain : (contents.add (.decisionAdded header decision)).Plain)
    (run : working.applyDecision decision = .ok next) :
    next.Holds registry before (contents.add (.decisionAdded header decision)) := by
  rw [applyDecision, bind_ok_iff] at run
  obtain ⟨result, inserted, run⟩ := run
  rw [insertImmutable_ok_iff holds.records.decisions decision "decision_id"
    (fun other listed => plain.decision other decision (Or.inl listed) (Or.inr rfl))] at inserted
  rcases inserted with ⟨listed, same⟩ | ⟨new, same⟩
  · subst same
    injection run with run
    rw [← run, Contents.add, absorbed listed]
    exact holds
  · subst same
    injection run with run
    rw [← run]
    have distinct : ∀ other, contents.decision other → other.decisionId = decision.decisionId →
        other = decision := fun other listed equal => absurd equal (new other listed)
    refine ⟨?_, ?_, { holds.indexed with }, { holds.activity with }, { holds.histories with }, ?_⟩
    · exact { holds.within with
        decision := fun record listed => Or.inl (holds.within.decision record listed) }
    · exact { holds.records with decisions := holds.records.decisions.insert decision distinct }
    · refine ⟨?_, holds.marks.claimIds, holds.marks.resolutionRefs, holds.marks.eventRefs,
        holds.marks.resolutionIds⟩
      intro claim listed unmarked
      have untouched := holds.marks.keys claim listed unmarked
      exact ⟨untouched.known, untouched.active, untouched.evidence, untouched.source,
        untouched.derivation⟩

theorem applyDerivation_holds {header : OpHeader} {derivation : Derivation}
    (holds : working.Holds registry before contents)
    (plain : (contents.add (.derivationAdded header derivation)).Plain)
    (run : working.applyDerivation derivation = .ok next) :
    next.Holds registry before (contents.add (.derivationAdded header derivation)) := by
  rw [applyDerivation, bind_ok_iff] at run
  obtain ⟨result, inserted, run⟩ := run
  rw [insertImmutable_ok_iff holds.records.derivations derivation "derivation_id"
    (fun other listed => plain.derivation other derivation (Or.inl listed) (Or.inr rfl))]
    at inserted
  rcases inserted with ⟨listed, same⟩ | ⟨new, same⟩
  · subst same
    injection run with run
    rw [← run, Contents.add, absorbed listed]
    exact holds
  · subst same
    injection run with run
    rw [← run]
    have distinct : ∀ other, contents.derivation other →
        other.derivationId = derivation.derivationId → other = derivation :=
      fun other listed equal => absurd equal (new other listed)
    refine ⟨?_, ?_, { holds.indexed with }, { holds.activity with }, { holds.histories with }, ?_⟩
    · exact { holds.within with
        derivation := fun record listed => Or.inl (holds.within.derivation record listed) }
    · exact { holds.records with
        derivations := holds.records.derivations.insert derivation distinct }
    · refine ⟨?_, holds.marks.claimIds, holds.marks.resolutionRefs, holds.marks.eventRefs,
        holds.marks.resolutionIds⟩
      intro claim listed unmarked
      rw [mem_markClaimKeys] at unmarked
      obtain ⟨oldUnmarked, fresh⟩ := not_or.mp unmarked
      have untouched := holds.marks.keys claim listed oldUnmarked
      refine ⟨untouched.known, untouched.active, untouched.evidence, untouched.source, ?_⟩
      rintro record (isDerivation | isNew) cited
      · exact untouched.derivation record isDerivation cited
      · rw [isNew] at cited
        refine absurd ⟨claim.claimId, ?_, claim, holds.records.claims.get_key listed, rfl⟩ fresh
        rw [PySet.mem_toList]
        exact (holds.indexed.claimIdsByDerivation.mem_getD _ _).mpr
          ⟨claim, listed, by rw [cited]; simp, rfl⟩

theorem applyResolution_holds {header : OpHeader} {resolution : ResolutionRecord}
    (holds : working.Holds registry before contents)
    (plain : (contents.add (.resolutionAdded header resolution)).Plain)
    (run : working.applyResolution resolution = .ok next) :
    next.Holds registry before (contents.add (.resolutionAdded header resolution)) := by
  rw [applyResolution, bind_ok_iff] at run
  obtain ⟨result, inserted, run⟩ := run
  rw [insertImmutable_ok_iff holds.records.resolutions resolution "resolution_id"
    (fun other listed => plain.resolution other resolution (Or.inl listed) (Or.inr rfl))]
    at inserted
  rcases inserted with ⟨listed, same⟩ | ⟨new, same⟩
  · subst same
    injection run with run
    rw [← run, Contents.add, absorbed listed]
    exact holds
  · subst same
    injection run with run
    rw [← run]
    have distinct : ∀ other, contents.resolution other →
        other.resolutionId = resolution.resolutionId → other = resolution :=
      fun other listed equal => absurd equal (new other listed)
    have apart : ∀ other, contents.resolution other → other.order ≠ resolution.order :=
      fun other listed equal => new other listed (congrArg Prod.snd equal)
    refine ⟨?_, ?_, ?_, { holds.activity with }, ?_, ?_⟩
    · exact { holds.within with
        resolution := fun record listed => Or.inl (holds.within.resolution record listed) }
    · exact { holds.records with
        resolutions := holds.records.resolutions.insert resolution distinct }
    · refine { holds.indexed with
        resolutionIdsByClaim := (holds.indexed.resolutionIdsByClaim.addUnder
          resolution.claimIds resolution.resolutionId).congr ?_ }
      exact fun _ _ => indexed_iff ResolutionRecord.claimIds (·.resolutionId)
    · refine { holds.histories with
        resolutionsByRef := (holds.histories.resolutionsByRef.insertSorted resolution.conflictRef
          resolution (fun other related => apart other related.1)).congr ?_
        resolutionsByLane := (holds.histories.resolutionsByLane.insertSorted resolution.lane
          resolution (fun other related => apart other related.1)).congr ?_ }
      · exact fun _ _ => extended_iff (fun record : ResolutionRecord => record.conflictRef)
      · exact fun _ _ => extended_iff ResolutionRecord.lane
    · refine ⟨?_, holds.marks.claimIds, ?_, ?_, ?_⟩
      · intro claim listed unmarked
        have untouched := holds.marks.keys claim listed unmarked
        exact ⟨untouched.known, untouched.active, untouched.evidence, untouched.source,
          untouched.derivation⟩
      · rintro record listed unmarked
        obtain ⟨different, oldUnmarked⟩ := not_or.mp (mt (PySet.mem_insert _ _ _).mpr unmarked)
        rcases listed with known | isNew
        · exact holds.marks.resolutionRefs record known oldUnmarked
        · rw [isNew] at different
          exact absurd rfl different
      · intro event listed unmarked
        obtain ⟨_, oldUnmarked⟩ := not_or.mp (mt (PySet.mem_insert _ _ _).mpr unmarked)
        exact holds.marks.eventRefs event listed oldUnmarked
      · rintro record listed unmarked
        obtain ⟨different, oldUnmarked⟩ := not_or.mp (mt (PySet.mem_insert _ _ _).mpr unmarked)
        rcases listed with known | isNew
        · exact holds.marks.resolutionIds record known oldUnmarked
        · rw [isNew] at different
          exact absurd rfl different

theorem applyEvent_holds {header : OpHeader} {event : ConflictLifecycleEvent}
    (holds : working.Holds registry before contents)
    (plain : (contents.add (.conflictLifecycleEventAdded header event)).Plain)
    (run : working.applyEvent event = .ok next) :
    next.Holds registry before (contents.add (.conflictLifecycleEventAdded header event)) := by
  rw [applyEvent, bind_ok_iff] at run
  obtain ⟨result, inserted, run⟩ := run
  rw [insertImmutable_ok_iff holds.records.events event "event_id"
    (fun other listed => plain.event other event (Or.inl listed) (Or.inr rfl))] at inserted
  rcases inserted with ⟨listed, same⟩ | ⟨new, same⟩
  · subst same
    injection run with run
    rw [← run, Contents.add, absorbed listed]
    exact holds
  · subst same
    injection run with run
    rw [← run]
    have distinct : ∀ other, contents.event other → other.eventId = event.eventId →
        other = event := fun other listed equal => absurd equal (new other listed)
    have apart : ∀ other, contents.event other → other.order ≠ event.order :=
      fun other listed equal => new other listed (congrArg Prod.snd equal)
    refine ⟨?_, ?_, { holds.indexed with }, { holds.activity with }, ?_, ?_⟩
    · exact { holds.within with
        event := fun record listed => Or.inl (holds.within.event record listed) }
    · exact { holds.records with events := holds.records.events.insert event distinct }
    · refine { holds.histories with
        eventsByRef := (holds.histories.eventsByRef.insertSorted event.conflictRef event
          (fun other related => apart other related.1)).congr ?_
        eventsByLane := (holds.histories.eventsByLane.insertSorted event.lane event
          (fun other related => apart other related.1)).congr ?_ }
      · exact fun _ _ => extended_iff (fun record : ConflictLifecycleEvent => record.conflictRef)
      · exact fun _ _ => extended_iff ConflictLifecycleEvent.lane
    · refine ⟨?_, holds.marks.claimIds, ?_, ?_, holds.marks.resolutionIds⟩
      · intro claim listed unmarked
        have untouched := holds.marks.keys claim listed unmarked
        exact ⟨untouched.known, untouched.active, untouched.evidence, untouched.source,
          untouched.derivation⟩
      · intro record listed unmarked
        obtain ⟨_, oldUnmarked⟩ := not_or.mp (mt (PySet.mem_insert _ _ _).mpr unmarked)
        exact holds.marks.resolutionRefs record listed oldUnmarked
      · rintro record listed unmarked
        obtain ⟨different, oldUnmarked⟩ := not_or.mp (mt (PySet.mem_insert _ _ _).mpr unmarked)
        rcases listed with known | isNew
        · exact holds.marks.eventRefs record known oldUnmarked
        · rw [isNew] at different
          exact absurd rfl different

/-! ## A new claim -/

/-- Some retraction is about the reference of a claim. -/
private def refRetracted (registry : PredicateRegistry) (contents : Contents) (claim : Claim) :
    Prop :=
  ∃ retraction, contents.retraction retraction ∧
    truthy retraction.targetClaimRef = some (registry.claimRefForClaim claim)

private theorem inactive_addClaim {header : OpHeader} {claim : Claim} (claimId : String) :
    (contents.add (.claimAdded header claim)).inactive registry claimId ↔
      contents.inactive registry claimId ∨
        (refRetracted registry contents claim ∧ claim.claimId = claimId) := by
  constructor
  · rintro (byId | ⟨retraction, other, isRetraction, known | isNew, target, same⟩)
    · exact Or.inl (Or.inl byId)
    · exact Or.inl (Or.inr ⟨retraction, other, isRetraction, known, target, same⟩)
    · rw [isNew] at target same
      exact Or.inr ⟨⟨retraction, isRetraction, target⟩, same⟩
  · rintro ((byId | ⟨retraction, other, isRetraction, known, target, same⟩) |
      ⟨⟨retraction, isRetraction, target⟩, same⟩)
    · exact Or.inl byId
    · exact Or.inr ⟨retraction, other, isRetraction, Or.inl known, target, same⟩
    · exact Or.inr ⟨retraction, claim, isRetraction, Or.inr rfl, target, same⟩

private theorem active_addClaim_of_ne {header : OpHeader} {claim other : Claim}
    (different : other.claimId ≠ claim.claimId) :
    (contents.add (.claimAdded header claim)).active registry other ↔
      contents.active registry other := by
  have stays : (contents.add (.claimAdded header claim)).inactive registry other.claimId ↔
      contents.inactive registry other.claimId := by
    rw [inactive_addClaim]
    constructor
    · rintro (old | ⟨_, same⟩)
      · exact old
      · exact absurd same.symm different
    · exact Or.inl
  rw [Contents.active, Contents.active, stays]
  refine and_congr_left (fun _ => ⟨?_, Or.inl⟩)
  rintro (known | isNew)
  · exact known
  · rw [isNew] at different
    exact absurd rfl different

/-- The check of the first loop on a claim that has just arrived. -/
private theorem retracted_iff {header : OpHeader} {claim : Claim}
    (holds : working.Holds registry before contents)
    (new : ∀ other, contents.claim other → other.claimId ≠ claim.claimId) :
    (working.retractionsByTarget.contains claim.claimId ||
      working.retractionsByTargetRef.contains (registry.claimRefForClaim claim)) = true ↔
      (contents.add (.claimAdded header claim)).inactive registry claim.claimId := by
  rw [Bool.or_eq_true, Std.ExtTreeMap.contains_iff_mem, Std.ExtTreeMap.contains_iff_mem,
    holds.activity.target.isSome_iff, holds.activity.targetRef.isSome_iff, inactive_addClaim]
  constructor
  · rintro (⟨retraction, isRetraction, target⟩ | ⟨retraction, isRetraction, target⟩)
    · exact Or.inl (Or.inl ⟨retraction, isRetraction, target⟩)
    · exact Or.inr ⟨⟨retraction, isRetraction, target⟩, rfl⟩
  · rintro ((⟨retraction, isRetraction, target⟩ | ⟨_, other, _, known, _, same⟩) |
      ⟨⟨retraction, isRetraction, target⟩, _⟩)
    · exact Or.inl ⟨retraction, isRetraction, target⟩
    · exact absurd same (new other known)
    · exact Or.inr ⟨retraction, isRetraction, target⟩

/-- The active claims with one more. -/
theorem mem_append_active {groups : Dict ClaimKey (List Claim)} {claim : Claim}
    (key : ClaimKey) (other : Claim) :
    other ∈ (groups.insert claim.key (groups[claim.key]?.getD [] ++ [claim]))[key]?.getD [] ↔
      other ∈ groups[key]?.getD [] ∨ (other = claim ∧ claim.key = key) := by
  rw [Dict.get_insert]
  by_cases same : claim.key = key
  · subst same
    simp
  · simp [same]

private theorem activity_addClaim {header : OpHeader} {claim : Claim}
    (holds : working.Holds registry before contents)
    (new : ∀ other, contents.claim other → other.claimId ≠ claim.claimId)
    (sameTarget : next.retractionsByTarget = working.retractionsByTarget)
    (sameTargetRef : next.retractionsByTargetRef = working.retractionsByTargetRef)
    (sameSuperseder : next.retractionsBySuperseder = working.retractionsBySuperseder)
    (sameSupersederRef : next.retractionsBySupersederRef = working.retractionsBySupersederRef)
    (sameInapplicable : next.inapplicableClaimIds = working.inapplicableClaimIds)
    (inactiveIds : next.inactiveClaimIds =
      if working.retractionsByTarget.contains claim.claimId ||
          working.retractionsByTargetRef.contains (registry.claimRefForClaim claim) then
        working.inactiveClaimIds.insert claim.claimId
      else working.inactiveClaimIds)
    (activeClaims : next.activeClaimsByKey =
      if working.retractionsByTarget.contains claim.claimId ||
          working.retractionsByTargetRef.contains (registry.claimRefForClaim claim) then
        working.activeClaimsByKey
      else working.activeClaimsByKey.insert claim.key
        (working.activeClaimsByKey[claim.key]?.getD [] ++ [claim])) :
    next.Activity registry (contents.add (.claimAdded header claim)) := by
  have activity := holds.activity
  have flag := @retracted_iff _ _ _ _ _ header claim holds new
  refine ⟨?_, ?_, ?_, ?_, ?_, ?_, ?_, ?_⟩
  · rw [sameTarget]
    exact activity.target
  · rw [sameTargetRef]
    exact activity.targetRef
  · rw [sameSuperseder]
    exact activity.superseder
  · rw [sameSupersederRef]
    exact activity.supersederRef
  · intro claimId
    rw [inactiveIds]
    by_cases same : claim.claimId = claimId
    · subst same
      rw [← flag]
      split
      case isTrue retracted => simp [retracted]
      case isFalse retained =>
        rw [activity.inactive]
        refine ⟨fun old => absurd (flag.mpr ?_) retained,
          fun impossible => absurd impossible retained⟩
        rw [inactive_addClaim]
        exact Or.inl old
    · rw [inactive_addClaim]
      simp only [same, and_false, or_false]
      rw [← activity.inactive]
      split
      case isTrue => simp [same]
      case isFalse => exact Iff.rfl
  · rw [sameInapplicable]
    exact activity.inapplicable
  · intro key other
    rw [activeClaims]
    by_cases same : other.claimId = claim.claimId
    · have absent : ∀ key : ClaimKey, other ∉ working.activeClaimsByKey[key]?.getD [] := by
        intro key member
        exact new other ((activity.active key other).mp member).1.1 same
      split
      case isTrue retracted =>
        refine ⟨fun member => absurd member (absent key), ?_⟩
        rintro ⟨⟨_, isActive⟩, _⟩
        rw [same] at isActive
        exact absurd (flag.mp retracted) isActive
      case isFalse retained =>
        rw [mem_append_active]
        constructor
        · rintro (member | ⟨equal, sameKey⟩)
          · exact absurd member (absent key)
          · rw [equal]
            exact ⟨⟨Or.inr rfl, fun inactive => retained (flag.mpr inactive)⟩, sameKey⟩
        · rintro ⟨⟨known | isNew, _⟩, sameKey⟩
          · exact absurd same (new other known)
          · rw [isNew] at sameKey
            exact Or.inr ⟨isNew, sameKey⟩
    · rw [active_addClaim_of_ne same, ← activity.active]
      split
      case isTrue => exact Iff.rfl
      case isFalse =>
        rw [mem_append_active]
        constructor
        · rintro (member | ⟨equal, _⟩)
          · exact member
          · rw [equal] at same
            exact absurd rfl same
        · exact Or.inl
  · intro key claims found
    rw [activeClaims] at found
    split at found
    case isTrue => exact activity.distinct key claims found
    case isFalse =>
      rw [Dict.get_insert] at found
      split at found
      case isFalse => exact activity.distinct key claims found
      case isTrue =>
        injection found with found
        rw [← found, List.pairwise_append]
        refine ⟨?_, List.pairwise_singleton _ _, ?_⟩
        · cases old : working.activeClaimsByKey[claim.key]? with
          | none => exact List.Pairwise.nil
          | some others => exact activity.distinct claim.key others old
        · intro other member last isLast
          rw [List.mem_singleton.mp isLast]
          exact new other ((activity.active claim.key other).mp member).1.1

theorem applyClaim_holds {header : OpHeader} {claim : Claim}
    (holds : working.Holds registry before contents)
    (plain : (contents.add (.claimAdded header claim)).Plain)
    (run : applyClaim registry working claim = .ok next) :
    next.Holds registry before (contents.add (.claimAdded header claim)) := by
  rw [applyClaim, bind_ok_iff] at run
  obtain ⟨result, inserted, run⟩ := run
  rw [insertImmutable_ok_iff holds.records.claims claim "claim_id"
    (fun other listed => plain.claim other claim (Or.inl listed) (Or.inr rfl))] at inserted
  rcases inserted with ⟨listed, same⟩ | ⟨new, same⟩
  · subst same
    injection run with run
    rw [← run, Contents.add, absorbed listed]
    exact holds
  · subst same
    injection run with run
    have distinct : ∀ other, contents.claim other → other.claimId = claim.claimId →
        other = claim := fun other listed equal => absurd equal (new other listed)
    have activity := @activity_addClaim _ _ next _ _ _ header claim holds new
      (by rw [← run]) (by rw [← run]) (by rw [← run]) (by rw [← run]) (by rw [← run])
      (by rw [← run]) (by rw [← run])
    rw [← run] at activity ⊢
    refine ⟨?_, ?_, ?_, activity, { holds.histories with }, ?_⟩
    · exact { holds.within with
        claim := fun record listed => Or.inl (holds.within.claim record listed) }
    · exact { holds.records with claims := holds.records.claims.insert claim distinct }
    · refine ⟨holds.indexed.claimRefs.insert claim _ rfl (fun _ equal => equal.symm) distinct,
        (holds.indexed.claimIdsByRef.addTo _ _).congr ?_,
        (holds.indexed.claimIdsByEvidence.addUnder _ _).congr ?_,
        (holds.indexed.claimIdsByDerivation.addUnder _ _).congr ?_,
        holds.indexed.evidenceIdsBySource, holds.indexed.resolutionIdsByClaim⟩
      · intro claimRef claimId
        constructor
        · rintro (⟨other, listed, sameRef, sameId⟩ | ⟨sameRef, sameId⟩)
          · exact ⟨other, Or.inl listed, sameRef, sameId⟩
          · exact ⟨claim, Or.inr rfl, sameRef.symm, sameId.symm⟩
        · rintro ⟨other, listed | equal, sameRef, sameId⟩
          · exact Or.inl ⟨other, listed, sameRef, sameId⟩
          · rw [equal] at sameRef sameId
            exact Or.inr ⟨sameRef.symm, sameId.symm⟩
      · exact fun _ _ => indexed_iff Claim.evidenceIds Claim.claimId
      · exact fun _ _ => indexed_iff (fun claim : Claim => claim.derivationId.toList) Claim.claimId
    · refine ⟨?_, ?_, holds.marks.resolutionRefs, holds.marks.eventRefs, ?_⟩
      · rintro other listed unmarked
        obtain ⟨different, oldUnmarked⟩ := not_or.mp (mt (PySet.mem_insert _ _ _).mpr unmarked)
        rcases listed with known | isNew
        · have untouched := holds.marks.keys other known oldUnmarked
          exact ⟨untouched.known,
            untouched.active.trans (active_addClaim_of_ne (new other known)).symm,
            untouched.evidence, untouched.source, untouched.derivation⟩
        · rw [isNew] at different
          exact absurd rfl different
      · rintro other listed unmarked
        obtain ⟨different, oldUnmarked⟩ := not_or.mp (mt (PySet.mem_insert _ _ _).mpr unmarked)
        rcases listed with known | isNew
        · obtain ⟨old, same⟩ := holds.marks.claimIds other known oldUnmarked
          exact ⟨old, same.trans (active_addClaim_of_ne (new other known)).symm⟩
        · rw [isNew] at different
          exact absurd rfl different
      · intro resolution listed unmarked
        obtain ⟨oldUnmarked, unnamed⟩ := not_or.mp (mt mem_addAll.mpr unmarked)
        obtain ⟨old, named⟩ := holds.marks.resolutionIds resolution listed oldUnmarked
        refine ⟨old, ?_⟩
        rintro other (known | isNew) isNamed
        · exact named other known isNamed
        · rw [isNew] at isNamed
          refine absurd ?_ unnamed
          rw [PySet.mem_toList]
          exact (holds.indexed.resolutionIdsByClaim.mem_getD _ _).mpr
            ⟨resolution, listed, isNamed, rfl⟩

/-! ## A retraction -/

/-- What deactivating claims leaves alone. -/
def frame (working : Working) : Working :=
  { working with
    inactiveClaimIds := ∅
    inapplicableClaimIds := ∅
    affectedKeys := ∅
    affectedClaimIds := ∅
    activeClaimsByKey := ∅ }

/-- What deactivating several claims changes. -/
structure Deactivated (working next : Working) (targets : List String) : Prop where
  rest : next.frame = working.frame
  inactive : ∀ claimId, claimId ∈ next.inactiveClaimIds ↔ claimId ∈ working.inactiveClaimIds ∨
    (claimId ∈ targets ∧ ∃ claim, working.claimsById[claimId]? = some claim)
  inapplicable : working.inapplicableClaimIds = ∅ → next.inapplicableClaimIds = ∅
  keys : ∀ key, key ∈ next.affectedKeys ↔ key ∈ working.affectedKeys ∨ ∃ claimId ∈ targets,
    ∃ claim, working.claimsById[claimId]? = some claim ∧ claim.key = key
  claimIds : ∀ claimId, claimId ∈ next.affectedClaimIds ↔ claimId ∈ working.affectedClaimIds ∨
    (claimId ∈ targets ∧ ∃ claim, working.claimsById[claimId]? = some claim)
  active : ∀ (key : ClaimKey) (claim : Claim), claim ∈ next.activeClaimsByKey[key]?.getD [] ↔
    claim ∈ working.activeClaimsByKey[key]?.getD [] ∧ ¬(claim.claimId ∈ targets ∧
      ∃ known, working.claimsById[claim.claimId]? = some known ∧ known.key = key)
  distinct : (∀ (key : ClaimKey) (claims : List Claim), working.activeClaimsByKey[key]? =
      some claims → claims.Pairwise (fun first second => first.claimId ≠ second.claimId)) →
    ∀ (key : ClaimKey) (claims : List Claim), next.activeClaimsByKey[key]? = some claims →
      claims.Pairwise (fun first second => first.claimId ≠ second.claimId)

theorem Deactivated.eq {targets : List String} (spec : Deactivated working next targets) :
    next = { working with
      inactiveClaimIds := next.inactiveClaimIds
      inapplicableClaimIds := next.inapplicableClaimIds
      affectedKeys := next.affectedKeys
      affectedClaimIds := next.affectedClaimIds
      activeClaimsByKey := next.activeClaimsByKey } := by
  have rest := spec.rest
  cases working
  cases next
  simp only [frame, Working.mk.injEq] at rest ⊢
  simp only [rest, and_self]

private theorem deactivate_one (claimId : String) :
    Deactivated working (working.deactivate claimId) [claimId] := by
  unfold deactivate
  cases found : working.claimsById[claimId]? with
  | none =>
      refine ⟨rfl, ?_, id, ?_, ?_, ?_, id⟩
      · intro wanted
        simp only [List.mem_singleton]
        refine ⟨Or.inl, ?_⟩
        rintro (old | ⟨rfl, claim, known⟩)
        · exact old
        · rw [found] at known
          cases known
      · intro key
        simp [found]
      · intro wanted
        simp only [List.mem_singleton]
        refine ⟨Or.inl, ?_⟩
        rintro (old | ⟨rfl, claim, known⟩)
        · exact old
        · rw [found] at known
          cases known
      · intro key claim
        simp only [List.mem_singleton]
        refine ⟨fun member => ⟨member, ?_⟩, And.left⟩
        rintro ⟨same, known, listed, _⟩
        rw [same, found] at listed
        cases listed
  | some claim =>
      refine ⟨rfl, ?_, ?_, ?_, ?_, ?_, ?_⟩
      · intro wanted
        simp only [PySet.mem_insert, List.mem_singleton]
        constructor
        · rintro (rfl | old)
          · exact Or.inr ⟨rfl, claim, found⟩
          · exact Or.inl old
        · rintro (old | ⟨same, _⟩)
          · exact Or.inr old
          · exact Or.inl same.symm
      · intro none
        apply PySet.ext
        intro wanted
        rw [PySet.mem_erase, none]
        simp
      · intro key
        simp only [PySet.mem_insert, List.mem_singleton, exists_eq_left, found, Option.some.injEq,
          exists_eq_left']
        exact or_comm
      · intro wanted
        simp only [PySet.mem_insert, List.mem_singleton]
        constructor
        · rintro (rfl | old)
          · exact Or.inr ⟨rfl, claim, found⟩
          · exact Or.inl old
        · rintro (old | ⟨same, _⟩)
          · exact Or.inr old
          · exact Or.inl same.symm
      · intro key other
        rw [Dict.get_insert]
        by_cases same : claim.key = key
        · subst same
          simp only [if_true, Option.getD_some, List.mem_filter, decide_eq_true_eq,
            List.mem_singleton]
          refine and_congr_right fun _ => not_congr ?_
          constructor
          · intro equal
            rw [equal]
            exact ⟨rfl, claim, found, rfl⟩
          · exact And.left
        · simp only [if_neg same, List.mem_singleton]
          refine ⟨fun member => ⟨member, ?_⟩, And.left⟩
          rintro ⟨equal, known, listed, sameKey⟩
          rw [equal, found, Option.some.injEq] at listed
          rw [← listed] at sameKey
          exact same sameKey
      · intro distinct key claims located
        rw [Dict.get_insert] at located
        split at located
        case isFalse => exact distinct key claims located
        case isTrue =>
          injection located with located
          rw [← located]
          cases old : working.activeClaimsByKey[claim.key]? with
          | none => exact List.Pairwise.nil
          | some others => exact (distinct claim.key others old).filter _

theorem deactivate_all (claimIds : List String) :
    Deactivated working (claimIds.foldl deactivate working) claimIds := by
  induction claimIds generalizing working with
  | nil => exact ⟨rfl, by simp, id, by simp, by simp, by simp, id⟩
  | cons head tail inductionHypothesis =>
      have one := @deactivate_one _ working head
      have more := @inductionHypothesis (working.deactivate head)
      have sameClaims : (working.deactivate head).claimsById = working.claimsById := by
        rw [one.eq]
      rw [List.foldl_cons]
      refine ⟨more.rest.trans one.rest, ?_,
        fun none => more.inapplicable (one.inapplicable none), ?_, ?_, ?_,
        fun distinct => more.distinct (one.distinct distinct)⟩
      · intro claimId
        rw [more.inactive, one.inactive, sameClaims, List.mem_singleton, List.mem_cons]
        tauto
      · intro key
        rw [more.keys, one.keys, sameClaims]
        simp only [List.mem_cons, List.not_mem_nil, false_and, exists_false, false_or,
          exists_eq_or_imp, or_assoc]
      · intro claimId
        rw [more.claimIds, one.claimIds, sameClaims, List.mem_singleton, List.mem_cons]
        tauto
      · intro key claim
        rw [more.active, one.active, sameClaims, List.mem_singleton, List.mem_cons, and_assoc,
          ← not_or, ← or_and_right]

/-- A retraction is about a claim, by its id or by its reference. -/
private def Targets (registry : PredicateRegistry) (contents : Contents)
    (retraction : ClaimRetracted) (claimId : String) : Prop :=
  truthy retraction.targetClaimId = some claimId ∨ ∃ claim, contents.claim claim ∧
    truthy retraction.targetClaimRef = some (registry.claimRefForClaim claim) ∧
    claim.claimId = claimId

private theorem mem_retractionTargets {retraction : ClaimRetracted}
    (holds : working.Holds registry before contents) (claimId : String) :
    claimId ∈ working.retractionTargets retraction ↔
      Targets registry contents retraction claimId := by
  unfold retractionTargets Targets
  cases truthy retraction.targetClaimRef with
  | none =>
      cases truthy retraction.targetClaimId with
      | none => simp
      | some wanted => simp
  | some claimRef =>
      have byRef := holds.indexed.claimIdsByRef.mem_getD claimRef claimId
      have sides : (∃ claim, contents.claim claim ∧ some claimRef =
          some (registry.claimRefForClaim claim) ∧ claim.claimId = claimId) ↔
          ∃ claim, contents.claim claim ∧ registry.claimRefForClaim claim = claimRef ∧
            claim.claimId = claimId := by
        simp only [Option.some.injEq, eq_comm]
      rw [sides, ← byRef]
      cases truthy retraction.targetClaimId with
      | none => simp
      | some wanted => simp

private theorem inactive_addRetraction {retraction : ClaimRetracted} (claimId : String) :
    (contents.add (.claimRetracted retraction)).inactive registry claimId ↔
      contents.inactive registry claimId ∨ Targets registry contents retraction claimId := by
  constructor
  · rintro (⟨record, known | isNew, target⟩ | ⟨record, claim, known | isNew, isClaim, target, same⟩)
    · exact Or.inl (Or.inl ⟨record, known, target⟩)
    · rw [isNew] at target
      exact Or.inr (Or.inl target)
    · exact Or.inl (Or.inr ⟨record, claim, known, isClaim, target, same⟩)
    · rw [isNew] at target
      exact Or.inr (Or.inr ⟨claim, isClaim, target, same⟩)
  · rintro ((⟨record, known, target⟩ | ⟨record, claim, known, isClaim, target, same⟩) |
      (target | ⟨claim, isClaim, target, same⟩))
    · exact Or.inl ⟨record, Or.inl known, target⟩
    · exact Or.inr ⟨record, claim, Or.inl known, isClaim, target, same⟩
    · exact Or.inl ⟨retraction, Or.inr rfl, target⟩
    · exact Or.inr ⟨retraction, claim, Or.inr rfl, isClaim, target, same⟩

private theorem active_addRetraction {retraction : ClaimRetracted} (claim : Claim) :
    (contents.add (.claimRetracted retraction)).active registry claim ↔
      contents.active registry claim ∧ ¬Targets registry contents retraction claim.claimId := by
  have same : (contents.add (.claimRetracted retraction)).inactive registry claim.claimId ↔
      contents.inactive registry claim.claimId ∨
        Targets registry contents retraction claim.claimId :=
    inactive_addRetraction claim.claimId
  rw [Contents.active, Contents.active, same, not_or, and_assoc]
  exact Iff.rfl

private theorem appendSortedRetraction_groups {retraction : ClaimRetracted}
    {dict : Dict String (List ClaimRetracted)} (field : ClaimRetracted → Option String)
    (distinct : Distinct (fun record : ClaimRetracted => record.opId)
      (contents.add (.claimRetracted retraction)).retraction)
    (grouped : SortedGroups ClaimRetracted.order dict (contents.retractedUnder field)) :
    SortedGroups ClaimRetracted.order
      (appendSortedRetraction dict (field retraction) retraction)
      ((contents.add (.claimRetracted retraction)).retractedUnder field) := by
  unfold appendSortedRetraction
  cases target : truthy (field retraction) with
  | none =>
      refine grouped.congr ?_
      intro key record
      constructor
      · rintro ⟨listed, same⟩
        exact ⟨Or.inl listed, same⟩
      · rintro ⟨listed | equal, same⟩
        · exact ⟨listed, same⟩
        · rw [equal, target] at same
          cases same
  | some wanted =>
      have extended : ∀ key record, contents.retractedUnder field key record ∨
          (key = wanted ∧ record = retraction) ↔
          (contents.add (.claimRetracted retraction)).retractedUnder field key record := by
        intro key record
        constructor
        · rintro (⟨listed, same⟩ | ⟨same, equal⟩)
          · exact ⟨Or.inl listed, same⟩
          · rw [equal, same]
            exact ⟨Or.inr rfl, target⟩
        · rintro ⟨listed | equal, same⟩
          · exact Or.inl ⟨listed, same⟩
          · rw [equal, target, Option.some.injEq] at same
            exact Or.inr ⟨same.symm, equal⟩
      by_cases known : ∃ record, contents.retractedUnder field wanted record ∧
          record.opId = retraction.opId
      · obtain ⟨record, related, sameId⟩ := known
        have equal := distinct record retraction (Or.inl related.1) (Or.inr rfl) sameId
        obtain ⟨items, found, member⟩ := (grouped.exact wanted record).mpr related
        have present : items.any (fun item => item.opId == retraction.opId) = true :=
          List.any_eq_true.mpr ⟨record, member, beq_iff_eq.mpr sameId⟩
        simp only [found, Option.getD_some, present, if_true, Dict.insert_of_get found]
        refine grouped.congr ?_
        intro key other
        rw [← extended]
        refine ⟨Or.inl, ?_⟩
        rintro (old | ⟨same, isNew⟩)
        · exact old
        · rw [same, isNew, ← equal]
          exact related
      · have absent : (dict[wanted]?.getD []).any (fun item => item.opId == retraction.opId) ≠
            true := by
          intro present
          obtain ⟨record, member, sameId⟩ := List.any_eq_true.mp present
          exact known ⟨record, (grouped.mem_getD wanted record).mp member, beq_iff_eq.mp sameId⟩
        simp only [if_neg absent]
        refine (grouped.insertSorted wanted retraction ?_).congr extended
        intro other related same
        exact known ⟨other, related, congrArg (fun order => (ofLex order).2) same⟩

theorem mem_recorded_inactive {retraction : ClaimRetracted} (claimId : String) :
    claimId ∈ (working.recordRetraction retraction).inactiveClaimIds ↔
      claimId ∈ working.inactiveClaimIds ∨ truthy retraction.targetClaimId = some claimId := by
  unfold recordRetraction
  cases truthy retraction.targetClaimId with
  | none => simp
  | some wanted => simp [or_comm]

theorem mem_recorded_claimIds {retraction : ClaimRetracted} (claimId : String) :
    claimId ∈ (working.recordRetraction retraction).affectedClaimIds ↔
      claimId ∈ working.affectedClaimIds ∨ truthy retraction.targetClaimId = some claimId := by
  unfold recordRetraction
  cases truthy retraction.targetClaimId with
  | none => simp
  | some wanted => simp [or_comm]

theorem applyRetraction_holds {retraction : ClaimRetracted}
    (holds : working.Holds registry before contents)
    (plain : (contents.add (.claimRetracted retraction)).Plain) :
    (working.applyRetraction retraction).Holds registry before
      (contents.add (.claimRetracted retraction)) := by
  have activity := holds.activity
  have targets : ∀ claimId,
      claimId ∈ ((working.recordRetraction retraction).retractionTargets retraction).toList ↔
        Targets registry contents retraction claimId := by
    intro claimId
    rw [PySet.mem_toList]
    exact mem_retractionTargets holds claimId
  have spec := @deactivate_all _ (working.recordRetraction retraction)
    ((working.recordRetraction retraction).retractionTargets retraction).toList
  have known : ∀ claim, contents.claim claim →
      (working.recordRetraction retraction).claimsById[claim.claimId]? = some claim :=
    fun claim isClaim => holds.records.claims.get_key isClaim
  -- A known claim that is not marked is not what the retraction is about.
  have spared : ∀ claim, contents.claim claim →
      claim.key ∉ (working.applyRetraction retraction).affectedKeys →
      ¬Targets registry contents retraction claim.claimId :=
    fun claim isClaim unmarked targeted => unmarked ((spec.keys _).mpr
      (Or.inr ⟨claim.claimId, (targets _).mpr targeted, claim, known claim isClaim, rfl⟩))
  have sparedId : ∀ claim, contents.claim claim →
      claim.claimId ∉ (working.applyRetraction retraction).affectedClaimIds →
      ¬Targets registry contents retraction claim.claimId :=
    fun claim isClaim unmarked targeted => unmarked ((spec.claimIds _).mpr
      (Or.inr ⟨(targets _).mpr targeted, claim, known claim isClaim⟩))
  have unmarkedKey : ∀ key, key ∉ (working.applyRetraction retraction).affectedKeys →
      key ∉ working.affectedKeys :=
    fun key unmarked marked => unmarked ((spec.keys _).mpr (Or.inl marked))
  have unmarkedId : ∀ claimId, claimId ∉ (working.applyRetraction retraction).affectedClaimIds →
      claimId ∉ working.affectedClaimIds :=
    fun claimId unmarked marked => unmarked ((spec.claimIds _).mpr
      (Or.inl ((mem_recorded_claimIds claimId).mpr (Or.inl marked))))
  change Deactivated _ (working.applyRetraction retraction) _ at spec
  rw [spec.eq]
  refine ⟨?_, { holds.records with }, { holds.indexed with }, ?_, { holds.histories with }, ?_⟩
  · exact { holds.within with
      retraction := fun record listed => Or.inl (holds.within.retraction record listed) }
  · refine ⟨appendSortedRetraction_groups (·.targetClaimId) plain.retraction activity.target,
      appendSortedRetraction_groups (·.targetClaimRef) plain.retraction activity.targetRef,
      appendSortedRetraction_groups (·.supersedesClaimId) plain.retraction activity.superseder,
      appendSortedRetraction_groups (·.supersedesClaimRef) plain.retraction
        activity.supersederRef, ?_, spec.inapplicable activity.inapplicable, ?_,
      spec.distinct activity.distinct⟩
    · intro claimId
      rw [inactive_addRetraction, ← activity.inactive]
      refine (spec.inactive claimId).trans ?_
      rw [mem_recorded_inactive, targets]
      constructor
      · rintro ((old | target) | ⟨targeted, _⟩)
        · exact Or.inl old
        · exact Or.inr (Or.inl target)
        · exact Or.inr targeted
      · rintro (old | target | ⟨claim, isClaim, target, same⟩)
        · exact Or.inl (Or.inl old)
        · exact Or.inl (Or.inr target)
        · refine Or.inr ⟨Or.inr ⟨claim, isClaim, target, same⟩, claim, ?_⟩
          rw [← same]
          exact known claim isClaim
    · intro key claim
      rw [active_addRetraction]
      refine (spec.active key claim).trans ?_
      rw [targets]
      constructor
      · rintro ⟨member, spared⟩
        obtain ⟨isActive, sameKey⟩ := (activity.active key claim).mp member
        exact ⟨⟨isActive, fun targeted =>
          spared ⟨targeted, claim, known claim isActive.1, sameKey⟩⟩, sameKey⟩
      · rintro ⟨⟨isActive, spared⟩, sameKey⟩
        exact ⟨(activity.active key claim).mpr ⟨isActive, sameKey⟩,
          fun targeted => spared targeted.1⟩
  · refine ⟨?_, ?_, holds.marks.resolutionRefs, holds.marks.eventRefs,
      holds.marks.resolutionIds⟩
    · intro claim isClaim unmarked
      have untouched := holds.marks.keys claim isClaim (unmarkedKey _ unmarked)
      refine ⟨untouched.known, ?_, untouched.evidence, untouched.source, untouched.derivation⟩
      rw [active_addRetraction, untouched.active]
      exact (and_iff_left (spared claim isClaim unmarked)).symm
    · intro claim isClaim unmarked
      obtain ⟨old, same⟩ := holds.marks.claimIds claim isClaim (unmarkedId _ unmarked)
      refine ⟨old, ?_⟩
      rw [active_addRetraction, same]
      exact (and_iff_left (sparedId claim isClaim unmarked)).symm

/-! ## The whole loop -/

theorem applyOp_holds {op : Op} (holds : working.Holds registry before contents)
    (plain : (contents.add op).Plain) (run : applyOp registry working op = .ok next) :
    next.Holds registry before (contents.add op) := by
  cases op with
  | sourceAdded header source => exact applySource_holds holds plain run
  | evidenceAdded header evidence => exact applyEvidence_holds holds plain run
  | claimAdded header claim => exact applyClaim_holds holds plain run
  | claimRetracted retraction =>
      injection run with run
      rw [← run]
      exact applyRetraction_holds holds plain
  | decisionAdded header decision => exact applyDecision_holds holds plain run
  | derivationAdded header derivation => exact applyDerivation_holds holds plain run
  | resolutionAdded header resolution => exact applyResolution_holds holds plain run
  | conflictLifecycleEventAdded header event => exact applyEvent_holds holds plain run

/-- An operation whose record is compatible with the others can be entered. -/
theorem applyOp_exists {op : Op} (holds : working.Holds registry before contents)
    (plain : (contents.add op).Plain) (consistent : (contents.add op).Consistent) :
    ∃ next, applyOp registry working op = .ok next := by
  cases op with
  | sourceAdded header source =>
      obtain ⟨⟨table, inserted⟩, bound⟩ := insertImmutable_exists holds.records.sources "source_id"
        (fun other listed => plain.source other source (Or.inl listed) (Or.inr rfl))
        (fun other listed => consistent.source other source (Or.inl listed) (Or.inr rfl))
      rw [applyOp, applySource, bind_of_ok bound]
      cases inserted <;> exact ⟨_, rfl⟩
  | evidenceAdded header evidence =>
      obtain ⟨⟨table, inserted⟩, bound⟩ := insertImmutable_exists holds.records.evidence
        "evidence_id"
        (fun other listed => plain.evidence other evidence (Or.inl listed) (Or.inr rfl))
        (fun other listed => consistent.evidence other evidence (Or.inl listed) (Or.inr rfl))
      rw [applyOp, applyEvidence, bind_of_ok bound]
      cases inserted <;> exact ⟨_, rfl⟩
  | claimAdded header claim =>
      obtain ⟨⟨table, inserted⟩, bound⟩ := insertImmutable_exists holds.records.claims "claim_id"
        (fun other listed => plain.claim other claim (Or.inl listed) (Or.inr rfl))
        (fun other listed => consistent.claim other claim (Or.inl listed) (Or.inr rfl))
      rw [applyOp, applyClaim, bind_of_ok bound]
      cases inserted <;> exact ⟨_, rfl⟩
  | claimRetracted retraction => exact ⟨_, rfl⟩
  | decisionAdded header decision =>
      obtain ⟨⟨table, inserted⟩, bound⟩ := insertImmutable_exists holds.records.decisions
        "decision_id"
        (fun other listed => plain.decision other decision (Or.inl listed) (Or.inr rfl))
        (fun other listed => consistent.decision other decision (Or.inl listed) (Or.inr rfl))
      rw [applyOp, applyDecision, bind_of_ok bound]
      exact ⟨_, rfl⟩
  | derivationAdded header derivation =>
      obtain ⟨⟨table, inserted⟩, bound⟩ := insertImmutable_exists holds.records.derivations
        "derivation_id"
        (fun other listed => plain.derivation other derivation (Or.inl listed) (Or.inr rfl))
        (fun other listed => consistent.derivation other derivation (Or.inl listed) (Or.inr rfl))
      rw [applyOp, applyDerivation, bind_of_ok bound]
      cases inserted <;> exact ⟨_, rfl⟩
  | resolutionAdded header resolution =>
      obtain ⟨⟨table, inserted⟩, bound⟩ := insertImmutable_exists holds.records.resolutions
        "resolution_id"
        (fun other listed => plain.resolution other resolution (Or.inl listed) (Or.inr rfl))
        (fun other listed => consistent.resolution other resolution (Or.inl listed) (Or.inr rfl))
      rw [applyOp, applyResolution, bind_of_ok bound]
      cases inserted <;> exact ⟨_, rfl⟩
  | conflictLifecycleEventAdded header event =>
      obtain ⟨⟨table, inserted⟩, bound⟩ := insertImmutable_exists holds.records.events "event_id"
        (fun other listed => plain.event other event (Or.inl listed) (Or.inr rfl))
        (fun other listed => consistent.event other event (Or.inl listed) (Or.inr rfl))
      rw [applyOp, applyEvent, bind_of_ok bound]
      cases inserted <;> exact ⟨_, rfl⟩

theorem enter_holds {ops : List Op} (holds : working.Holds registry before contents)
    (plain : (ops.foldl Contents.add contents).Plain)
    (run : ops.foldlM (applyOp registry) working = .ok next) :
    next.Holds registry before (ops.foldl Contents.add contents) := by
  induction ops generalizing working contents with
  | nil =>
      rw [List.foldlM_nil, pure_ok_iff] at run
      rw [← run]
      exact holds
  | cons head tail inductionHypothesis =>
      rw [List.foldlM_cons, bind_ok_iff] at run
      obtain ⟨entered, stepped, run⟩ := run
      exact inductionHypothesis
        (applyOp_holds holds (plain.mono (Contents.within_addAll tail)) stepped) plain run

theorem enter_exists {ops : List Op} (holds : working.Holds registry before contents)
    (plain : (ops.foldl Contents.add contents).Plain)
    (consistent : (ops.foldl Contents.add contents).Consistent) :
    ∃ next, ops.foldlM (applyOp registry) working = .ok next := by
  induction ops generalizing working contents with
  | nil => exact ⟨working, rfl⟩
  | cons head tail inductionHypothesis =>
      have plainHead := plain.mono (Contents.within_addAll tail)
      obtain ⟨entered, stepped⟩ := applyOp_exists holds plainHead
        (consistent.mono (Contents.within_addAll tail))
      obtain ⟨next, run⟩ := inductionHypothesis (applyOp_holds holds plainHead stepped) plain
        consistent
      refine ⟨next, ?_⟩
      rw [List.foldlM_cons, bind_of_ok stepped]
      exact run

/-- The loop starts from the state itself, and nothing is marked. -/
theorem ofState_holds {state : MemoryState} (represents : Represents registry contents state) :
    (ofState state).Holds registry contents contents where
  within := Contents.within_self contents
  records := {
    sources := represents.sources
    evidence := represents.evidence
    claims := represents.claims
    decisions := represents.decisions
    derivations := represents.derivations
    resolutions := represents.resolutions
    events := represents.events }
  indexed := {
    claimRefs := represents.claimRefs
    claimIdsByRef := represents.claimIdsByRef.unlisted
    claimIdsByEvidence := represents.claimIdsByEvidence.unlisted
    claimIdsByDerivation := represents.claimIdsByDerivation.unlisted
    evidenceIdsBySource := represents.evidenceIdsBySource.unlisted
    resolutionIdsByClaim := represents.resolutionIdsByClaim.unlisted }
  activity := {
    target := represents.retractionsByTarget
    targetRef := represents.retractionsByTargetRef
    superseder := represents.retractionsBySuperseder
    supersederRef := represents.retractionsBySupersederRef
    inactive := represents.inactive
    inapplicable := represents.inapplicable
    active := represents.active.mem_getD
    distinct := fun key claims found =>
      (represents.active.sorted key claims found).imp (fun below => ne_of_lt below) }
  histories := {
    resolutionsByRef := represents.resolutionsByRef
    resolutionsByLane := represents.resolutionsByLane
    eventsByRef := represents.eventsByRef
    eventsByLane := represents.eventsByLane }
  marks := {
    keys := fun _ isClaim _ => ⟨isClaim, Iff.rfl, fun _ known _ => known,
      fun _ _ _ _ known _ => known, fun _ known _ => known⟩
    claimIds := fun _ isClaim _ => ⟨isClaim, Iff.rfl⟩
    resolutionRefs := fun _ known _ => known
    eventRefs := fun _ known _ => known
    resolutionIds := fun _ known _ => ⟨known, fun _ isClaim _ => isClaim⟩ }

/-- The active claims after the loop, sorted and without empty keys. -/
theorem tidyActive_grouped (holds : working.Holds registry before contents) :
    SortedGroups Claim.claimId working.tidyActive.activeClaimsByKey
      (fun key claim => contents.active registry claim ∧ claim.key = key) :=
  SortedGroups.tidy holds.activity.active holds.activity.distinct

end Working

end Statefuse
