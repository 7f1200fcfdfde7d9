import Statefuse.Materialize.FullSpec

/-!
# Materializing a log of equal records

Two operations may bind an identifier to records that `==` identifies although they are
written differently, such as a confidence of `1` and of `1.0`.  The tables of the pass
then hold one of the equal records (`Gathers`), and that is enough to say which claims
are active (`materialize_active`) and when the pass succeeds (`collect_gathers_exists`).
-/

namespace Statefuse

open Foundation

/-- The table holds members under their keys, and for each member an equal one. -/
structure Gathers {α : Type} [PyEq α] (records : Dict String α) (key : α → String)
    (member : α → Prop) : Prop where
  stored : ∀ (wanted : String) (record : α), records[wanted]? = some record →
    member record ∧ key record = wanted
  present : ∀ record, member record →
    ∃ held, records[key record]? = some held ∧ pyEq held record = true

/-- Records with one identifier are equal. -/
def Equated {α : Type} [PyEq α] (key : α → String) (member : α → Prop) : Prop :=
  ∀ first second, member first → member second → key first = key second →
    pyEq first second = true

theorem equated_mono {α : Type} [PyEq α] {key : α → String} {fewer more : α → Prop}
    (equated : Equated key more) (among : ∀ record, fewer record → more record) :
    Equated key fewer :=
  fun first second left right => equated first second (among first left) (among second right)

namespace Gathers

variable {α : Type} [PyEq α] {records next : Dict String α} {key : α → String}
  {member : α → Prop} {record : α} {name : String}

theorem empty : Gathers (∅ : Dict String α) key (fun _ => False) where
  stored := by simp
  present := fun _ impossible => impossible.elim

theorem keyed (gathers : Gathers records key member) : Keyed records key :=
  fun wanted record found => (gathers.stored wanted record found).2

/-- The bound record takes the place of an equal one. -/
theorem bind (gathers : Gathers records key member)
    (run : bindRecord records (key record) record name = .ok next) :
    Gathers next key (fun other => member other ∨ other = record) := by
  have bound : next = records.insert (key record) record ∧
      ∀ existing, records[key record]? = some existing → pyEq existing record = true := by
    unfold bindRecord at run
    cases found : records[key record]? with
    | none =>
        rw [found] at run
        injection run with run
        exact ⟨run.symm, fun _ impossible => by cases impossible⟩
    | some existing =>
        rw [found] at run
        simp only at run
        split at run
        · rename_i equal
          injection run with run
          refine ⟨run.symm, ?_⟩
          rintro other same
          injection same with same
          rw [← same]
          exact equal
        · cases run
  obtain ⟨same, replaced⟩ := bound
  subst same
  constructor
  · intro wanted other found
    rw [Dict.get_insert] at found
    split at found
    · rename_i here
      injection found with found
      rw [← found]
      exact ⟨Or.inr rfl, here⟩
    · obtain ⟨listed, here⟩ := gathers.stored wanted other found
      exact ⟨Or.inl listed, here⟩
  · rintro other (listed | equal)
    · rw [Dict.get_insert]
      obtain ⟨held, found, equal⟩ := gathers.present other listed
      by_cases here : key record = key other
      · rw [if_pos here]
        rw [← here] at found
        exact ⟨record, rfl, pyEq_trans (pyEq_symm (replaced held found)) equal⟩
      · rw [if_neg here]
        exact ⟨held, found, equal⟩
    · rw [equal, Dict.get_insert, if_pos rfl]
      exact ⟨record, rfl, pyEq_refl record⟩

theorem bind_exists (gathers : Gathers records key member)
    (equated : ∀ other, member other → key other = key record → pyEq other record = true) :
    ∃ next, bindRecord records (key record) record name = .ok next := by
  unfold bindRecord
  cases found : records[key record]? with
  | none => exact ⟨_, rfl⟩
  | some existing =>
      obtain ⟨listed, here⟩ := gathers.stored _ existing found
      exact ⟨_, if_pos (equated existing listed here)⟩

theorem equated (gathers : Gathers records key member) : Equated key member := by
  intro first second firstMember secondMember same
  obtain ⟨held, found, firstEqual⟩ := gathers.present first firstMember
  obtain ⟨other, otherFound, secondEqual⟩ := gathers.present second secondMember
  rw [same, otherFound, Option.some.injEq] at found
  rw [found] at secondEqual
  exact pyEq_trans (pyEq_symm firstEqual) secondEqual

end Gathers

variable [Runtime]

/-- No identifier is bound to records that are not equal. -/
structure Contents.Compatible (contents : Contents) : Prop where
  source : Equated (·.sourceId) contents.source
  evidence : Equated (·.evidenceId) contents.evidence
  claim : Equated (·.claimId) contents.claim
  decision : Equated (·.decisionId) contents.decision
  derivation : Equated (·.derivationId) contents.derivation
  resolution : Equated (·.resolutionId) contents.resolution
  event : Equated (·.eventId) contents.event

theorem Contents.Compatible.mono {contents whole : Contents} (compatible : whole.Compatible)
    (within : contents.Within whole) : contents.Compatible where
  source := equated_mono compatible.source within.source
  evidence := equated_mono compatible.evidence within.evidence
  claim := equated_mono compatible.claim within.claim
  decision := equated_mono compatible.decision within.decision
  derivation := equated_mono compatible.derivation within.derivation
  resolution := equated_mono compatible.resolution within.resolution
  event := equated_mono compatible.event within.event

/-! ## The pass over the log -/

/-- The tables of the pass hold the contents up to equality. -/
structure Collected.Gathers (collected : Collected) (registry : PredicateRegistry)
    (contents : Contents) : Prop where
  sources : Statefuse.Gathers collected.sourcesById (·.sourceId) contents.source
  evidence : Statefuse.Gathers collected.evidenceById (·.evidenceId) contents.evidence
  claims : Statefuse.Gathers collected.claimsById (·.claimId) contents.claim
  decisions : Statefuse.Gathers collected.decisionsById (·.decisionId) contents.decision
  derivations : Statefuse.Gathers collected.derivationsById (·.derivationId) contents.derivation
  resolutions : Statefuse.Gathers collected.resolutionsById (·.resolutionId) contents.resolution
  events : Statefuse.Gathers collected.lifecycleEventsById (·.eventId) contents.event
  claimIdsByRef : Indexes collected.claimIdsByRef (fun claimRef claimId =>
    ∃ claim, contents.claim claim ∧ registry.claimRefForClaim claim = claimRef ∧
      claim.claimId = claimId)
  retractionsByTarget : Groups ClaimRetracted.order collected.retractionsByTarget
    (contents.retractedUnder (·.targetClaimId))
  retractionsByTargetRef : Groups ClaimRetracted.order collected.retractionsByTargetRef
    (contents.retractedUnder (·.targetClaimRef))
  retractionsBySuperseder : Groups ClaimRetracted.order collected.retractionsBySuperseder
    (contents.retractedUnder (·.supersedesClaimId))
  retractionsBySupersederRef : Groups ClaimRetracted.order collected.retractionsBySupersederRef
    (contents.retractedUnder (·.supersedesClaimRef))

theorem Collected.gathers_empty (registry : PredicateRegistry) :
    Collected.empty.Gathers registry .empty where
  sources := .empty
  evidence := .empty
  claims := .empty
  decisions := .empty
  derivations := .empty
  resolutions := .empty
  events := .empty
  claimIdsByRef := Indexes.empty.congr (by simp [Contents.empty])
  retractionsByTarget := Groups.empty.congr (by simp [Contents.retractedUnder, Contents.empty])
  retractionsByTargetRef := Groups.empty.congr (by simp [Contents.retractedUnder, Contents.empty])
  retractionsBySuperseder := Groups.empty.congr (by simp [Contents.retractedUnder, Contents.empty])
  retractionsBySupersederRef :=
    Groups.empty.congr (by simp [Contents.retractedUnder, Contents.empty])

section Step

variable {registry : PredicateRegistry} {contents : Contents} {collected next : Collected} {op : Op}

theorem collectStep_gathers (gathers : collected.Gathers registry contents)
    (distinct : Distinct (fun retraction : ClaimRetracted => retraction.opId)
      (contents.add op).retraction)
    (new : ∀ retraction, op = .claimRetracted retraction → ¬contents.retraction retraction)
    (run : collectStep registry collected op = .ok next) :
    next.Gathers registry (contents.add op) := by
  cases op with
  | claimRetracted retraction =>
      injection run with run
      rw [← run]
      exact { gathers with
        retractionsByTarget := appendRetraction_groups (·.targetClaimId) distinct
          (new retraction rfl) gathers.retractionsByTarget
        retractionsByTargetRef := appendRetraction_groups (·.targetClaimRef) distinct
          (new retraction rfl) gathers.retractionsByTargetRef
        retractionsBySuperseder := appendRetraction_groups (·.supersedesClaimId) distinct
          (new retraction rfl) gathers.retractionsBySuperseder
        retractionsBySupersederRef := appendRetraction_groups (·.supersedesClaimRef) distinct
          (new retraction rfl) gathers.retractionsBySupersederRef }
  | claimAdded header record =>
      rw [collectStep, bind_ok_iff] at run
      obtain ⟨table, bound, same⟩ := run
      rw [pure_ok_iff] at same
      rw [← same]
      refine { gathers with claims := gathers.claims.bind bound, claimIdsByRef := ?_ }
      refine (gathers.claimIdsByRef.addTo (registry.claimRefForClaim record)
        record.claimId).congr ?_
      intro claimRef claimId
      constructor
      · rintro (⟨claim, listed, sameRef, sameId⟩ | ⟨sameRef, sameId⟩)
        · exact ⟨claim, Or.inl listed, sameRef, sameId⟩
        · exact ⟨record, Or.inr rfl, sameRef.symm, sameId.symm⟩
      · rintro ⟨claim, listed | equal, sameRef, sameId⟩
        · exact Or.inl ⟨claim, listed, sameRef, sameId⟩
        · rw [equal] at sameRef sameId
          exact Or.inr ⟨sameRef.symm, sameId.symm⟩
  | sourceAdded header record =>
      obtain ⟨table, bound, same⟩ := bind_ok_iff.mp run
      rw [pure_ok_iff] at same
      rw [← same]
      exact { gathers with sources := gathers.sources.bind bound }
  | evidenceAdded header record =>
      obtain ⟨table, bound, same⟩ := bind_ok_iff.mp run
      rw [pure_ok_iff] at same
      rw [← same]
      exact { gathers with evidence := gathers.evidence.bind bound }
  | decisionAdded header record =>
      obtain ⟨table, bound, same⟩ := bind_ok_iff.mp run
      rw [pure_ok_iff] at same
      rw [← same]
      exact { gathers with decisions := gathers.decisions.bind bound }
  | derivationAdded header record =>
      obtain ⟨table, bound, same⟩ := bind_ok_iff.mp run
      rw [pure_ok_iff] at same
      rw [← same]
      exact { gathers with derivations := gathers.derivations.bind bound }
  | resolutionAdded header record =>
      obtain ⟨table, bound, same⟩ := bind_ok_iff.mp run
      rw [pure_ok_iff] at same
      rw [← same]
      exact { gathers with resolutions := gathers.resolutions.bind bound }
  | conflictLifecycleEventAdded header record =>
      obtain ⟨table, bound, same⟩ := bind_ok_iff.mp run
      rw [pure_ok_iff] at same
      rw [← same]
      exact { gathers with events := gathers.events.bind bound }

theorem collectStep_gathers_exists (gathers : collected.Gathers registry contents)
    (compatible : (contents.add op).Compatible) :
    ∃ next, collectStep registry collected op = .ok next := by
  cases op with
  | claimRetracted retraction => exact ⟨_, rfl⟩
  | sourceAdded header record =>
      obtain ⟨table, bound⟩ := @Gathers.bind_exists _ _ _ _ _ _ "source_id" gathers.sources
        (fun other listed => compatible.source other record (Or.inl listed) (Or.inr rfl))
      exact ⟨_, bind_ok_iff.mpr ⟨table, bound, rfl⟩⟩
  | evidenceAdded header record =>
      obtain ⟨table, bound⟩ := @Gathers.bind_exists _ _ _ _ _ _ "evidence_id" gathers.evidence
        (fun other listed => compatible.evidence other record (Or.inl listed) (Or.inr rfl))
      exact ⟨_, bind_ok_iff.mpr ⟨table, bound, rfl⟩⟩
  | claimAdded header record =>
      obtain ⟨table, bound⟩ := @Gathers.bind_exists _ _ _ _ _ _ "claim_id" gathers.claims
        (fun other listed => compatible.claim other record (Or.inl listed) (Or.inr rfl))
      exact ⟨_, bind_ok_iff.mpr ⟨table, bound, rfl⟩⟩
  | decisionAdded header record =>
      obtain ⟨table, bound⟩ := @Gathers.bind_exists _ _ _ _ _ _ "decision_id" gathers.decisions
        (fun other listed => compatible.decision other record (Or.inl listed) (Or.inr rfl))
      exact ⟨_, bind_ok_iff.mpr ⟨table, bound, rfl⟩⟩
  | derivationAdded header record =>
      obtain ⟨table, bound⟩ := @Gathers.bind_exists _ _ _ _ _ _ "derivation_id" gathers.derivations
        (fun other listed => compatible.derivation other record (Or.inl listed) (Or.inr rfl))
      exact ⟨_, bind_ok_iff.mpr ⟨table, bound, rfl⟩⟩
  | resolutionAdded header record =>
      obtain ⟨table, bound⟩ := @Gathers.bind_exists _ _ _ _ _ _ "resolution_id" gathers.resolutions
        (fun other listed => compatible.resolution other record (Or.inl listed) (Or.inr rfl))
      exact ⟨_, bind_ok_iff.mpr ⟨table, bound, rfl⟩⟩
  | conflictLifecycleEventAdded header record =>
      obtain ⟨table, bound⟩ := @Gathers.bind_exists _ _ _ _ _ _ "event_id" gathers.events
        (fun other listed => compatible.event other record (Or.inl listed) (Or.inr rfl))
      exact ⟨_, bind_ok_iff.mpr ⟨table, bound, rfl⟩⟩

end Step

section Pass

variable {registry : PredicateRegistry} {log : OpLog} {collected : Collected}

/-- In a log an operation id stands for one retraction. -/
theorem OpLog.retraction_distinct (log : OpLog) :
    Distinct (fun retraction : ClaimRetracted => retraction.opId)
      (Contents.of (· ∈ log.iterOps)).retraction := by
  intro first second firstListed secondListed same
  have firstFound := (log.mem_iterOps _).mp firstListed
  have secondFound := (log.mem_iterOps _).mp secondListed
  have ids : (Op.claimRetracted first).opId = (Op.claimRetracted second).opId := same
  rw [ids, secondFound, Option.some.injEq] at firstFound
  injection firstFound with equal
  exact equal.symm

/-- At each place of the pass over a log its retractions are told apart. -/
theorem OpLog.distinct_within {contents : Contents}
    (within : contents.Within (.of (· ∈ log.iterOps))) :
    Distinct (fun retraction : ClaimRetracted => retraction.opId) contents.retraction :=
  fun first second firstListed secondListed same => log.retraction_distinct first second
    (within.retraction first firstListed) (within.retraction second secondListed) same

/-- The pass gathers the records of the log. -/
theorem collect_gathers (run : log.iterOps.foldlM (collectStep registry) .empty = .ok collected) :
    collected.Gathers registry (.of (· ∈ log.iterOps)) :=
  collect_invariant (fun contents state => state.Gathers registry contents) log.iterOps_nodup
    (Collected.gathers_empty registry)
    (fun _ _ _ _ within new gathers stepped =>
      collectStep_gathers gathers (OpLog.distinct_within within) new stepped) run

/-- The pass succeeds when the records of one identifier are equal. -/
theorem collect_gathers_exists (registry : PredicateRegistry)
    (compatible : (Contents.of (· ∈ log.iterOps)).Compatible) :
    ∃ collected, log.iterOps.foldlM (collectStep registry) .empty = .ok collected := by
  refine exists_collect (fun contents state => state.Gathers registry contents)
    log.iterOps_nodup (Collected.gathers_empty registry) ?_
  intro contents op collected within new gathers
  obtain ⟨next, stepped⟩ := collectStep_gathers_exists gathers (compatible.mono within)
  exact ⟨next, stepped,
    collectStep_gathers gathers (OpLog.distinct_within within) new stepped⟩

/-- No identifier of a log that is collected is bound to records that are not equal. -/
theorem Collected.Gathers.compatible {contents : Contents}
    (gathers : collected.Gathers registry contents) : contents.Compatible where
  source := gathers.sources.equated
  evidence := gathers.evidence.equated
  claim := gathers.claims.equated
  decision := gathers.decisions.equated
  derivation := gathers.derivations.equated
  resolution := gathers.resolutions.equated
  event := gathers.events.equated

/-- The inactive ids of a log. -/
theorem Collected.Gathers.mem_inactive {contents : Contents}
    (gathers : collected.Gathers registry contents) (claimId : String) :
    claimId ∈ inactiveIds collected ↔ contents.inactive registry claimId :=
  mem_inactiveIds_of gathers.claimIdsByRef gathers.retractionsByTarget
    gathers.retractionsByTargetRef claimId

end Pass

/-! ## The active claims of a state -/

/-- The claim is the one of its id, it is not retracted, and it applies. -/
def MemoryState.Applicable (state : MemoryState) (validAt : Option String) (context : JSONObject)
    (claim : Claim) : Prop :=
  state.claimsById[claim.claimId]? = some claim ∧ claim.claimId ∉ state.inactiveClaimIds ∧
    claimApplies claim validAt context = .ok true

section Active

variable {log : OpLog} {registry : PredicateRegistry} {detectors : List ConflictDetector}
  {validAt : Option String} {context : JSONObject} {state : MemoryState}

/-- The claims that are kept are those that apply, and all were asked. -/
theorem partitionClaims_ok {collected : Collected} {inactive : PySet String}
    {result : List Claim × PySet String}
    (run : partitionClaims collected inactive validAt context = .ok result) :
    result.1 = (Dict.values collected.claimsById).filter (fun claim =>
        claim.claimId ∉ inactive ∧ passes (fun claim => claimApplies claim validAt context) claim) ∧
      ∀ claim ∈ Dict.values collected.claimsById, claim.claimId ∉ inactive →
        ∃ applies, claimApplies claim validAt context = .ok applies := by
  refine foldlM_invariant (fun done (state : List Claim × PySet String) =>
    state.1 = done.filter (fun claim => claim.claimId ∉ inactive ∧
        passes (fun claim => claimApplies claim validAt context) claim) ∧
      ∀ claim ∈ done, claim.claimId ∉ inactive →
        ∃ applies, claimApplies claim validAt context = .ok applies)
    (Dict.values collected.claimsById) ([], ∅) result run ⟨rfl, by simp⟩ ?_
  rintro done claim ⟨kept, out⟩ next ⟨sameKept, asked⟩ _ stepped
  simp only at sameKept stepped
  by_cases gone : claim.claimId ∈ inactive
  · rw [if_pos gone, pure_ok_iff] at stepped
    subst stepped
    refine ⟨by simp [List.filter_append, sameKept, gone], ?_⟩
    intro other listed
    rcases List.mem_append.mp listed with earlier | last
    · exact asked other earlier
    · rw [List.mem_singleton.mp last]
      exact fun present => absurd gone present
  · rw [if_neg gone, bind_ok_iff] at stepped
    obtain ⟨applies, computed, stepped⟩ := stepped
    have all : ∀ other ∈ done ++ [claim], other.claimId ∉ inactive →
        ∃ applies, claimApplies other validAt context = .ok applies := by
      intro other listed present
      rcases List.mem_append.mp listed with earlier | last
      · exact asked other earlier present
      · rw [List.mem_singleton.mp last]
        exact ⟨applies, computed⟩
    cases applies with
    | true =>
        rw [if_pos rfl, pure_ok_iff] at stepped
        subst stepped
        exact ⟨by simp [List.filter_append, sameKept, gone, passes, computed], all⟩
    | false =>
        rw [if_neg Bool.false_ne_true, pure_ok_iff] at stepped
        subst stepped
        exact ⟨by simp [List.filter_append, sameKept, gone, passes, computed], all⟩

theorem partitionClaims_exists {collected : Collected} {inactive : PySet String}
    (each : ∀ claim ∈ Dict.values collected.claimsById, claim.claimId ∉ inactive →
      ∃ applies, claimApplies claim validAt context = .ok applies) :
    ∃ result, partitionClaims collected inactive validAt context = .ok result := by
  refine exists_foldlM_ok ?_ _
  rintro ⟨kept, out⟩ claim listed
  by_cases gone : claim.claimId ∈ inactive
  · exact ⟨_, if_pos gone⟩
  · obtain ⟨applies, computed⟩ := each claim listed gone
    rw [if_neg gone]
    cases applies with
    | true => exact ⟨(kept ++ [claim], out), bind_ok_iff.mpr ⟨true, computed, rfl⟩⟩
    | false =>
        exact ⟨(kept, out.insert claim.claimId), bind_ok_iff.mpr ⟨false, computed, rfl⟩⟩

/-- Claims of a keyed table that pass a test, under their keys. -/
theorem filter_grouped {claimsById : Dict String Claim} (keyed : Keyed claimsById Claim.claimId)
    (test : Claim → Bool) :
    SortedGroups Claim.claimId
      (sortGroups Claim.claimId (groupBy Claim.key ((Dict.values claimsById).filter test)))
      (fun key claim => (claimsById[claim.claimId]? = some claim ∧ test claim = true) ∧
        claim.key = key) := by
  have distinct := (keyed.lists.values_distinct.filter test).imp
    (fun {first second} below => ne_of_lt below)
  refine (groups_groupBy Claim.key distinct).sortGroups.congr ?_
  intro key claim
  rw [List.mem_filter]
  have listed := keyed.lists claim.claimId claim
  simp only [and_true] at listed
  rw [listed]

/-- The claims that are kept, under their keys. -/
theorem partition_grouped {collected : Collected} {inactive : PySet String}
    (keyed : Keyed collected.claimsById Claim.claimId) {result : List Claim × PySet String}
    (run : partitionClaims collected inactive validAt context = .ok result) :
    SortedGroups Claim.claimId (sortGroups Claim.claimId (groupBy Claim.key result.1))
      (fun key claim => (collected.claimsById[claim.claimId]? = some claim ∧
        claim.claimId ∉ inactive ∧ claimApplies claim validAt context = .ok true) ∧
        claim.key = key) := by
  have grouped := filter_grouped keyed (fun claim =>
    claim.claimId ∉ inactive ∧ passes (fun claim => claimApplies claim validAt context) claim)
  rw [← (partitionClaims_ok run).1] at grouped
  refine grouped.congr ?_
  intro key claim
  simp only [decide_eq_true_eq, passes_iff]

/-- The active claims of a state, whatever its instant, context and detectors. -/
theorem materialize_active
    (run : materialize log registry detectors validAt context = .ok state) :
    SortedGroups Claim.claimId state.activeClaimsByKey
        (fun key claim => state.Applicable validAt context claim ∧ claim.key = key) ∧
      Distinct (fun claim : Claim => claim.claimId) (state.Applicable validAt context) := by
  obtain ⟨_, collected, collects, active, partitioned, decisions, _, conflicts, _, indexes, _,
    lifecycle, _, same⟩ := materialize_ok_iff.mp run
  have gathers := collect_gathers collects
  subst same
  constructor
  · exact partition_grouped gathers.claims.keyed partitioned
  · rintro first second ⟨firstFound, _⟩ ⟨secondFound, _⟩ ids
    have ids : first.claimId = second.claimId := ids
    rw [ids, secondFound, Option.some.injEq] at firstFound
    exact firstFound.symm

/-- The candidates of a conflict are equal to active claims of the same id and key. -/
theorem candidates_active
    (run : materialize log registry detectors validAt context = .ok state)
    {conflict : ConflictSet} (current : conflict ∈ state.conflicts) {claim : Claim}
    (candidate : claim ∈ conflict.candidates) :
    ∃ known, known ∈ state.activeClaimsByKey[claim.key]?.getD [] ∧
      known.claimId = claim.claimId ∧ pyEq known claim = true := by
  obtain ⟨grouped, distinct⟩ := materialize_active run
  obtain ⟨_, collected, _, active, _, decisions, _, conflicts, detected, indexes, _, lifecycle, _,
    same⟩ := materialize_ok_iff.mp run
  subst same
  obtain ⟨_, _, _, activeCandidates⟩ := runConflictDetectors_holds detected
  obtain ⟨known, found, equal⟩ := activeCandidates conflict current claim candidate
  obtain ⟨_, listed⟩ := detection_grouped grouped distinct registry collected.evidenceById
    collected.sourcesById collected.derivationsById decisions
  obtain ⟨applicable, sameId⟩ := (listed claim.claimId known).mp found
  have sameKey : known.key = claim.key :=
    congrArg (fun fields => fields.1.2.1) (pyEq_iff.mp equal)
  refine ⟨known, ?_, sameId, equal⟩
  rw [grouped.mem_getD]
  exact ⟨applicable, sameKey⟩

theorem materialize_conflicts_sorted
    (run : materialize log registry detectors validAt context = .ok state) :
    state.conflicts.Pairwise (fun first second => first.conflictId < second.conflictId) := by
  obtain ⟨_, _, _, _, _, _, _, _, detected, _, _, _, _, same⟩ := materialize_ok_iff.mp run
  rw [← same]
  exact runConflictDetectors_sorted detected

/-- A conflict is known by its id. -/
theorem conflict_of_id (run : materialize log registry detectors validAt context = .ok state)
    {first second : ConflictSet} (firstCurrent : first ∈ state.conflicts)
    (secondCurrent : second ∈ state.conflicts) (same : first.conflictId = second.conflictId) :
    first = second := by
  have sorted := materialize_conflicts_sorted run
  have distinct : state.conflicts.Pairwise
      (fun first second => first.conflictId ≠ second.conflictId) :=
    sorted.imp (fun below => ne_of_lt below)
  have found := (Lists.ofItems distinct).get_key firstCurrent
  rw [same, (Lists.ofItems distinct).get_key secondCurrent, Option.some.injEq] at found
  exact found.symm

end Active

private theorem mem_appendTo_conflict {groups : Dict ClaimKey (List ConflictSet)}
    {key other : ClaimKey} {conflict added : ConflictSet} :
    conflict ∈ (appendTo groups key added)[other]?.getD [] ↔
      conflict ∈ groups[other]?.getD [] ∨ (conflict = added ∧ other = key) := by
  rw [appendTo, Dict.get_insert]
  by_cases here : key = other
  · rw [if_pos here, Option.getD_some, List.mem_append, List.mem_singleton, here]
    simp
  · rw [if_neg here]
    simp [Ne.symm here]

private theorem mem_underKeys {conflict added : ConflictSet} {key : ClaimKey} (keys : List ClaimKey)
    (groups : Dict ClaimKey (List ConflictSet)) :
    conflict ∈ (keys.foldl (fun groups key => appendTo groups key added) groups)[key]?.getD [] ↔
      conflict ∈ groups[key]?.getD [] ∨ (conflict = added ∧ key ∈ keys) := by
  induction keys generalizing groups with
  | nil => simp
  | cons head tail inductionHypothesis =>
      rw [List.foldl_cons, inductionHypothesis, mem_appendTo_conflict, List.mem_cons, or_assoc,
        and_or_left]

/-- The conflicts listed under a key are those that touch it. -/
theorem mem_groupConflictsByKey {conflicts : List ConflictSet} {key : ClaimKey}
    {conflict : ConflictSet} :
    conflict ∈ (groupConflictsByKey conflicts)[key]?.getD [] ↔
      conflict ∈ conflicts ∧ key ∈ conflict.keys := by
  have all : ∀ (items : List ConflictSet) (groups : Dict ClaimKey (List ConflictSet)),
      conflict ∈ (items.foldl (fun groups conflict =>
        conflict.keys.foldl (fun groups key => appendTo groups key conflict) groups)
          groups)[key]?.getD [] ↔
      conflict ∈ groups[key]?.getD [] ∨ (conflict ∈ items ∧ key ∈ conflict.keys) := by
    intro items
    induction items with
    | nil =>
        intro groups
        simp
    | cons head tail inductionHypothesis =>
        intro groups
        rw [List.foldl_cons, inductionHypothesis, mem_underKeys, List.mem_cons, or_assoc,
          or_and_right]
        constructor
        · intro either
          rcases either with before | ⟨same, touched⟩ | later
          · exact Or.inl before
          · exact Or.inr (Or.inl ⟨same, same ▸ touched⟩)
          · exact Or.inr (Or.inr later)
        · intro either
          rcases either with before | ⟨same, touched⟩ | later
          · exact Or.inl before
          · exact Or.inr (Or.inl ⟨same, same ▸ touched⟩)
          · exact Or.inr (Or.inr later)
  have listed := all conflicts ∅
  rw [Std.ExtTreeMap.getElem?_empty] at listed
  rw [groupConflictsByKey, sortGroups, Dict.get_map]
  cases found : (conflicts.foldl (fun groups conflict =>
      conflict.keys.foldl (fun groups key => appendTo groups key conflict) groups)
        (∅ : Dict ClaimKey (List ConflictSet)))[key]? with
  | none =>
      rw [found] at listed
      simpa using listed
  | some items =>
      rw [found] at listed
      simpa using listed

end Statefuse
