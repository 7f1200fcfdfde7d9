import Statefuse.Codec
import Statefuse.Materialize.Checkpoint
import Statefuse.Materialize.ContextQueries
import Statefuse.Materialize.Refinement

/-!
# States survive their checkpoints

The records of a checkpoint are read back from its text (`fromCheckpoint_text`), in
whatever order they were listed, and the tables that are computed again are those of the
state (`restored_eq`).  The state of a log is therefore the state that its checkpoint is
read back as (`checkpoint_round_trip`).
-/

namespace Statefuse

open Foundation

section Theory

variable [Runtime]

section Reading

variable {α : Type} {toDict : α → JSONObject} {value : JSONObject} {key : String} {items : List α}

omit [Runtime] in
theorem checkpointList_of_get (found : value[key]? = some (dictList toDict items)) :
    checkpointList value key = .ok (items.map toDict) := by
  have objects : (items.map fun item => JsonValue.obj (toDict item)).mapM
      (JsonValue.asObj? (N := PyNumber)) = some (items.map toDict) := by
    clear found
    induction items with
    | nil => rfl
    | cons head tail inductionHypothesis =>
        rw [List.map_cons, List.mapM_cons, inductionHypothesis]
        simp
  simp [checkpointList, found, dictList, objects]

omit [Runtime] in
theorem readRecords_of_get {fromDict : JSONObject → Result α}
    (found : value[key]? = some (dictList toDict items))
    (each : ∀ item ∈ items, fromDict (toDict item) = .ok item) :
    readRecords fromDict value key = .ok items := by
  rw [readRecords, bind_of_ok (checkpointList_of_get found), mapM_ok_iff,
    List.forall₂_map_left_iff, List.forall₂_same]
  exact each

omit [Runtime] in
theorem checkpointStringSet_of_get {ids : PySet String}
    (found : value[key]? = some (strList ids.toList)) :
    checkpointStringSet value key = .ok ids := by
  have texts : (ids.toList.map JsonValue.str).mapM (JsonValue.asStr? (N := PyNumber)) =
      some ids.toList := by
    generalize ids.toList = items
    induction items with
    | nil => rfl
    | cons head tail inductionHypothesis =>
        rw [List.map_cons, List.mapM_cons, inductionHypothesis]
        simp
  have same : Std.ExtTreeSet.ofList ids.toList compare = ids := by
    apply PySet.ext
    intro claimId
    rw [PySet.mem_ofList, PySet.mem_toList]
  simp [checkpointStringSet, found, strList, texts, same]

omit [Runtime] in
theorem iterate_of_get {default : JSONValue} {listed : List JSONValue}
    (found : value[key]? = some (.arr listed)) :
    iterate (value[key]?.getD default) = .ok listed := by
  rw [found, Option.getD_some, iterate]
  simp only [JsonValue.asArr_arr]

omit [Runtime] in
theorem dictOf_of_get {default : JSONValue} {members : JSONObject}
    (found : value[key]? = some (.obj members)) :
    dictOf (value[key]?.getD default) = .ok members := by
  rw [found, Option.getD_some, dictOf]
  simp only [JsonValue.asObj_obj]

theorem readKey_toDict (key : ClaimKey) : readKey (.obj key.toDict) = .ok key := by
  simp only [readKey, JsonValue.asObj_obj]
  exact key.fromDict_toDict

end Reading

/-- A conflict is read back when the checkpoint has its candidates. -/
theorem readConflict_toDict {claimsById : Dict String Claim} {conflict : ConflictSet}
    (known : ∀ claim ∈ conflict.candidates, claimsById[claim.claimId]? = some claim) :
    readConflict claimsById conflict.toDict = .ok conflict := by
  have ids : conflict.toDict["candidate_claim_ids"]? =
      some (strList (conflict.candidates.map Claim.claimId)) := (get_objectOf _ _).trans rfl
  have conflictId : getItem conflict.toDict "conflict_id" = .ok (.str conflict.conflictId) :=
    getItem_of_get ((get_objectOf _ _).trans rfl)
  have conflictRef : getItem conflict.toDict "conflict_ref" = .ok (.str conflict.conflictRef) :=
    getItem_of_get ((get_objectOf _ _).trans rfl)
  have conflictType : getItem conflict.toDict "conflict_type" =
      .ok (.str conflict.conflictType) := getItem_of_get ((get_objectOf _ _).trans rfl)
  have conflictClass : getItem conflict.toDict "conflict_class" =
      .ok (.str conflict.conflictClass) := getItem_of_get ((get_objectOf _ _).trans rfl)
  have conflictSubclass : getItem conflict.toDict "conflict_subclass" =
      .ok (.str conflict.conflictSubclass) := getItem_of_get ((get_objectOf _ _).trans rfl)
  have detectorId : getItem conflict.toDict "detector_id" = .ok (.str conflict.detectorId) :=
    getItem_of_get ((get_objectOf _ _).trans rfl)
  have keyItem : getItem conflict.toDict "key" = .ok (.obj conflict.key.toDict) :=
    getItem_of_get ((get_objectOf _ _).trans rfl)
  have reason : getItem conflict.toDict "reason" = .ok (.str conflict.reason) :=
    getItem_of_get ((get_objectOf _ _).trans rfl)
  have keyItems : iterate (conflict.toDict["keys"]?.getD (.arr [])) =
      .ok (conflict.keys.map fun key => .obj key.toDict) :=
    iterate_of_get ((get_objectOf _ _).trans rfl)
  have distinctValues : iterate (conflict.toDict["distinct_values"]?.getD (.arr [])) =
      .ok conflict.distinctValues := iterate_of_get ((get_objectOf _ _).trans rfl)
  have annotations : dictOf (conflict.toDict["annotations"]?.getD (.obj ∅)) =
      .ok conflict.annotations := dictOf_of_get ((get_objectOf _ _).trans rfl)
  have witness : dictOf (conflict.toDict["witness"]?.getD (.obj ∅)) = .ok conflict.witness :=
    dictOf_of_get ((get_objectOf _ _).trans rfl)
  have keys : (conflict.keys.map fun key => JsonValue.obj key.toDict).mapM readKey =
      .ok conflict.keys := by
    rw [mapM_ok_iff, List.forall₂_map_left_iff, List.forall₂_same]
    exact fun key _ => readKey_toDict key
  have candidates : ((conflict.candidates.map Claim.claimId).map JsonValue.str).mapM
      (readCandidate claimsById) = .ok conflict.candidates := by
    rw [List.map_map, mapM_ok_iff, List.forall₂_map_left_iff, List.forall₂_same]
    intro claim listed
    simp [readCandidate, known claim listed]
  have created : ConflictSet.create conflict.toConflictFields = .ok conflict := by
    have distinct : (conflict.candidates.map Claim.claimId).Nodup :=
      List.pairwise_map.mpr (conflict.valid.candidatesSorted.imp (fun below => ne_of_lt below))
    rw [ConflictSet.create, dif_pos distinct, dif_pos conflict.valid.identifiersPresent]
    cases conflict with
    | mk fields valid =>
        simp only [Except.ok.injEq, ConflictSet.mk.injEq]
        exact valid.normalized_eq
  simp only [readConflict, ids, strList, Option.bind_some, JsonValue.asArr_arr]
  rw [bind_of_ok conflictId, bind_of_ok conflictRef, bind_of_ok conflictType,
    bind_of_ok conflictClass, bind_of_ok conflictSubclass, bind_of_ok detectorId,
    bind_of_ok keyItem, bind_of_ok (readKey_toDict conflict.key), bind_of_ok keyItems,
    bind_of_ok keys, bind_of_ok candidates, bind_of_ok distinctValues, bind_of_ok reason,
    bind_of_ok annotations, bind_of_ok witness]
  exact created

namespace CheckpointRecords

/-- Records that are read back as they are: the claims and derivations have been read
before, and the candidates of the conflicts are among the claims. -/
structure Faithful (records : CheckpointRecords) : Prop where
  claims : ∀ claim ∈ records.claims, claim.decoded = claim
  derivations : ∀ derivation ∈ records.derivations, derivation.decoded = derivation
  candidates : ∀ conflict ∈ records.conflicts, ∀ claim ∈ conflict.candidates,
    (Dict.ofItems Claim.claimId records.claims)[claim.claimId]? = some claim

variable {records : CheckpointRecords}

theorem fromDict_toDict (faithful : records.Faithful) :
    fromDict records.toDict = .ok records := by
  have sources : readRecords Source.fromDict records.toDict "sources" = .ok records.sources :=
    readRecords_of_get ((get_objectOf _ _).trans rfl) (fun source _ => source.fromDict_toDict)
  have evidence : readRecords Evidence.fromDict records.toDict "evidence" =
      .ok records.evidence :=
    readRecords_of_get ((get_objectOf _ _).trans rfl) (fun item _ => item.fromDict_toDict)
  have claims : readRecords Claim.fromDict records.toDict "claims" = .ok records.claims := by
    refine readRecords_of_get ((get_objectOf _ _).trans rfl) ?_
    intro claim listed
    rw [claim.fromDict_toDict, faithful.claims claim listed]
  have decisions : readRecords Decision.fromDict records.toDict "decisions" =
      .ok records.decisions :=
    readRecords_of_get ((get_objectOf _ _).trans rfl)
      (fun decision _ => decision.fromDict_toDict)
  have derivations : readRecords Derivation.fromDict records.toDict "derivations" =
      .ok records.derivations := by
    refine readRecords_of_get ((get_objectOf _ _).trans rfl) ?_
    intro derivation listed
    rw [derivation.fromDict_toDict, faithful.derivations derivation listed]
  have resolutions : readRecords ResolutionRecord.fromDict records.toDict "resolutions" =
      .ok records.resolutions :=
    readRecords_of_get ((get_objectOf _ _).trans rfl)
      (fun resolution _ => resolution.fromDict_toDict)
  have lifecycleEvents : readRecords ConflictLifecycleEvent.fromDict records.toDict
      "lifecycle_events" = .ok records.lifecycleEvents :=
    readRecords_of_get ((get_objectOf _ _).trans rfl) (fun event _ => event.fromDict_toDict)
  have retractions : readRecords ClaimRetracted.fromDict records.toDict "retractions" =
      .ok records.retractions :=
    readRecords_of_get ((get_objectOf _ _).trans rfl)
      (fun retraction _ => Op.retraction_fromDict retraction)
  have inactive : checkpointStringSet records.toDict "inactive_claim_ids" =
      .ok records.inactiveClaimIds := checkpointStringSet_of_get ((get_objectOf _ _).trans rfl)
  have inapplicable : checkpointStringSet records.toDict "inapplicable_claim_ids" =
      .ok records.inapplicableClaimIds :=
    checkpointStringSet_of_get ((get_objectOf _ _).trans rfl)
  have conflicts : readRecords (readConflict (Dict.ofItems Claim.claimId records.claims))
      records.toDict "conflicts" = .ok records.conflicts :=
    readRecords_of_get ((get_objectOf _ _).trans rfl)
      (fun conflict listed => readConflict_toDict (faithful.candidates conflict listed))
  rw [fromDict, bind_of_ok sources, bind_of_ok evidence, bind_of_ok claims,
    bind_of_ok decisions, bind_of_ok derivations, bind_of_ok resolutions,
    bind_of_ok lifecycleEvents, bind_of_ok retractions, bind_of_ok inactive,
    bind_of_ok inapplicable, bind_of_ok conflicts]
  rfl

/-- The text of a checkpoint is read as its records. -/
theorem fromCheckpoint_text (faithful : records.Faithful) (registry : PredicateRegistry) :
    memoryStateFromCheckpoint records.text registry = records.restored registry := by
  rw [memoryStateFromCheckpoint, text, bind_of_ok (canonicalJsonLoads_dumps _)]
  simp only [JsonValue.asObj_obj]
  rw [bind_of_ok (fromDict_toDict faithful)]

/-! ## The tables that are computed again -/

/-- The records of a state, each table in any order. -/
structure Of (records : CheckpointRecords) (state : MemoryState) : Prop where
  sources : records.sources.Perm (Dict.values state.sourcesById)
  evidence : records.evidence.Perm (Dict.values state.evidenceById)
  claims : records.claims.Perm (Dict.values state.claimsById)
  retractions : records.retractions.Perm (Dict.values state.retractions)
  decisions : records.decisions = state.activeDecisions
  derivations : records.derivations.Perm (Dict.values state.derivationsById)
  resolutions : records.resolutions.Perm (Dict.values state.resolutionsById)
  lifecycleEvents : records.lifecycleEvents.Perm (Dict.values state.lifecycleEventsById)
  conflicts : records.conflicts = state.conflicts
  inactive : records.inactiveClaimIds = state.inactiveClaimIds
  inapplicable : records.inapplicableClaimIds = state.inapplicableClaimIds

theorem checkpointRecords_of (state : MemoryState) : Of state.checkpointRecords state :=
  ⟨.rfl, .rfl, .rfl, .rfl, rfl, .rfl, .rfl, .rfl, rfl, rfl, rfl⟩

omit [Runtime] in
/-- A table is made again from its records. -/
theorem ofItems_of_perm {α : Type} {key : α → String} {table : Dict String α}
    {member : α → Prop} {items : List α} (lists : Foundation.Lists table key member)
    (listed : items.Perm (Dict.values table)) :
    Dict.ofItems key items = table := by
  have distinct : items.Pairwise (fun first second => key first ≠ key second) :=
    listed.symm.pairwise (lists.values_distinct.imp (fun below => ne_of_lt below))
      (fun apart => apart.symm)
  refine ((Foundation.Lists.ofItems distinct).congr ?_).unique lists
  intro item
  rw [listed.mem_iff, lists.mem_values]

omit [Runtime] in
/-- A reverse index does not depend on the order of the items. -/
theorem reverseIndex_of_perm {α : Type} {first second : List α} (keys : α → List String)
    (value : α → String) (permuted : first.Perm second) :
    listed (reverseIndex keys value first) = listed (reverseIndex keys value second) := by
  refine ((Indexes.reverseIndex keys value first).congr ?_).listed.unique
    (Indexes.reverseIndex keys value second).listed
  intro key other
  simp only [permuted.mem_iff]

/-- The retractions under one of their targets. -/
theorem retractionsUnder_grouped (field : ClaimRetracted → Option String)
    (distinct : records.retractions.Pairwise (fun first second => first.opId ≠ second.opId)) :
    SortedGroups ClaimRetracted.order (records.retractionsUnder field)
      (fun target retraction => retraction ∈ records.retractions ∧
        truthy (field retraction) = some target) := by
  refine Groups.sortGroups ?_
  generalize records.retractions = retractions at distinct
  induction retractions using List.reverseRecOn with
  | nil => exact Groups.empty.congr (by simp)
  | append_singleton earlier last inductionHypothesis =>
      obtain ⟨before, _, apart⟩ := List.pairwise_append.mp distinct
      have grouped := inductionHypothesis before
      rw [List.foldl_append, List.foldl_cons, List.foldl_nil, appendRetraction]
      cases target : truthy (field last) with
      | none =>
          refine grouped.congr ?_
          intro wanted retraction
          simp only [List.mem_append, List.mem_singleton]
          constructor
          · rintro ⟨listed, same⟩
            exact ⟨Or.inl listed, same⟩
          · rintro ⟨listed | equal, same⟩
            · exact ⟨listed, same⟩
            · rw [equal, target] at same
              cases same
      | some found =>
          have new : ∀ other, other ∈ earlier ∧ truthy (field other) = some found →
              other.order ≠ last.order := by
            rintro other ⟨listed, _⟩ same
            exact apart other listed last List.mem_cons_self
              (congrArg (fun order => (ofLex order).2) same)
          refine (grouped.appendTo found last new).congr ?_
          intro wanted retraction
          simp only [List.mem_append, List.mem_singleton]
          constructor
          · rintro (⟨listed, same⟩ | ⟨same, equal⟩)
            · exact ⟨Or.inl listed, same⟩
            · rw [equal, same]
              exact ⟨Or.inr rfl, target⟩
          · rintro ⟨listed | equal, same⟩
            · exact Or.inl ⟨listed, same⟩
            · rw [equal, target, Option.some.injEq] at same
              exact Or.inr ⟨same.symm, equal⟩

omit [Runtime] in
private theorem mem_flatten_groups {α : Type} {order : α → String ×ₗ String}
    {groups : Dict String (List α)} {related : String → α → Prop}
    (grouped : SortedGroups order groups related) (item : α) :
    item ∈ (Dict.values groups).flatten ↔ ∃ key, related key item := by
  rw [List.mem_flatten]
  constructor
  · rintro ⟨items, listed, inside⟩
    obtain ⟨key, found⟩ := (Dict.mem_values groups items).mp listed
    exact ⟨key, (grouped.exact key item).mp ⟨items, found, inside⟩⟩
  · rintro ⟨key, holds⟩
    obtain ⟨items, found, inside⟩ := (grouped.exact key item).mpr holds
    exact ⟨items, (Dict.mem_values groups items).mpr ⟨key, found⟩, inside⟩

end CheckpointRecords

/-- The retraction has a target or a superseder that is not empty. -/
def ClaimRetracted.NamesAny (retraction : ClaimRetracted) : Prop :=
  ∃ text, truthy retraction.targetClaimId = some text ∨
    truthy retraction.targetClaimRef = some text ∨
    truthy retraction.supersedesClaimId = some text ∨
    truthy retraction.supersedesClaimRef = some text

section Collecting

variable {log : OpLog} {registry : PredicateRegistry} {detectors : List ConflictDetector}
  {context : JSONObject} {collected : Collected} {contents : Contents} {state : MemoryState}

/-- The retractions of a state that a checkpoint lists. -/
theorem MemoryState.retractions_listed
    (target : SortedGroups ClaimRetracted.order state.retractionsByTarget
      (contents.retractedUnder (·.targetClaimId)))
    (targetRef : SortedGroups ClaimRetracted.order state.retractionsByTargetRef
      (contents.retractedUnder (·.targetClaimRef)))
    (superseder : SortedGroups ClaimRetracted.order state.retractionsBySuperseder
      (contents.retractedUnder (·.supersedesClaimId)))
    (supersederRef : SortedGroups ClaimRetracted.order state.retractionsBySupersederRef
      (contents.retractedUnder (·.supersedesClaimRef)))
    (distinct : Distinct (fun retraction : ClaimRetracted => retraction.opId)
      contents.retraction) :
    Lists state.retractions (·.opId)
      (fun retraction => contents.retraction retraction ∧ retraction.NamesAny) := by
  have members : ∀ retraction : ClaimRetracted,
      retraction ∈ (Dict.values state.retractionsByTarget).flatten ++
        (Dict.values state.retractionsByTargetRef).flatten ++
        (Dict.values state.retractionsBySuperseder).flatten ++
        (Dict.values state.retractionsBySupersederRef).flatten ↔
      contents.retraction retraction ∧ retraction.NamesAny := by
    intro retraction
    simp only [List.mem_append, CheckpointRecords.mem_flatten_groups target,
      CheckpointRecords.mem_flatten_groups targetRef,
      CheckpointRecords.mem_flatten_groups superseder,
      CheckpointRecords.mem_flatten_groups supersederRef, Contents.retractedUnder,
      ClaimRetracted.NamesAny, exists_or, exists_and_left, ← and_or_left, or_assoc]
  refine (Lists.ofItems_of_injective ?_).congr members
  intro first firstListed second secondListed same
  exact distinct first second ((members first).mp firstListed).1
    ((members second).mp secondListed).1 same

/-- The claims that do not apply are remembered by their ids. -/
theorem partitionClaims_out {inactive : PySet String} {validAt : Option String}
    {result : List Claim × PySet String}
    (run : partitionClaims collected inactive validAt context = .ok result) (claimId : String) :
    claimId ∈ result.2 ↔ ∃ claim ∈ Dict.values collected.claimsById, claim.claimId = claimId ∧
      claimId ∉ inactive ∧ claimApplies claim validAt context = .ok false := by
  refine foldlM_invariant (fun done (state : List Claim × PySet String) =>
    claimId ∈ state.2 ↔ ∃ claim ∈ done, claim.claimId = claimId ∧
      claimId ∉ inactive ∧ claimApplies claim validAt context = .ok false)
    (Dict.values collected.claimsById) ([], ∅) result run (by simp) ?_
  rintro done claim ⟨kept, out⟩ next known _ stepped
  simp only at known stepped
  simp only [List.mem_append, List.mem_singleton, or_and_right, exists_or, exists_eq_left,
    ← known]
  by_cases gone : claim.claimId ∈ inactive
  · rw [if_pos gone, pure_ok_iff] at stepped
    subst stepped
    constructor
    · exact Or.inl
    · rintro (already | ⟨same, present, _⟩)
      · exact already
      · rw [same] at gone
        exact absurd gone present
  · rw [if_neg gone, bind_ok_iff] at stepped
    obtain ⟨applies, computed, stepped⟩ := stepped
    cases applies with
    | true =>
        rw [if_pos rfl, pure_ok_iff] at stepped
        subst stepped
        simp [computed]
    | false =>
        rw [if_neg Bool.false_ne_true, pure_ok_iff] at stepped
        subst stepped
        rw [PySet.mem_insert]
        constructor
        · rintro (same | already)
          · exact Or.inr ⟨same, same ▸ gone, computed⟩
          · exact Or.inl already
        · rintro (already | ⟨same, _, _⟩)
          · exact Or.inr already
          · exact Or.inl same

/-- The active claims are found again among all claims. -/
theorem CheckpointRecords.activeClaimsByKey_eq {records : CheckpointRecords}
    (keyed : Keyed collected.claimsById Claim.claimId) {validAt : Option String}
    {active : List Claim × PySet String}
    (run : partitionClaims collected records.inactiveClaimIds validAt context = .ok active)
    (claims : records.claims.Perm (Dict.values collected.claimsById))
    (inapplicable : records.inapplicableClaimIds = active.2) :
    records.activeClaimsByKey = sortGroups Claim.claimId (groupBy Claim.key active.1) := by
  have distinct : records.claims.Pairwise
      (fun first second => first.claimId ≠ second.claimId) :=
    claims.symm.pairwise (keyed.lists.values_distinct.imp (fun below => ne_of_lt below))
      (fun apart => apart.symm)
  refine ((groups_groupBy Claim.key (distinct.filter _)).sortGroups.congr ?_).unique
    (partition_grouped keyed run)
  intro key claim
  refine and_congr_left' ?_
  have stored : claim ∈ Dict.values collected.claimsById ↔
      collected.claimsById[claim.claimId]? = some claim := by
    have listed := keyed.lists claim.claimId claim
    simp only [and_true] at listed
    exact listed.symm
  rw [List.mem_filter, claims.mem_iff, stored, decide_eq_true_eq, inapplicable,
    partitionClaims_out run]
  refine and_congr_right fun found => and_congr_right fun present => ?_
  obtain ⟨applies, computed⟩ := (partitionClaims_ok run).2 claim (stored.mpr found) present
  constructor
  · intro stays
    cases applies with
    | true => exact computed
    | false => exact absurd ⟨claim, stored.mpr found, rfl, present, computed⟩ stays
  · rintro holds ⟨other, listed, same, _, fails⟩
    have otherFound := (keyed.lists _ _).mpr ⟨listed, same⟩
    rw [found, Option.some.injEq] at otherFound
    rw [← otherFound, holds] at fails
    cases fails

/-- Sorting decisions again changes nothing. -/
theorem sortDecisions_sorted {decisions sorted : List Decision}
    (run : sortDecisions decisions = .ok sorted) : sortDecisions sorted = .ok sorted := by
  rw [sortDecisions, bind_ok_iff] at run
  obtain ⟨timed, computed, same⟩ := run
  rw [pure_ok_iff] at same
  have again : sorted.mapM (fun decision => do
      let time ← decisionTime decision
      return (time, decision)) = (.ok (sortBy (fun entry : WithBot ℚ × Decision =>
        toLex (entry.1, entry.2.decisionId)) timed) : Result (List (WithBot ℚ × Decision))) := by
    rw [← same, mapM_ok_iff, List.forall₂_map_left_iff, List.forall₂_same]
    intro entry listed
    obtain ⟨decision, _, timedSo⟩ := (mem_mapM_ok computed entry).mp (mem_sortBy.mp listed)
    obtain ⟨time, known, equal⟩ := bind_ok_iff.mp timedSo
    rw [pure_ok_iff] at equal
    rw [← equal, bind_of_ok known]
    rfl
  rw [sortDecisions, bind_of_ok again, sortBy_of_pairwise (sortBy_pairwise _ timed), same]
  rfl

/-- The claims of a reference are found again from the references of the claims. -/
theorem Collected.Holds.claimIdsByRef_again {contents : Contents}
    (holds : collected.Holds registry contents) :
    Foundation.listed (reverseIndex (fun entry : String × String => [entry.2])
      Prod.fst collected.claimRefsById.toList) = Foundation.listed collected.claimIdsByRef := by
  refine ((Indexes.reverseIndex _ _ _).congr ?_).listed.unique holds.claimIdsByRef.listed
  intro claimRef claimId
  constructor
  · rintro ⟨⟨storedId, storedRef⟩, stored, inside, rfl⟩
    obtain ⟨claim, isClaim, sameId, sameRef⟩ :=
      (holds.claimRefs _ _).mp ((Dict.mem_toList _ _ _).mp stored)
    rw [List.mem_singleton.mp inside]
    exact ⟨claim, isClaim, sameRef, sameId⟩
  · rintro ⟨claim, isClaim, sameRef, sameId⟩
    refine ⟨(claimId, claimRef), ?_, List.mem_singleton_self _, rfl⟩
    exact (Dict.mem_toList _ _ _).mpr
      ((holds.claimRefs _ _).mpr ⟨claim, isClaim, sameId, sameRef⟩)

/-- The retractions under a field are found again among all retractions. -/
theorem CheckpointRecords.retractionsUnder_eq {records : CheckpointRecords}
    {contents : Contents} {retractions : Dict String ClaimRetracted}
    (lists : Lists retractions (·.opId) (fun retraction =>
      contents.retraction retraction ∧ retraction.NamesAny))
    (listed : records.retractions.Perm (Dict.values retractions))
    {field : ClaimRetracted → Option String} {table : Dict String (List ClaimRetracted)}
    (named : ∀ retraction text, truthy (field retraction) = some text → retraction.NamesAny)
    (grouped : SortedGroups ClaimRetracted.order table (contents.retractedUnder field)) :
    records.retractionsUnder field = table := by
  have distinct : records.retractions.Pairwise
      (fun first second => first.opId ≠ second.opId) :=
    listed.symm.pairwise (lists.values_distinct.imp (fun below => ne_of_lt below))
      (fun apart => apart.symm)
  refine ((retractionsUnder_grouped field distinct).congr ?_).unique grouped
  intro target retraction
  rw [listed.mem_iff, lists.mem_values]
  constructor
  · rintro ⟨⟨isRetraction, _⟩, same⟩
    exact ⟨isRetraction, same⟩
  · rintro ⟨isRetraction, same⟩
    exact ⟨⟨isRetraction, named retraction target same⟩, same⟩

/-- The tables that are computed again are those of the state. -/
theorem CheckpointRecords.restored_eq {records : CheckpointRecords}
    (plain : (Contents.of (· ∈ log.iterOps)).Plain)
    (run : materialize log registry detectors none context = .ok state)
    (listed : records.Of state) : records.restored registry = .ok state := by
  obtain ⟨_, collected, collects, active, partitioned, decisions, sorts, conflicts, detected,
    indexes, built, lifecycle, folds, same⟩ := materialize_ok_iff.mp run
  have holds := collect_holds log.iterOps_nodup plain collects
  subst same
  have sameInactive : records.inactiveClaimIds = inactiveIds collected := listed.inactive
  have claimsListed : records.claims.Perm (Dict.values collected.claimsById) := listed.claims
  have evidenceListed : records.evidence.Perm (Dict.values collected.evidenceById) :=
    listed.evidence
  have resolutionsListed : records.resolutions.Perm (Dict.values collected.resolutionsById) :=
    listed.resolutions
  have claims := ofItems_of_perm holds.records.claims claimsListed
  have sources := ofItems_of_perm holds.records.sources listed.sources
  have evidence := ofItems_of_perm holds.records.evidence evidenceListed
  have derivations := ofItems_of_perm holds.records.derivations listed.derivations
  have resolutions := ofItems_of_perm holds.records.resolutions resolutionsListed
  have events := ofItems_of_perm holds.records.events listed.lifecycleEvents
  have sameConflicts : sortBy (fun conflict : ConflictSet => conflict.conflictId)
      records.conflicts = conflicts := by
    rw [listed.conflicts]
    exact sortBy_of_pairwise ((runConflictDetectors_sorted detected).imp
      (fun below => le_of_lt below))
  have sameDecisions : sortDecisions records.decisions = .ok decisions := by
    rw [listed.decisions]
    exact sortDecisions_sorted sorts
  have sameActive : records.activeClaimsByKey =
      sortGroups Claim.claimId (groupBy Claim.key active.1) := by
    rw [← sameInactive] at partitioned
    exact activeClaimsByKey_eq (fun wanted claim found =>
      ((holds.records.claims wanted claim).mp found).2) partitioned claimsListed
      listed.inapplicable
  have claimRefs : (collected.claimsById.map fun _ claim => registry.claimRefForClaim claim) =
      collected.claimRefsById :=
    Maps.unique (Projects.map holds.records.claims registry.claimRefForClaim) holds.claimRefs
  have claimIdsByRef := holds.claimIdsByRef_again
  have retractions : Lists (collected.state registry (sortGroups Claim.claimId
      (groupBy Claim.key active.1)) active.2 decisions conflicts indexes lifecycle).retractions
      (·.opId) (fun retraction => (Contents.of (· ∈ log.iterOps)).retraction retraction ∧
        retraction.NamesAny) := MemoryState.retractions_listed
    holds.retractionsByTarget.sortGroups holds.retractionsByTargetRef.sortGroups
    holds.retractionsBySuperseder.sortGroups holds.retractionsBySupersederRef.sortGroups
    plain.retraction
  have target : records.retractionsUnder (·.targetClaimId) = _ :=
    retractionsUnder_eq retractions listed.retractions
      (fun _ text known => ⟨text, Or.inl known⟩) holds.retractionsByTarget.sortGroups
  have targetRef : records.retractionsUnder (·.targetClaimRef) = _ :=
    retractionsUnder_eq retractions listed.retractions
      (fun _ text known => ⟨text, Or.inr (Or.inl known)⟩)
      holds.retractionsByTargetRef.sortGroups
  have superseder : records.retractionsUnder (·.supersedesClaimId) = _ :=
    retractionsUnder_eq retractions listed.retractions
      (fun _ text known => ⟨text, Or.inr (Or.inr (Or.inl known))⟩)
      holds.retractionsBySuperseder.sortGroups
  have supersederRef : records.retractionsUnder (·.supersedesClaimRef) = _ :=
    retractionsUnder_eq retractions listed.retractions
      (fun _ text known => ⟨text, Or.inr (Or.inr (Or.inr known))⟩)
      holds.retractionsBySupersederRef.sortGroups
  have byEvidence : claimIdsByEvidenceIdOf records.claims =
      claimIdsByEvidenceIdOf (Dict.values collected.claimsById) :=
    reverseIndex_of_perm _ _ claimsListed
  have byDerivation : claimIdsByDerivationIdOf records.claims =
      claimIdsByDerivationIdOf (Dict.values collected.claimsById) :=
    reverseIndex_of_perm _ _ claimsListed
  have bySource : evidenceIdsBySourceIdOf records.evidence =
      evidenceIdsBySourceIdOf (Dict.values collected.evidenceById) :=
    reverseIndex_of_perm _ _ evidenceListed
  have byClaim : resolutionIdsByClaimIdOf records.resolutions =
      resolutionIdsByClaimIdOf (Dict.values collected.resolutionsById) :=
    reverseIndex_of_perm _ _ resolutionsListed
  have rebuilt : records.state registry conflicts indexes lifecycle decisions =
      collected.state registry (sortGroups Claim.claimId (groupBy Claim.key active.1)) active.2
        decisions conflicts indexes lifecycle := by
    simp only [CheckpointRecords.state, Collected.state, claims, sources, evidence, derivations,
      resolutions, events, sameActive, claimRefs, claimIdsByRef, target, targetRef, superseder,
      supersederRef, byEvidence, byDerivation, bySource, byClaim, sameInactive,
      listed.inapplicable]
  unfold restored
  simp only [sameConflicts, resolutions, events, sameActive]
  rw [bind_of_ok built, bind_of_ok folds, bind_of_ok sameDecisions, rebuilt]
  rfl

/-- The candidates of the conflicts that a detector reports are claims it was shown. -/
def HandsOn (detector : ConflictDetector) : Prop :=
  ∀ (context : ConflictDetectionContext) (conflicts : List ConflictSet),
    detector context = .ok conflicts → ∀ conflict ∈ conflicts, ∀ claim ∈ conflict.candidates,
      context.claimsById[claim.claimId]? = some claim

/-- The candidates of the conflicts of a state are its claims. -/
theorem candidates_of_state (handsOn : ∀ detector ∈ detectors, HandsOn detector)
    (run : materialize log registry detectors none context = .ok state) :
    ∀ conflict ∈ state.conflicts, ∀ claim ∈ conflict.candidates,
      state.claimsById[claim.claimId]? = some claim := by
  obtain ⟨grouped, distinct⟩ := materialize_active run
  obtain ⟨_, collected, _, active, _, decisions, _, conflicts, detected, indexes, built, lifecycle,
    _, same⟩ := materialize_ok_iff.mp run
  subst same
  intro conflict current claim candidate
  have readable : ∀ claim, MemoryState.Applicable _ none context claim → Readable claim :=
    fun claim applicable => readable_of_buildIndexes grouped built claim.key claim
      ⟨applicable, rfl⟩
  obtain ⟨contextGrouped, contextClaims⟩ := detection_grouped grouped distinct registry
    collected.evidenceById collected.sourcesById collected.derivationsById decisions
  obtain ⟨findings, ⟨direct, custom, found, reported, split⟩, composes⟩ :=
    runConflictDetectors_composes detected
  have among := composes.sound conflict current
  rw [split] at among
  rcases List.mem_append.mp among with isDirect | isCustom
  · obtain ⟨direct', found', _, members⟩ := directConflicts_ok contextGrouped readable
    have sameDirect : direct = direct' := Except.ok.inj (found.symm.trans found')
    rw [sameDirect] at isDirect
    obtain ⟨key, finding⟩ := (members conflict).mp isDirect
    obtain ⟨candidates, witnesses, isMember, isFinding⟩ := finding_spec contextGrouped finding
    rw [isFinding.candidates, mem_sortBy] at candidate
    exact (isMember claim candidate).1.1
  · obtain ⟨reports, listed, inside⟩ := List.mem_flatten.mp isCustom
    obtain ⟨detector, isDetector, computed⟩ := (mem_mapM_ok reported reports).mp listed
    have shown := handsOn detector isDetector _ reports computed conflict inside claim candidate
    exact ((contextClaims _ _).mp shown).1.1

/-- The records of a state are read back as they are. -/
theorem CheckpointRecords.Of.faithful {records : CheckpointRecords}
    (plain : (Contents.of (· ∈ log.iterOps)).Plain)
    (decoded : ∀ op ∈ log.iterOps, op.decoded = op)
    (handsOn : ∀ detector ∈ detectors, HandsOn detector)
    (run : materialize log registry detectors none context = .ok state)
    (listed : records.Of state) : records.Faithful := by
  have candidates := candidates_of_state handsOn run
  obtain ⟨_, collected, collects, active, _, decisions, _, conflicts, _, indexes, _, lifecycle, _,
    same⟩ := materialize_ok_iff.mp run
  have holds := collect_holds log.iterOps_nodup plain collects
  subst same
  have claims : Dict.ofItems Claim.claimId records.claims = collected.claimsById :=
    ofItems_of_perm holds.records.claims listed.claims
  refine ⟨?_, ?_, ?_⟩
  · intro claim inside
    obtain ⟨header, delivered⟩ :=
      (holds.records.claims.mem_values claim).mp (listed.claims.mem_iff.mp inside)
    exact (Op.claimAdded.inj (decoded _ delivered)).2
  · intro derivation inside
    obtain ⟨header, delivered⟩ := (holds.records.derivations.mem_values derivation).mp
      (listed.derivations.mem_iff.mp inside)
    exact (Op.derivationAdded.inj (decoded _ delivered)).2
  · rw [claims, listed.conflicts]
    exact candidates

/-- The state of a log is read back from its checkpoint, in whatever order the records of
the checkpoint were listed. -/
theorem checkpoint_round_trip (plain : (Contents.of (· ∈ log.iterOps)).Plain)
    (decoded : ∀ op ∈ log.iterOps, op.decoded = op)
    (handsOn : ∀ detector ∈ detectors, HandsOn detector)
    (run : materialize log registry detectors none context = .ok state)
    {records : CheckpointRecords} (listed : records.Of state) :
    memoryStateFromCheckpoint records.text registry = .ok state := by
  rw [CheckpointRecords.fromCheckpoint_text (listed.faithful plain decoded handsOn run)]
  exact CheckpointRecords.restored_eq plain run listed

end Collecting

end Theory

section Example

attribute [local instance] Reference.runtime

private def readFact (claimId value : String) : Claim :=
  (Reference.fact claimId Reference.key (.str value) []).decoded

/-- Two claims of one key with different values. -/
def conflictingOps : List Op :=
  [.claimAdded ⟨"op-a", "r", "t"⟩ (readFact "a" "x"),
    .claimAdded ⟨"op-b", "r", "t"⟩ (readFact "b" "y")]

theorem conflictingOps_decoded : ∀ op ∈ conflictingOps, op.decoded = op := by
  simp [conflictingOps, Op.decoded, readFact]

private theorem conflicting_claims {op : Op} (listed : op ∈ conflictingOps) :
    ∃ header claimId value, op = .claimAdded header (readFact claimId value) ∧
      (claimId = "a" ∧ value = "x" ∨ claimId = "b" ∧ value = "y") := by
  simp only [conflictingOps, List.mem_cons, List.not_mem_nil, or_false] at listed
  rcases listed with same | same
  · exact ⟨_, _, _, same, Or.inl ⟨rfl, rfl⟩⟩
  · exact ⟨_, _, _, same, Or.inr ⟨rfl, rfl⟩⟩

theorem conflictingOps_comparable : (Contents.of (· ∈ conflictingOps)).Comparable := by
  constructor
  case claim =>
    rintro left right ⟨_, leftListed⟩ ⟨_, rightListed⟩ same
    obtain ⟨_, leftId, _, isLeft, leftCase⟩ := conflicting_claims leftListed
    obtain ⟨_, rightId, _, isRight, rightCase⟩ := conflicting_claims rightListed
    injection isLeft with _ isLeft
    injection isRight with _ isRight
    have sameId : left.claimId = right.claimId :=
      congrArg (fun fields => fields.1.1) (pyEq_iff.mp same)
    rw [isLeft, isRight] at sameId ⊢
    rcases leftCase with ⟨rfl, rfl⟩ | ⟨rfl, rfl⟩ <;>
      rcases rightCase with ⟨rfl, rfl⟩ | ⟨rfl, rfl⟩
    · rfl
    · exact absurd sameId (by decide)
    · exact absurd sameId (by decide)
    · rfl
  all_goals
    rintro left right ⟨_, leftListed⟩ _ _
    obtain ⟨_, _, _, impossible, _⟩ := conflicting_claims leftListed
    cases impossible

private theorem conflicting_listed : (Reference.logOf conflictingOps).iterOps = conflictingOps := by
  decide +kernel

theorem checkpoint_round_trip_conflicting :
    ∃ state, materialize (Reference.logOf conflictingOps) .empty [] none ∅ = .ok state ∧
      state.conflicts.length = 1 ∧
      memoryStateFromCheckpoint (memoryStateToCheckpoint state) .empty = .ok state := by
  have computed : ((materialize (Reference.logOf conflictingOps) .empty [] none ∅).toOption.map
      fun state => state.conflicts.length) = some 1 := by decide +kernel
  cases run : materialize (Reference.logOf conflictingOps) .empty [] none ∅ with
  | error failure =>
      rw [run] at computed
      cases computed
  | ok state =>
      rw [run] at computed
      injection computed with computed
      have plain : (Contents.of (· ∈ (Reference.logOf conflictingOps).iterOps)).Plain := by
        have bound : IdsBound (Reference.logOf conflictingOps).iterOps := by
          intro first firstListed second secondListed same
          rw [OpLog.mem_iterOps] at firstListed secondListed
          rw [same, secondListed, Option.some.injEq] at firstListed
          exact firstListed.symm
        refine Contents.Comparable.plain bound ?_
        rw [conflicting_listed]
        exact conflictingOps_comparable
      exact ⟨state, rfl, computed, checkpoint_round_trip plain
        (by rw [conflicting_listed]; exact conflictingOps_decoded)
        (fun _ impossible => absurd impossible List.not_mem_nil) run
        (CheckpointRecords.checkpointRecords_of state)⟩

end Example

end Statefuse
