import Statefuse.Compaction.Pruning
import Statefuse.Materialize.Refinement
import Statefuse.Materialize.Tombstones
import Statefuse.Merge.AuthenticatedSpec

/-!
# What a compacted log amounts to

A compacted log and the log it was made of materialize to the same state, at every instant and in
every context, but for the tables of the records that were left out
(`compactWithReport_materializes`).  The compaction itself finds no difference, and a compacted
log is compacted already (`compactWithReport_agrees`).
-/

namespace Statefuse

open Foundation

variable [Runtime]

section Detection

variable {context : ConflictDetectionContext} {evidenceById : Dict String Evidence}

/-- The evidence of some claims is of the same sources in another table as in the context. -/
def ConflictDetectionContext.SharesEvidence (context : ConflictDetectionContext)
    (evidenceById : Dict String Evidence) (claims : List Claim) : Prop :=
  ∀ claim ∈ claims, ∀ evidenceId ∈ claim.evidenceIds,
    evidenceById[evidenceId]?.bind Evidence.sourceId =
      context.evidenceById[evidenceId]?.bind Evidence.sourceId

theorem annotationsFor_shared {claims : List Claim}
    (shared : context.SharesEvidence evidenceById claims) :
    annotationsFor claims { context with evidenceById := evidenceById } =
      annotationsFor claims context := by
  have sourceTypes : sourceTypesOf claims { context with evidenceById := evidenceById } =
      sourceTypesOf claims context := by
    unfold sourceTypesOf
    congr 1
    apply List.flatMap_congr
    intro claim listed
    apply List.filterMap_congr
    intro evidenceId named
    have split : ∀ (table : Dict String Evidence) (typed : String → Option String),
        (table[evidenceId]?.bind fun evidence => evidence.sourceId.bind typed) =
          (table[evidenceId]?.bind Evidence.sourceId).bind typed :=
      fun table typed => (Option.bind_assoc _ _ _).symm
    exact (split evidenceById _).trans ((congrArg (Option.bind · _)
      (shared claim listed evidenceId named)).trans (split context.evidenceById _).symm)
  have multiHop : isMultiHop claims { context with evidenceById := evidenceById } =
      isMultiHop claims context := rfl
  rw [annotationsFor, annotationsFor, sourceTypes, multiHop]

theorem directConflictFor_shared {claims : List Claim}
    (shared : context.SharesEvidence evidenceById claims) (key : ClaimKey) :
    directConflictFor { context with evidenceById := evidenceById } key claims =
      directConflictFor context key claims := by
  have finding : ∀ (ids : List String) (witnesses : List JSONObject),
      directFinding { context with evidenceById := evidenceById } key
          ((sortBy Claim.claimId claims).filter fun claim => claim.claimId ∈ ids) witnesses =
        directFinding context key
          ((sortBy Claim.claimId claims).filter fun claim => claim.claimId ∈ ids) witnesses := by
    intro ids witnesses
    unfold directFinding
    rw [annotationsFor_shared]
    intro claim listed
    exact shared claim ((sortBy_perm _ _).mem_iff.mp (List.mem_filter.mp listed).1)
  simp only [directConflictFor, finding]

omit [Runtime] in
/-- Computations that agree on every item of a list. -/
theorem mapM_congr {α β : Type} {first second : α → Result β} {items : List α}
    (agree : ∀ item ∈ items, first item = second item) : items.mapM first = items.mapM second := by
  induction items with
  | nil => rfl
  | cons head tail inductionHypothesis =>
      rw [List.mapM_cons, List.mapM_cons, agree head List.mem_cons_self,
        inductionHypothesis fun item listed => agree item (List.mem_cons_of_mem _ listed)]

/-- Without custom detectors, evidence that no active claim names plays no part. -/
theorem runConflictDetectors_shared
    (shared : ∀ entry ∈ context.activeClaimsByKey.toList,
      context.SharesEvidence evidenceById entry.2) :
    runConflictDetectors { context with evidenceById := evidenceById } [] =
      runConflictDetectors context [] := by
  have direct : directConflicts { context with evidenceById := evidenceById } =
      directConflicts context := by
    have found : context.activeClaimsByKey.toList.mapM (fun entry =>
        directConflictFor { context with evidenceById := evidenceById } entry.1 entry.2) =
        context.activeClaimsByKey.toList.mapM fun entry =>
          directConflictFor context entry.1 entry.2 :=
      mapM_congr fun entry listed => directConflictFor_shared (shared entry listed) entry.1
    rw [directConflicts, directConflicts, found]
  rw [runConflictDetectors, runConflictDetectors, direct]
  rfl

end Detection

/-! ## Materializing -/

/-- The state without the tables that say more about a log than about what it amounts to: the
claims and the evidence of every id, what is read off them, and what supersedes what. -/
def MemoryState.withoutPruned (state : MemoryState) : MemoryState :=
  { state with
    evidenceById := ∅
    claimsById := ∅
    claimRefsById := ∅
    claimIdsByRef := ∅
    retractionsBySuperseder := ∅
    retractionsBySupersederRef := ∅
    inactiveClaimIds := ∅
    claimIdsByEvidenceId := ∅
    claimIdsByDerivationId := ∅
    evidenceIdsBySourceId := ∅ }

/-- A table with the records of another one whose ids are kept. -/
def Restricts {α : Type} (isKept : String → Prop) (wide narrow : Dict String α) : Prop :=
  ∀ (recordId : String) (record : α),
    narrow[recordId]? = some record ↔ isKept recordId ∧ wide[recordId]? = some record

omit [Runtime] in
theorem Restricts.get_kept {α : Type} {isKept : String → Prop} {wide narrow : Dict String α}
    {recordId : String} (restricts : Restricts isKept wide narrow) (kept : isKept recordId) :
    narrow[recordId]? = wide[recordId]? := by
  apply Option.ext
  intro record
  rw [restricts recordId record]
  exact and_iff_right kept

omit [Runtime] in
/-- A table that binds no other ids than those that are kept. -/
theorem Keeps.restricts {α : Type} [PyEq α] {isKept : String → Prop} {wide narrow : Dict String α}
    (keeps : Keeps isKept wide narrow)
    (only : ∀ recordId record, narrow[recordId]? = some record → isKept recordId) :
    Restricts isKept wide narrow := by
  intro recordId record
  constructor
  · intro found
    have kept := only recordId record found
    exact ⟨kept, keeps.agrees recordId kept ▸ found⟩
  · rintro ⟨kept, found⟩
    rw [keeps.agrees recordId kept]
    exact found

/-- The same state with fewer claims and less evidence. -/
structure MemoryState.Prunes (isClaim isEvidence : String → Prop) (wide narrow : MemoryState) :
    Prop where
  same : narrow.withoutPruned = wide.withoutPruned
  claims : Restricts isClaim wide.claimsById narrow.claimsById
  evidence : Restricts isEvidence wide.evidenceById narrow.evidenceById

/-- What is computed from the collected records. -/
def Collected.materialized (collected : Collected) (registry : PredicateRegistry)
    (detectors : List ConflictDetector) (validAt : Option String) (context : JSONObject) :
    Result MemoryState := do
  let active ← partitionClaims collected (inactiveIds collected) validAt context
  let activeClaimsByKey := sortGroups Claim.claimId (groupBy Claim.key active.1)
  let activeDecisions ← sortDecisions (Dict.values collected.decisionsById)
  let conflicts ← runConflictDetectors
    (detectionContext registry activeClaimsByKey collected.evidenceById collected.sourcesById
      collected.derivationsById activeDecisions) detectors
  let indexes ← buildIndexes activeClaimsByKey registry (directConflictsByKey conflicts)
  let lifecycle ← foldLifecycle collected.resolutionsById
    (groupResolutionHistory collected.resolutionsById).2
    (groupLifecycleHistory collected.lifecycleEventsById).2
    (Dict.ofItems (·.conflictRef) conflicts) validAt
  return collected.state registry activeClaimsByKey active.2 activeDecisions conflicts indexes
    lifecycle

theorem materialize_collected {log : OpLog} {registry : PredicateRegistry} {collected : Collected}
    (collects : log.iterOps.foldlM (collectStep registry) .empty = .ok collected)
    (detectors : List ConflictDetector) (validAt : Option String) (context : JSONObject) :
    materialize log registry detectors validAt context =
      checkInstant validAt >>= fun _ =>
        collected.materialized registry detectors validAt context := by
  unfold materialize
  rw [collects]
  rfl

/-- Both computations raise the same, or their results are related. -/
inductive SameOutcomeUpTo {α : Type} (related : α → α → Prop) : Result α → Result α → Prop where
  | raised (failure : PyError) : SameOutcomeUpTo related (.error failure) (.error failure)
  | returned {first second : α} (relates : related first second) :
      SameOutcomeUpTo related (.ok first) (.ok second)

namespace SameOutcomeUpTo

variable {α β : Type} {related : α → α → Prop}

omit [Runtime] in
/-- What both sides compute first. -/
theorem bind (first : Result β) {left right : β → Result α}
    (next : ∀ result, first = .ok result → SameOutcomeUpTo related (left result) (right result)) :
    SameOutcomeUpTo related (first >>= left) (first >>= right) := by
  cases first with
  | error failure => exact .raised failure
  | ok result => exact next result rfl

omit [Runtime] in
/-- What more is known about results that are related. -/
theorem imp {closer : α → α → Prop} {left right : Result α}
    (outcome : SameOutcomeUpTo related left right)
    (more : ∀ first second, left = .ok first → right = .ok second → related first second →
      closer first second) : SameOutcomeUpTo closer left right := by
  cases outcome with
  | raised failure => exact .raised failure
  | returned relates => exact .returned (more _ _ rfl rfl relates)

end SameOutcomeUpTo

section Materializing

variable {isClaim isEvidence : String → Prop} {registry : PredicateRegistry}
  {detectors : List ConflictDetector} {wide narrow : Collected}

/-- The claims that are not retracted remain, and no other claim of the narrower tables is
active. -/
structure Collected.SameActive (isClaim : String → Prop) (wide narrow : Collected) : Prop where
  keyed : Keyed wide.claimsById Claim.claimId
  remain : ∀ claim ∈ Dict.values wide.claimsById, claim.claimId ∉ inactiveIds wide →
    isClaim claim.claimId
  inactive : ∀ claim ∈ Dict.values narrow.claimsById,
    claim.claimId ∈ inactiveIds narrow ↔ claim.claimId ∈ inactiveIds wide

theorem partitionClaims_pruned (prunes : wide.Prunes isClaim isEvidence narrow)
    (active : wide.SameActive isClaim narrow) (validAt : Option String) (context : JSONObject) :
    partitionClaims narrow (inactiveIds narrow) validAt context =
      partitionClaims wide (inactiveIds wide) validAt context := by
  have filtered : ∀ (collected : Collected) (inactive : PySet String),
      partitionClaims collected inactive validAt context =
        ((Dict.values collected.claimsById).filter fun claim => claim.claimId ∉ inactive).foldlM
          (fun (state : List Claim × PySet String) claim => do
            let applies ← claimApplies claim validAt context
            if applies then return (state.1 ++ [claim], state.2)
            else return (state.1, state.2.insert claim.claimId)) ([], ∅) := by
    intro collected inactive
    rw [List.foldlM_filter, partitionClaims]
    congr 1
    funext state claim
    by_cases gone : claim.claimId ∈ inactive
    · simp [gone]
    · simp [gone]
  have narrowKeyed : Keyed narrow.claimsById Claim.claimId := by
    intro claimId claim found
    rcases prunes.claims.bound claimId claim found with ⟨other, otherFound, equal⟩
    have sameId : other.claimId = claim.claimId :=
      congrArg (fun fields => fields.1.1) (pyEq_iff.mp equal)
    rw [← sameId]
    exact active.keyed claimId other otherFound
  have same : ((Dict.values narrow.claimsById).filter fun claim =>
        claim.claimId ∉ inactiveIds narrow) =
      (Dict.values wide.claimsById).filter fun claim => claim.claimId ∉ inactiveIds wide := by
    apply eq_of_strictly_sorted (narrowKeyed.lists.values_distinct.filter _)
      (active.keyed.lists.values_distinct.filter _)
    intro claim
    have narrowListed := narrowKeyed.lists claim.claimId claim
    have wideListed := active.keyed.lists claim.claimId claim
    simp only [and_true] at narrowListed wideListed
    rw [List.mem_filter, List.mem_filter, decide_eq_true_eq, decide_eq_true_eq]
    constructor
    · rintro ⟨listed, present⟩
      rw [active.inactive claim listed] at present
      have found := narrowListed.mpr listed
      rcases prunes.claims.bound _ _ found with ⟨other, otherFound, _⟩
      have otherId := active.keyed _ _ otherFound
      have kept := active.remain other ((Dict.mem_values _ _).mpr ⟨_, otherFound⟩)
        (by rw [otherId]; exact present)
      rw [otherId] at kept
      rw [prunes.claims.agrees _ kept] at found
      exact ⟨wideListed.mp found, present⟩
    · rintro ⟨listed, present⟩
      have found := wideListed.mpr listed
      rw [← prunes.claims.agrees _ (active.remain claim listed present)] at found
      have narrowIn := narrowListed.mp found
      exact ⟨narrowIn, fun gone => present ((active.inactive claim narrowIn).mp gone)⟩
  rw [filtered, filtered, same]

/-- Without custom detectors, evidence matters for its sources, and only where an active claim
names it. -/
theorem detection_shared {activeClaimsByKey : Dict ClaimKey (List Claim)}
    {evidenceById others : Dict String Evidence}
    (shared : ∀ entry ∈ activeClaimsByKey.toList, ∀ claim ∈ entry.2,
      ∀ evidenceId ∈ claim.evidenceIds, others[evidenceId]?.bind Evidence.sourceId =
        evidenceById[evidenceId]?.bind Evidence.sourceId)
    (sourcesById : Dict String Source) (derivationsById : Dict String Derivation)
    (activeDecisions : List Decision) :
    runConflictDetectors (detectionContext registry activeClaimsByKey others sourcesById
        derivationsById activeDecisions) [] =
      runConflictDetectors (detectionContext registry activeClaimsByKey evidenceById sourcesById
        derivationsById activeDecisions) [] := by
  let context := detectionContext registry activeClaimsByKey evidenceById sourcesById
    derivationsById activeDecisions
  have equal : runConflictDetectors { context with evidenceById := others } [] =
      runConflictDetectors context [] := runConflictDetectors_shared shared
  exact equal

/-- The detectors find the same, whether all evidence remains or only what active claims name. -/
theorem runConflictDetectors_pruned (prunes : wide.Prunes isClaim isEvidence narrow)
    (allEvidence : detectors ≠ [] → ∀ evidenceId, isEvidence evidenceId)
    {activeClaimsByKey : Dict ClaimKey (List Claim)}
    (named : ∀ entry ∈ activeClaimsByKey.toList, ∀ claim ∈ entry.2,
      ∀ evidenceId ∈ claim.evidenceIds, isEvidence evidenceId)
    (activeDecisions : List Decision) :
    runConflictDetectors (detectionContext registry activeClaimsByKey narrow.evidenceById
        narrow.sourcesById narrow.derivationsById activeDecisions) detectors =
      runConflictDetectors (detectionContext registry activeClaimsByKey wide.evidenceById
        wide.sourcesById wide.derivationsById activeDecisions) detectors := by
  rw [prunes.sourcesById, prunes.derivationsById]
  cases detectors with
  | nil =>
      refine detection_shared ?_ _ _ _
      intro entry listed claim isOne evidenceId isNamed
      exact congrArg (Option.bind · Evidence.sourceId)
        (prunes.evidence.agrees _ (named entry listed claim isOne evidenceId isNamed))
  | cons detector others =>
      rw [prunes.evidence.eq_of_all (allEvidence (List.cons_ne_nil _ _))]

theorem state_pruned (prunes : wide.Prunes isClaim isEvidence narrow)
    (claims : Restricts isClaim wide.claimsById narrow.claimsById)
    (evidence : Restricts isEvidence wide.evidenceById narrow.evidenceById)
    (activeClaimsByKey : Dict ClaimKey (List Claim)) (inapplicable : PySet String)
    (activeDecisions : List Decision) (conflicts : List ConflictSet)
    (indexes : Dict ClaimKey DirectConflictIndex) (lifecycle : LifecycleFold) :
    (wide.state registry activeClaimsByKey inapplicable activeDecisions conflicts indexes
      lifecycle).Prunes isClaim isEvidence
      (narrow.state registry activeClaimsByKey inapplicable activeDecisions conflicts indexes
        lifecycle) where
  same := by
    simp only [Collected.state, MemoryState.withoutPruned, prunes.sourcesById,
      prunes.retractionsByTarget, prunes.retractionsByTargetRef, prunes.derivationsById,
      prunes.resolutionsById, prunes.lifecycleEventsById]
  claims := claims
  evidence := evidence

theorem materialized_pruned (prunes : wide.Prunes isClaim isEvidence narrow)
    (claims : Restricts isClaim wide.claimsById narrow.claimsById)
    (evidence : Restricts isEvidence wide.evidenceById narrow.evidenceById)
    (sameActive : wide.SameActive isClaim narrow)
    (allEvidence : detectors ≠ [] → ∀ evidenceId, isEvidence evidenceId)
    (named : ∀ claim ∈ Dict.values wide.claimsById, claim.claimId ∉ inactiveIds wide →
      ∀ evidenceId ∈ claim.evidenceIds, isEvidence evidenceId)
    (validAt : Option String) (context : JSONObject) :
    SameOutcomeUpTo (MemoryState.Prunes isClaim isEvidence)
      (wide.materialized registry detectors validAt context)
      (narrow.materialized registry detectors validAt context) := by
  unfold Collected.materialized
  rw [partitionClaims_pruned prunes sameActive, prunes.decisionsById,
    prunes.resolutionsById, prunes.lifecycleEventsById]
  refine .bind _ fun active partitioned => .bind _ fun activeDecisions _ => ?_
  have grouped := partition_grouped sameActive.keyed partitioned
  rw [runConflictDetectors_pruned prunes allEvidence]
  · exact .bind _ fun conflicts _ => .bind _ fun indexes _ => .bind _ fun lifecycle _ =>
      .returned (state_pruned prunes claims evidence _ _ _ _ _ _)
  · intro entry listed claim isOne
    have under := (grouped.mem_getD entry.1 claim).mp (by
      rw [(Dict.mem_toList _ _ _).mp listed]
      exact isOne)
    rcases under with ⟨⟨found, active, _⟩, _⟩
    exact named claim ((Dict.mem_values _ _).mpr ⟨claim.claimId, found⟩) active

end Materializing

/-! ## What is needed -/

omit [Runtime] in
/-- The records of all groups together. -/
theorem mem_flatten_values {K V B : Type} [LinearOrder K] [LinearOrder B] {order : V → B}
    {dict : Dict K (List V)} {related : K → V → Prop} (grouped : SortedGroups order dict related)
    (record : V) : record ∈ (Dict.values dict).flatten ↔ ∃ key, related key record := by
  rw [List.mem_flatten]
  constructor
  · rintro ⟨items, listed, member⟩
    rcases (Dict.mem_values _ _).mp listed with ⟨key, found⟩
    exact ⟨key, (grouped.exact key record).mp ⟨items, found, member⟩⟩
  · rintro ⟨key, isRelated⟩
    rcases (grouped.exact key record).mpr isRelated with ⟨items, found, member⟩
    exact ⟨items, (Dict.mem_values _ _).mpr ⟨key, found⟩, member⟩

/-- The evidence that a compacted log has. -/
def CompactionNeeds.IsEvidence (needs : CompactionNeeds) (detectors : List ConflictDetector)
    (evidenceId : String) : Prop :=
  detectors ≠ [] ∨ evidenceId ∈ needs.evidenceIds

instance (needs : CompactionNeeds) (detectors : List ConflictDetector) (evidenceId : String) :
    Decidable (needs.IsEvidence detectors evidenceId) :=
  inferInstanceAs (Decidable (detectors ≠ [] ∨ evidenceId ∈ needs.evidenceIds))

section Needs

variable {log : OpLog} {registry : PredicateRegistry} {detectors : List ConflictDetector}
  {state : MemoryState} {collected : Collected}

/-- The retractions of a state are those that name a target. -/
theorem mem_retractionsOf (gathers : collected.Gathers registry (.of (· ∈ log.iterOps)))
    (byTarget : state.retractionsByTarget =
      sortGroups ClaimRetracted.order collected.retractionsByTarget)
    (byTargetRef : state.retractionsByTargetRef =
      sortGroups ClaimRetracted.order collected.retractionsByTargetRef)
    (retraction : ClaimRetracted) :
    retraction ∈ CompactionNeeds.retractionsOf state ↔
      .claimRetracted retraction ∈ log.iterOps ∧
        ((∃ target, truthy retraction.targetClaimId = some target) ∨
          ∃ target, truthy retraction.targetClaimRef = some target) := by
  rw [CompactionNeeds.retractionsOf, List.mem_append, byTarget, byTargetRef,
    mem_flatten_values gathers.retractionsByTarget.sortGroups,
    mem_flatten_values gathers.retractionsByTargetRef.sortGroups]
  constructor
  · rintro (⟨target, present, named⟩ | ⟨target, present, named⟩)
    · exact ⟨present, Or.inl ⟨target, named⟩⟩
    · exact ⟨present, Or.inr ⟨target, named⟩⟩
  · rintro ⟨present, ⟨target, named⟩ | ⟨target, named⟩⟩
    · exact Or.inl ⟨target, present, named⟩
    · exact Or.inr ⟨target, present, named⟩

/-- Every operation that is left out may be left out. -/
theorem mayBeLeft (run : materialize log registry detectors none ∅ = .ok state) {op : Op}
    (listed : op ∈ log.iterOps)
    (left : (CompactionNeeds.ofState state).keeps detectors op = false) :
    op.MayBeLeft (· ∈ (CompactionNeeds.ofState state).activeClaimIds)
      ((CompactionNeeds.ofState state).IsEvidence detectors) := by
  obtain ⟨_, collected, collects, active, _, activeDecisions, sorts, conflicts, _, indexes, _,
    lifecycle, _, same⟩ := materialize_ok_iff.mp run
  have gathers := collect_gathers collects
  cases op with
  | evidenceAdded header evidence => exact of_decide_eq_false left
  | claimAdded header claim => exact of_decide_eq_false left
  | claimRetracted retraction =>
      have unnamed : retraction ∉ CompactionNeeds.retractionsOf state := by
        intro named
        refine of_decide_eq_false left ?_
        rw [CompactionNeeds.ofState, PySet.mem_ofList]
        exact List.mem_map_of_mem named
      rw [mem_retractionsOf gathers (by rw [← same]; rfl) (by rw [← same]; rfl)] at unnamed
      constructor
      · apply Option.eq_none_iff_forall_ne_some.mpr
        intro target found
        exact unnamed ⟨listed, Or.inl ⟨target, found⟩⟩
      · apply Option.eq_none_iff_forall_ne_some.mpr
        intro target found
        exact unnamed ⟨listed, Or.inr ⟨target, found⟩⟩
  | decisionAdded header decision =>
      refine of_decide_eq_false left ?_
      rcases gathers.decisions.present decision ⟨header, listed⟩ with ⟨held, found, _⟩
      have sameId := (gathers.decisions.stored _ _ found).2
      have isActive : held ∈ state.activeDecisions := by
        rw [← same]
        exact (sortDecisions_perm sorts).mem_iff.mpr ((Dict.mem_values _ _).mpr ⟨_, found⟩)
      rw [CompactionNeeds.ofState, PySet.mem_ofList, ← sameId]
      exact List.mem_map_of_mem isActive
  | sourceAdded header source => cases left
  | derivationAdded header derivation => cases left
  | resolutionAdded header resolution => cases left
  | conflictLifecycleEventAdded header event => cases left

/-- The active claims are the claims of the log that are not retracted. -/
theorem mem_activeClaims (run : materialize log registry detectors none ∅ = .ok state)
    (collects : log.iterOps.foldlM (collectStep registry) .empty = .ok collected) (claim : Claim) :
    claim ∈ (Dict.values state.activeClaimsByKey).flatten ↔
      claim ∈ Dict.values collected.claimsById ∧ claim.claimId ∉ inactiveIds collected := by
  obtain ⟨_, again, recollects, active, partitioned, decisions, _, conflicts, _, indexes, _,
    lifecycle, _, same⟩ := materialize_ok_iff.mp run
  rw [collects, Except.ok.injEq] at recollects
  subst recollects
  have keyed := (collect_gathers collects).claims.keyed
  have listed := keyed.lists claim.claimId claim
  simp only [and_true] at listed
  rw [← same]
  change claim ∈ (Dict.values
    (sortGroups Claim.claimId (groupBy Claim.key active.1))).flatten ↔ _
  rw [mem_flatten_values (partition_grouped keyed partitioned), ← listed]
  constructor
  · rintro ⟨key, ⟨found, isActive, _⟩, _⟩
    exact ⟨found, isActive⟩
  · rintro ⟨found, isActive⟩
    refine ⟨claim.key, ⟨found, isActive, ?_⟩, rfl⟩
    rw [claimApplies, contextExcludes]
    simp

/-- A compacted log consists of the operations that are kept. -/
theorem ofOps_filter (log : OpLog) (keep : Op → Bool) :
    ∃ compacted, OpLog.ofOps (log.iterOps.filter keep) = .ok compacted ∧
      compacted.iterOps = log.iterOps.filter keep := by
  have bound : IdsBound (log.iterOps.filter keep) := by
    intro first firstIn second secondIn same
    have firstFound := (log.mem_iterOps first).mp (List.mem_of_mem_filter firstIn)
    have secondFound := (log.mem_iterOps second).mp (List.mem_of_mem_filter secondIn)
    rw [same, secondFound] at firstFound
    injection firstFound with equal
    exact equal.symm
  rcases OpLog.ofOps_ok bound with ⟨compacted, run, members⟩
  exact ⟨compacted, run,
    eq_of_strictly_sorted compacted.iterOps_sorted (log.iterOps_sorted.filter keep) members⟩

end Needs

/-- The log that a compaction keeps of a log with the given state. -/
def IsCompactionOf (detectors : List ConflictDetector) (state : MemoryState)
    (log compacted : OpLog) : Prop :=
  compacted.iterOps = log.iterOps.filter ((CompactionNeeds.ofState state).keeps detectors)

section Compacted

variable {log compacted : OpLog} {registry : PredicateRegistry}
  {detectors : List ConflictDetector} {state : MemoryState}

/-- A compacted log materializes as the log does, at every instant and in every context. -/
theorem materialize_compacted (run : materialize log registry detectors none ∅ = .ok state)
    (compacts : IsCompactionOf detectors state log compacted) (validAt : Option String)
    (context : JSONObject) :
    SameOutcomeUpTo (MemoryState.Prunes (· ∈ (CompactionNeeds.ofState state).activeClaimIds)
        ((CompactionNeeds.ofState state).IsEvidence detectors))
      (materialize log registry detectors validAt context)
      (materialize compacted registry detectors validAt context) := by
  obtain ⟨_, wide, collects, _⟩ := materialize_ok_iff.mp run
  rcases collect_pruned (fun op listed left => mayBeLeft run listed left) collects with
    ⟨narrow, narrowCollects, prunes⟩
  have compactedCollects : compacted.iterOps.foldlM (collectStep registry) .empty = .ok narrow := by
    rw [compacts]
    exact narrowCollects
  have gathers := collect_gathers collects
  have narrowGathers := collect_gathers compactedCollects
  have active := mem_activeClaims run collects
  have chosen : ∀ op ∈ compacted.iterOps,
      (CompactionNeeds.ofState state).keeps detectors op = true := by
    intro op listed
    rw [compacts] at listed
    exact (List.mem_filter.mp listed).2
  have remains : ∀ claim ∈ Dict.values narrow.claimsById,
      claim.claimId ∈ (CompactionNeeds.ofState state).activeClaimIds := by
    intro claim listed
    rcases (Dict.mem_values _ _).mp listed with ⟨claimId, found⟩
    rcases (narrowGathers.claims.stored _ _ found).1 with ⟨header, present⟩
    exact of_decide_eq_true (chosen _ present)
  have isActive : ∀ claimId, claimId ∈ (CompactionNeeds.ofState state).activeClaimIds ↔
      ∃ claim ∈ Dict.values wide.claimsById, claim.claimId = claimId ∧
        claimId ∉ inactiveIds wide := by
    intro claimId
    rw [CompactionNeeds.ofState, PySet.mem_ofList, List.mem_map]
    constructor
    · rintro ⟨claim, isOne, sameId⟩
      rw [active] at isOne
      exact ⟨claim, isOne.1, sameId, sameId ▸ isOne.2⟩
    · rintro ⟨claim, listed, sameId, present⟩
      exact ⟨claim, (active claim).mpr ⟨listed, sameId ▸ present⟩, sameId⟩
  have within : (Contents.of (· ∈ compacted.iterOps)).Within (.of (· ∈ log.iterOps)) :=
    Contents.within_of fun op listed => List.mem_of_mem_filter (compacts ▸ listed)
  rw [materialize_collected collects, materialize_collected compactedCollects]
  refine .bind _ fun _ _ => materialized_pruned prunes ?_ ?_ ?_ ?_ ?_ validAt context
  · apply prunes.claims.restricts
    intro claimId claim found
    rw [← (narrowGathers.claims.stored _ _ found).2]
    exact remains claim ((Dict.mem_values _ _).mpr ⟨_, found⟩)
  · apply prunes.evidence.restricts
    intro evidenceId evidence found
    rcases narrowGathers.evidence.stored _ _ found with ⟨⟨header, present⟩, sameId⟩
    rw [← sameId]
    exact of_decide_eq_true (chosen _ present)
  · constructor
    · exact gathers.claims.keyed
    · intro claim listed present
      exact (isActive _).mpr ⟨claim, listed, rfl, present⟩
    · intro claim listed
      rcases (isActive _).mp (remains claim listed) with ⟨_, _, _, present⟩
      refine iff_of_false (fun gone => present ?_) present
      rw [narrowGathers.mem_inactive] at gone
      rw [gathers.mem_inactive]
      exact Contents.inactive_mono within gone
  · exact fun custom evidenceId => Or.inl custom
  · intro claim listed isOne evidenceId named
    refine Or.inr ?_
    rw [CompactionNeeds.ofState, PySet.mem_ofList, CompactionNeeds.evidenceIdsOf]
    refine List.mem_append_left _ (List.mem_append_left _ (List.mem_flatMap.mpr ?_))
    exact ⟨claim, (active claim).mpr ⟨listed, isOne⟩, named⟩

end Compacted

end Statefuse
