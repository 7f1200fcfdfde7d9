import Statefuse.Materialize.Acceptance
import Statefuse.Materialize.Affected
import Statefuse.Reference

/-!
# Retractions win

A merged log keeps one of the equal operations that its parts bind to an id.  Up to that
choice it has the records of both parts, so that the claims that are active in it are
those that no retraction of either part names, and a step over the operations of the
second part, in whatever order, leads from the state of the first part to the same ones.
-/

namespace Statefuse

open Foundation

section Merging

variable [Runtime]

/-- Every record has an equal one among others, and every retraction is among them. -/
structure Contents.EqualWithin (contents whole : Contents) : Prop where
  source : ∀ record, contents.source record → ∃ other, whole.source other ∧ pyEq other record = true
  evidence : ∀ record, contents.evidence record →
    ∃ other, whole.evidence other ∧ pyEq other record = true
  claim : ∀ record, contents.claim record → ∃ other, whole.claim other ∧ pyEq other record = true
  retraction : ∀ record, contents.retraction record → whole.retraction record
  decision : ∀ record, contents.decision record →
    ∃ other, whole.decision other ∧ pyEq other record = true
  derivation : ∀ record, contents.derivation record →
    ∃ other, whole.derivation other ∧ pyEq other record = true
  resolution : ∀ record, contents.resolution record →
    ∃ other, whole.resolution other ∧ pyEq other record = true
  event : ∀ record, contents.event record → ∃ other, whole.event other ∧ pyEq other record = true

/-- Equal operations have equal payloads. -/
theorem payload_of_equal {first second : Op} (equal : pyEq first second = true) :
    first.payloadKey = second.payloadKey :=
  congrArg Prod.snd (pyEq_iff.mp equal)

/-- A retraction is equal to itself alone. -/
theorem retraction_of_equal {op : Op} {retraction : ClaimRetracted}
    (equal : pyEq op (.claimRetracted retraction) = true) : op = .claimRetracted retraction := by
  have same := payload_of_equal equal
  cases op with
  | claimRetracted known =>
      have fields : known.toRetractionFields = retraction.toRetractionFields :=
        Op.PayloadKey.retraction.inj same
      cases known
      cases retraction
      cases fields
      rfl
  | _ => cases same

theorem Contents.equalWithin_of {fewer more : Op → Prop}
    (mirrored : ∀ op, fewer op → ∃ other, more other ∧ pyEq other op = true) :
    (Contents.of fewer).EqualWithin (.of more) := by
  constructor
  case retraction =>
    intro record listed
    rcases mirrored _ listed with ⟨other, isMore, equal⟩
    rw [retraction_of_equal equal] at isMore
    exact isMore
  all_goals
    rintro record ⟨header, listed⟩
    rcases mirrored _ listed with ⟨other, isMore, equal⟩
    have same := payload_of_equal equal
    cases other
  all_goals first
    | cases same
    | (injection same with same
       exact ⟨_, ⟨_, isMore⟩, pyEq_iff.mpr same⟩)

omit [Runtime] in
private theorem equated_mirror {α : Type} [PyEq α] {key : α → String} {fewer more : α → Prop}
    (equated : Equated key more)
    (sameKey : ∀ first second : α, pyEq first second = true → key first = key second)
    (mirrored : ∀ record, fewer record → ∃ other, more other ∧ pyEq other record = true) :
    Equated key fewer := by
  intro first second isFirst isSecond same
  rcases mirrored first isFirst with ⟨left, isLeft, leftEqual⟩
  rcases mirrored second isSecond with ⟨right, isRight, rightEqual⟩
  have keys : key left = key right :=
    (sameKey left first leftEqual).trans (same.trans (sameKey right second rightEqual).symm)
  exact pyEq_trans (pyEq_symm leftEqual)
    (pyEq_trans (equated left right isLeft isRight keys) rightEqual)

namespace Contents.EqualWithin

variable {contents whole : Contents} {registry : PredicateRegistry}

theorem compatible (mirrors : contents.EqualWithin whole) (compatible : whole.Compatible) :
    contents.Compatible where
  source := equated_mirror compatible.source
    (fun _ _ equal => congrArg (fun fields => fields.1.1) (pyEq_iff.mp equal)) mirrors.source
  evidence := equated_mirror compatible.evidence
    (fun _ _ equal => congrArg (fun fields => fields.1) (pyEq_iff.mp equal)) mirrors.evidence
  claim := equated_mirror compatible.claim
    (fun _ _ equal => congrArg (fun fields => fields.1.1) (pyEq_iff.mp equal)) mirrors.claim
  decision := equated_mirror compatible.decision
    (fun _ _ equal => congrArg (fun fields => fields.1) (pyEq_iff.mp equal)) mirrors.decision
  derivation := equated_mirror compatible.derivation
    (fun _ _ equal => congrArg (fun fields => fields.1.1) (pyEq_iff.mp equal)) mirrors.derivation
  resolution := equated_mirror compatible.resolution
    (fun _ _ equal => congrArg (fun fields => fields.1.1) (pyEq_iff.mp equal)) mirrors.resolution
  event := equated_mirror compatible.event
    (fun _ _ equal => congrArg (fun fields => fields.1.1) (pyEq_iff.mp equal)) mirrors.event

theorem claimId_of_equal {first second : Claim} (equal : pyEq first second = true) :
    first.claimId = second.claimId :=
  congrArg (fun fields => fields.1.1) (pyEq_iff.mp equal)

/-- The same claims are retracted. -/
theorem retracts_iff (mirrors : contents.EqualWithin whole) (within : whole.Within contents)
    (claim : Claim) : contents.Retracts registry claim ↔ whole.Retracts registry claim := by
  constructor
  · rintro ⟨retraction, isRetraction, names⟩
    exact ⟨retraction, mirrors.retraction _ isRetraction, names⟩
  · rintro ⟨retraction, isRetraction, names⟩
    exact ⟨retraction, within.retraction _ isRetraction, names⟩

theorem dated (mirrors : contents.EqualWithin whole) (within : whole.Within contents)
    (dated : whole.Dated registry) : contents.Dated registry := by
  constructor
  · intro decision isDecision
    rcases mirrors.decision decision isDecision with ⟨other, isOther, equal⟩
    have sameTime : other.timestamp = decision.timestamp :=
      congrArg (fun fields => fields.2.2.2) (pyEq_iff.mp equal)
    rw [← sameTime]
    exact dated.decisions other isOther
  · intro claim isActive
    rcases mirrors.claim claim isActive.1 with ⟨other, isOther, equal⟩
    rw [← givenBounds_of_equal equal]
    refine dated.claims other ⟨isOther, ?_⟩
    intro inactive
    rw [claimId_of_equal equal] at inactive
    exact isActive.2 (Contents.inactive_mono within inactive)

theorem uniform (mirrors : contents.EqualWithin whole) (within : whole.Within contents)
    (uniform : contents.Uniform registry) : whole.Uniform registry := by
  intro first second isFirst isSecond same
  rw [← mirrors.retracts_iff within, ← mirrors.retracts_iff within]
  exact uniform first second (within.claim _ isFirst) (within.claim _ isSecond) same

/-- The same claims survive. -/
theorem survives_iff (mirrors : contents.EqualWithin whole) (within : whole.Within contents)
    (uniform : contents.Uniform registry) (claim : Claim) :
    contents.Survives registry claim ↔ whole.Survives registry claim := by
  constructor
  · rintro ⟨known, isKnown, equal, kept⟩
    rcases mirrors.claim known isKnown with ⟨other, isOther, otherEqual⟩
    refine ⟨other, isOther, pyEq_trans otherEqual equal, ?_⟩
    rw [← mirrors.retracts_iff within,
      uniform other known (within.claim _ isOther) isKnown (claimId_of_equal otherEqual)]
    exact kept
  · rintro ⟨known, isKnown, equal, kept⟩
    refine ⟨known, within.claim _ isKnown, equal, ?_⟩
    rw [mirrors.retracts_iff within]
    exact kept

end Contents.EqualWithin

namespace OpLog

private theorem mem_of_add {log next : OpLog} {op other : Op}
    (run : (log.add op).map Prod.fst = .ok next) (listed : other ∈ next.iterOps) :
    other ∈ log.iterOps ∨ other = op := by
  rcases map_ok_iff.mp run with ⟨⟨added, isNew⟩, computed, same⟩
  subst same
  unfold add at computed
  split at computed
  · injection computed with computed
    injection computed with sameLog
    have found := (mem_iterOps _ other).mp listed
    rw [← sameLog, insert, Dict.get_insert] at found
    split at found
    · injection found with found
      exact Or.inr found.symm
    · exact Or.inl ((mem_iterOps log other).mpr found)
  · split at computed
    · injection computed with computed
      injection computed with sameLog
      rw [← sameLog] at listed
      exact Or.inl listed
    · cases computed

private theorem mem_of_addAll {log next : OpLog} {ops : List Op} {other : Op}
    (run : ops.foldlM (fun log op => (log.add op).map Prod.fst) log = .ok next)
    (listed : other ∈ next.iterOps) : other ∈ log.iterOps ∨ other ∈ ops := by
  induction ops generalizing log with
  | nil =>
      rw [List.foldlM_nil, pure_ok_iff] at run
      rw [← run] at listed
      exact Or.inl listed
  | cons head tail inductionHypothesis =>
      rcases bind_ok_iff.mp run with ⟨entered, added, run⟩
      rcases inductionHypothesis run with earlier | later
      · rcases mem_of_add added earlier with old | isHead
        · exact Or.inl old
        · rw [isHead]
          exact Or.inr List.mem_cons_self
      · exact Or.inr (List.mem_cons_of_mem _ later)

/-- A merged log has operations of its parts only. -/
theorem mem_of_merge {first second merged : OpLog} (merges : merge first second = .ok merged)
    {op : Op} (listed : op ∈ merged.iterOps) : op ∈ first.iterOps ∨ op ∈ second.iterOps := by
  rcases bind_ok_iff.mp merges with ⟨copy, copied, run⟩
  rcases mem_of_addAll run listed with earlier | later
  · rcases mem_of_addAll copied earlier with impossible | old
    · rw [mem_iterOps] at impossible
      simp [empty] at impossible
    · exact Or.inl old
  · exact Or.inr later

/-- Every operation of a part has an equal one in a merged log. -/
theorem merge_mirrors {first second merged : OpLog} (merges : merge first second = .ok merged)
    {op : Op} (listed : op ∈ first.iterOps ∨ op ∈ second.iterOps) :
    ∃ other ∈ merged.iterOps, pyEq other op = true := by
  have binds := (merge_iff first second).2 merged merges
  have bound : merged.Binds op.opId (PyEq.key op) := by
    rw [binds]
    rcases listed with left | right
    · exact Or.inl ⟨op, (mem_iterOps first op).mp left, rfl⟩
    · exact Or.inr ⟨op, (mem_iterOps second op).mp right, rfl⟩
  rw [← bindsAll_iterOps] at bound
  rcases bound with ⟨other, isOther, _, same⟩
  exact ⟨other, isOther, pyEq_iff.mpr same⟩

end OpLog

/-- Entered operations reach a state when their decisions are dated and the claims they
leave active are readable. -/
theorem applyOperations_reaches (collisionFree : CollisionFree) {state : MemoryState}
    (coherent : state.Coherent) {ops : List Op} (some : ops ≠ []) {entered : Working}
    (enters : ops.foldlM (Working.applyOp state.predicateRegistry) (.ofState state) = .ok entered)
    (timed : ∀ decision ∈ Dict.values entered.decisionsById,
      ∃ time, decisionTime decision = .ok time)
    (readable : ∀ (key : ClaimKey), ∀ claim ∈ entered.activeClaimsByKey[key]?.getD [],
      Readable claim) :
    ∃ next delta, applyOperationsIncrementally state ops [] = .ok (next, delta) ∧
      ∀ claim, next.IsActive claim ↔
        ∃ known ∈ entered.activeClaimsByKey[claim.key]?.getD [], pyEq known claim = true := by
  rcases sortDecisions_exists timed with ⟨activeDecisions, sorts⟩
  have leaves := Working.enter_leaves enters
  have passage := passage_of_enter collisionFree coherent leaves activeDecisions
  have distinct : entered.affectedKeys.toList.Nodup :=
    (PySet.toList_sorted _).imp (fun below => ne_of_lt below)
  rcases keys_follow passage entered.tidyActive distinct
    (fun key _ claim listed => readable key claim (mem_tidyActive.mp listed))
    with ⟨update, updates⟩
  rcases @lanes_untouched _ entered.tidyActive.resolutionsById
    entered.tidyActive.resolutionsByRef entered.tidyActive.lifecycleByRef update.conflictsByRef
    (leaves.histories coherent.histories) update.affectedConflictRefs.toList state.lifecycle with
    ⟨lifecycle, folds, _⟩
  refine ⟨_, _, (applyOperationsIncrementally_ok_iff some).mpr ⟨entered, enters,
    activeDecisions, sorts, update, updates, lifecycle, folds, rfl⟩, ?_⟩
  intro claim
  exact exists_congr fun known => and_congr_left' mem_tidyActive

/-- The decisions of a table of dated records. -/
private theorem timed_of_dated {registry : PredicateRegistry} {contents : Contents}
    {decisionsById : Dict String Decision}
    (gathers : Gathers decisionsById (·.decisionId) contents.decision)
    (dated : contents.Dated registry) :
    ∀ decision ∈ Dict.values decisionsById, ∃ time, decisionTime decision = .ok time := by
  intro decision listed
  rcases (Dict.mem_values _ _).mp listed with ⟨decisionId, found⟩
  rw [decisionTime_exists_iff]
  exact dated.decisions decision (gathers.stored _ _ found).1

/-- A step over operations that are dated readably and bind no identifier to unequal
records reaches a state, and its active claims are those that survive. -/
theorem applyOperations_survivors (collisionFree : CollisionFree) {registry : PredicateRegistry}
    {state : MemoryState} {contents : Contents} (coherent : state.Coherent)
    (sameRegistry : state.predicateRegistry = registry)
    (tracks : (Working.ofState state).Tracks registry contents) (ops : List Op)
    (compatible : (ops.foldl Contents.add contents).Compatible)
    (dated : (ops.foldl Contents.add contents).Dated registry)
    (uniform : (ops.foldl Contents.add contents).Uniform registry) :
    ∃ next delta, applyOperationsIncrementally state ops [] = .ok (next, delta) ∧
      ∀ claim, next.IsActive claim ↔ (ops.foldl Contents.add contents).Survives registry claim := by
  subst sameRegistry
  by_cases some : ops = []
  · subst some
    exact ⟨state, .empty, rfl, tracks.isActive_iff uniform⟩
  · rcases Working.enter_tracks tracks compatible with ⟨entered, enters, after⟩
    have readable : ∀ (key : ClaimKey), ∀ claim ∈ entered.activeClaimsByKey[key]?.getD [],
        Readable claim := by
      intro key claim listed
      rcases (after.active key claim).mp listed with ⟨⟨bound, present⟩, _⟩
      have isClaim := (after.records.claims.stored _ _ bound).1
      rw [readable_iff]
      refine dated.claims claim ⟨isClaim, ?_⟩
      intro inactive
      exact present (after.complete _ claim bound
        ((Contents.inactive_iff_retracts uniform isClaim).mp inactive))
    rcases applyOperations_reaches collisionFree coherent some enters
      (timed_of_dated after.records.decisions dated) readable with ⟨next, delta, run, reached⟩
    refine ⟨next, delta, run, ?_⟩
    intro claim
    rw [reached, after.isActive_iff uniform claim]

/-- The records of two logs. -/
def OpLog.contentsWith (first second : OpLog) : Contents :=
  .of (fun op => op ∈ first.iterOps ∨ op ∈ second.iterOps)

/-- Retractions win wherever they were recorded, if the records of one claim id are retracted
together: a claim is active in a merged log exactly when no retraction of either part names
it, what is inactive in a part stays inactive, and a step over the other part's operations
in any order reaches the same active claims. -/
theorem retractions_win (collisionFree : CollisionFree) {registry : PredicateRegistry}
    {first second merged : OpLog} {state : MemoryState}
    (merges : OpLog.merge first second = .ok merged)
    (run : materialize merged registry [] none ∅ = .ok state)
    (uniform : (first.contentsWith second).Uniform registry) :
    (∀ claim, (first.contentsWith second).claim claim →
      (state.IsActive claim ↔ ∀ retraction, (first.contentsWith second).retraction retraction →
        ¬retraction.Names registry claim)) ∧
    ∀ start, materialize first registry [] none ∅ = .ok start →
      (∀ claim, (Contents.of (· ∈ first.iterOps)).claim claim → ¬start.IsActive claim →
        ¬state.IsActive claim) ∧
      ∀ ops, ops.Perm second.iterOps →
        ∃ next delta, applyOperationsIncrementally start ops [] = .ok (next, delta) ∧
          ∀ claim, next.IsActive claim ↔ state.IsActive claim := by
  have within : (Contents.of (· ∈ merged.iterOps)).Within (first.contentsWith second) :=
    Contents.within_of (fun op => OpLog.mem_of_merge merges)
  have mirrors : (first.contentsWith second).EqualWithin (.of (· ∈ merged.iterOps)) :=
    Contents.equalWithin_of (fun op => OpLog.merge_mirrors merges)
  have active : ∀ claim, state.IsActive claim ↔
      (first.contentsWith second).Survives registry claim := by
    intro claim
    rw [mirrors.survives_iff within uniform]
    exact isActive_iff_survives run (mirrors.uniform within uniform) claim
  refine ⟨?_, ?_⟩
  · intro claim isClaim
    rw [active]
    constructor
    · rintro ⟨known, isKnown, equal, kept⟩ retraction isRetraction names
      rw [uniform known claim isKnown isClaim (Contents.EqualWithin.claimId_of_equal equal)] at kept
      exact kept ⟨retraction, isRetraction, names⟩
    · intro unnamed
      refine ⟨claim, isClaim, pyEq_refl claim, ?_⟩
      rintro ⟨retraction, isRetraction, names⟩
      exact unnamed retraction isRetraction names
  · intro start begins
    have part : (Contents.of (· ∈ first.iterOps)).Within (first.contentsWith second) :=
      Contents.within_of (fun op => Or.inl)
    refine ⟨?_, ?_⟩
    · intro claim isClaim gone isActive
      have tracks := Working.ofState_tracks begins
      rcases tracks.records.claims.present claim isClaim with ⟨held, found, equal⟩
      have sameId := Contents.EqualWithin.claimId_of_equal equal
      have sameKey : held.key = claim.key :=
        congrArg (fun fields => fields.1.2.1) (pyEq_iff.mp equal)
      have inactive : claim.claimId ∈ (Working.ofState start).inactiveClaimIds := by
        by_contra present
        refine gone ⟨held, (tracks.active claim.key held).mpr ⟨⟨?_, ?_⟩, sameKey⟩, equal⟩
        · rw [sameId]
          exact found
        · rw [sameId]
          exact present
      have retracts := (Contents.inactive_iff_retracts uniform (part.claim _ isClaim)).mp
        (Contents.inactive_mono part (tracks.sound _ inactive))
      rcases (active claim).mp isActive with ⟨known, isKnown, knownEqual, kept⟩
      exact kept ((uniform known claim isKnown (part.claim _ isClaim)
        (Contents.EqualWithin.claimId_of_equal knownEqual)).mpr retracts)
    · intro ops permuted
      have all : ops.foldl Contents.add (.of (· ∈ first.iterOps)) = first.contentsWith second := by
        rw [Contents.of_addAll]
        unfold OpLog.contentsWith
        simp only [permuted.mem_iff]
      have whole := dated_of_materialize ⟨state, run⟩
      rcases materialize_ok_iff.mp run with ⟨_, _, collects, _⟩
      have compatible := mirrors.compatible (collect_gathers collects).compatible
      rcases materialize_coherent collisionFree begins with ⟨coherent, sameRegistry⟩
      rcases applyOperations_survivors collisionFree coherent sameRegistry
        (Working.ofState_tracks begins) ops (by rw [all]; exact compatible)
        (by rw [all]; exact mirrors.dated within whole) (by rw [all]; exact uniform) with
        ⟨next, delta, stepped, reached⟩
      refine ⟨next, delta, stepped, ?_⟩
      intro claim
      rw [reached, active, all]

/-! ## Retracting a claim by its own reference -/

section OwnRef

variable {log : OpLog} {registry : PredicateRegistry} {state : MemoryState} {claim : Claim}
  {retraction : ClaimRetracted}

/-- The active claims of a log that is materialized in full, whatever references its claims
have. -/
theorem isActive_iff_present {detectors : List ConflictDetector}
    (run : materialize log registry detectors none ∅ = .ok state) (claim : Claim) :
    state.IsActive claim ↔
      (∃ known, (Contents.of (· ∈ log.iterOps)).claim known ∧ pyEq known claim = true) ∧
        ¬(Contents.of (· ∈ log.iterOps)).inactive registry claim.claimId := by
  have grouped := (materialize_active run).1
  rcases materialize_ok_iff.mp run with ⟨_, collected, collects, active, _, decisions, _, conflicts,
    _, indexes, _, lifecycle, _, same⟩
  have gathers := collect_gathers collects
  subst same
  have applies : ∀ known : Claim, claimApplies known none ∅ = .ok true := by
    intro known
    rw [claimApplies, contextExcludes]
    simp
  unfold MemoryState.IsActive
  simp only [grouped.mem_getD]
  constructor
  · rintro ⟨known, ⟨⟨found, present, _⟩, _⟩, equal⟩
    refine ⟨⟨known, (gathers.claims.stored _ _ found).1, equal⟩, ?_⟩
    rw [← Contents.EqualWithin.claimId_of_equal equal, ← gathers.mem_inactive]
    exact present
  · rintro ⟨⟨known, isKnown, equal⟩, present⟩
    rcases gathers.claims.present known isKnown with ⟨held, found, heldEqual⟩
    have both := pyEq_trans heldEqual equal
    have sameId := Contents.EqualWithin.claimId_of_equal both
    refine ⟨held, ⟨⟨?_, ?_, applies held⟩, ?_⟩, both⟩
    · rw [(gathers.claims.stored _ _ found).2]
      exact found
    · rw [sameId]
      exact fun gone => present ((gathers.mem_inactive _).mp gone)
    · exact congrArg (fun fields => fields.1.2.1) (pyEq_iff.mp both)

/-- The registry computes the reference of a claim for some record of its id. -/
def OpLog.FilesUnderOwnRef (log : OpLog) (registry : PredicateRegistry) (claim : Claim) : Prop :=
  ∃ known, (Contents.of (· ∈ log.iterOps)).claim known ∧ known.claimId = claim.claimId ∧
    registry.claimRefForClaim known = claim.claimRef

private theorem contents_insert {op : Op} (fresh : log.ops[op.opId]? = none) :
    Contents.of (· ∈ (log.insert op).iterOps) = (Contents.of (· ∈ log.iterOps)).add op := by
  rw [← Contents.of_add]
  congr 1
  funext other
  exact propext (OpLog.mem_insert fresh other)

/-- A retraction by reference names the ids that are filed under it. -/
private theorem inactive_add_byRef {contents : Contents}
    (byRef : retraction.targetClaimId = none ∧ retraction.targetClaimRef = some claim.claimRef)
    (present : ¬contents.inactive registry claim.claimId) :
    (contents.add (.claimRetracted retraction)).inactive registry claim.claimId ↔
      ∃ known, contents.claim known ∧ known.claimId = claim.claimId ∧
        registry.claimRefForClaim known = claim.claimRef := by
  have target : truthy retraction.targetClaimRef = some claim.claimRef := by
    rw [byRef.2, truthy, Option.filter_some, if_pos (by simpa using claim.claimRefPresent)]
  constructor
  · rintro (⟨record, known | isNew, byId⟩ | ⟨record, known, isRecord, isKnown, named, sameId⟩)
    · exact absurd (Or.inl ⟨record, known, byId⟩) present
    · rw [isNew, byRef.1] at byId
      cases byId
    · rcases isRecord with old | isNew
      · exact absurd (Or.inr ⟨record, known, old, isKnown, named, sameId⟩) present
      · rw [isNew, target, Option.some.injEq] at named
        exact ⟨known, isKnown, sameId, named.symm⟩
  · rintro ⟨known, isKnown, sameId, sameRef⟩
    exact Or.inr ⟨retraction, known, Or.inr rfl, isKnown, by rw [target, sameRef], sameId⟩

/-- Retracting an active claim by its own reference makes it inactive exactly when the
registry computes that reference for a record of its id. -/
theorem retract_by_ref_iff (collisionFree : CollisionFree)
    (run : materialize log registry [] none ∅ = .ok state) (active : state.IsActive claim)
    (fresh : log.ops[retraction.opId]? = none)
    (byRef : retraction.targetClaimId = none ∧ retraction.targetClaimRef = some claim.claimRef) :
    (∃ next, materialize (log.insert (.claimRetracted retraction)) registry [] none ∅ = .ok next ∧
      (¬next.IsActive claim ↔ log.FilesUnderOwnRef registry claim)) ∧
    ∃ next delta, applyOperationsIncrementally state [.claimRetracted retraction] [] =
        .ok (next, delta) ∧
      (¬next.IsActive claim ↔ log.FilesUnderOwnRef registry claim) := by
  rcases (isActive_iff_present run claim).mp active with ⟨⟨known, isKnown, knownEqual⟩, present⟩
  have extended : Contents.of (· ∈ (log.insert (.claimRetracted retraction)).iterOps) = _ :=
    @contents_insert _ log (.claimRetracted retraction) fresh
  have filed := @inactive_add_byRef _ registry claim retraction _ byRef present
  have compatible : (Contents.of (· ∈ log.iterOps)).Compatible := by
    rcases materialize_ok_iff.mp run with ⟨_, _, collects, _⟩
    exact (collect_gathers collects).compatible
  have dated := dated_of_materialize ⟨state, run⟩
  have datedAfter : ((Contents.of (· ∈ log.iterOps)).add (.claimRetracted retraction)).Dated
      registry := by
    refine ⟨dated.decisions, ?_⟩
    rintro other ⟨isOther, notInactive⟩
    refine dated.claims other ⟨isOther, ?_⟩
    intro inactive
    exact notInactive (Contents.inactive_mono (Contents.within_add _ _) inactive)
  refine ⟨?_, ?_⟩
  · rcases (@materialize_ok_iff_dated _ (log.insert (.claimRetracted retraction)) registry
      collisionFree (by rw [extended]; exact { compatible with })).mpr
      (by rw [extended]; exact datedAfter) with ⟨next, reached⟩
    refine ⟨next, reached, ?_⟩
    rw [isActive_iff_present reached claim, extended]
    constructor
    · intro gone
      by_contra unfiled
      exact gone ⟨⟨known, isKnown, knownEqual⟩, fun inactive => unfiled (filed.mp inactive)⟩
    · rintro isFiled ⟨_, notInactive⟩
      exact notInactive (filed.mpr isFiled)
  · have tracks := Working.ofState_tracks run
    rcases materialize_coherent collisionFree run with ⟨coherent, sameRegistry⟩
    have after := @Working.applyRetraction_tracks _ _ _ _ retraction tracks
    have inactive := fun claimId =>
      @Working.mem_applyRetraction_inactive _ (Working.ofState state) retraction claimId
    have readable : ∀ (key : ClaimKey),
        ∀ other ∈ ((Working.ofState state).applyRetraction retraction).activeClaimsByKey[key]?.getD
          [], Readable other := by
      intro key other listed
      rcases (after.active key other).mp listed with ⟨⟨bound, kept⟩, _⟩
      rw [readable_iff]
      refine dated.claims other ⟨(after.records.claims.stored _ _ bound).1, ?_⟩
      intro old
      exact kept ((inactive _).mpr (Or.inl ((Working.ofState_inactive run _).mpr old)))
    have enters : [Op.claimRetracted retraction].foldlM
        (Working.applyOp state.predicateRegistry) (.ofState state) =
          .ok ((Working.ofState state).applyRetraction retraction) := rfl
    rcases applyOperations_reaches collisionFree coherent (List.cons_ne_nil _ _) enters
      (timed_of_dated after.records.decisions datedAfter) readable with
      ⟨next, delta, stepped, reached⟩
    refine ⟨next, delta, stepped, ?_⟩
    rw [reached]
    constructor
    · intro gone
      by_contra unfiled
      rcases after.records.claims.present known isKnown with ⟨held, found, equal⟩
      have both := pyEq_trans equal knownEqual
      have sameId := Contents.EqualWithin.claimId_of_equal both
      refine gone ⟨held, (after.active claim.key held).mpr ⟨⟨?_, ?_⟩,
        congrArg (fun fields => fields.1.2.1) (pyEq_iff.mp both)⟩, both⟩
      · rw [(after.records.claims.stored _ _ found).2]
        exact found
      · rw [sameId]
        exact fun impossible => unfiled (filed.mp (after.sound _ impossible))
    · rintro ⟨record, isRecord, sameId, sameRef⟩ ⟨held, listed, equal⟩
      rcases (after.active claim.key held).mp listed with ⟨⟨_, kept⟩, _⟩
      rw [Contents.EqualWithin.claimId_of_equal equal] at kept
      rcases tracks.records.claims.present record isRecord with ⟨bound, found, _⟩
      rw [sameId] at found
      refine kept ((inactive _).mpr (Or.inr (Or.inr ⟨⟨claim.claimRef, ?_, ?_⟩, bound, found⟩)))
      · rw [byRef.2, truthy, Option.filter_some, if_pos (by simpa using claim.claimRefPresent)]
      · exact (Working.ofState_refs run _ _).mpr ⟨record, isRecord, sameRef, sameId⟩

end OwnRef

end Merging

/-! ## A claim and its retraction -/

section Example

attribute [local instance] Reference.runtime

namespace Reference

def retractionFields (opId : String) (targetClaimId targetClaimRef : Option String) :
    RetractionFields where
  opId := opId
  replicaId := "r"
  timestamp := "t"
  targetClaimId := targetClaimId
  targetClaimRef := targetClaimRef
  evidenceIds := []
  reason := "withdrawn"
  supersedesClaimId := none
  supersedesClaimRef := none
  signingKeyId := none
  signature := none

private theorem byId_checked (opId claimId : String) :
    (retractionFields opId (some claimId) none).check = .ok () := rfl

private theorem byRef_checked (opId claimRef : String) :
    (retractionFields opId none (some claimRef)).check = .ok () := rfl

def retractionById (opId claimId : String) : ClaimRetracted :=
  ⟨retractionFields opId (some claimId) none, byId_checked opId claimId⟩

def retractionByRef (opId claimRef : String) : ClaimRetracted :=
  ⟨retractionFields opId none (some claimRef), byRef_checked opId claimRef⟩

private theorem shared_ne_empty : "shared" ≠ "" := by decide

/-- Claims that differ in the text of a number, under one reference of their own. -/
def numbered (number : PyNumber) : Claim :=
  { fact "a" key (.number number) [] with
    claimRef := "shared"
    claimRefPresent := shared_ne_empty }

end Reference

/-- The claim with the number one. -/
def numbersFirst : OpLog :=
  Reference.logOf [.claimAdded ⟨"op-a", "r", "t"⟩ (Reference.numbered (.int 1))]

/-- An equal claim, and a retraction by the reference that the registry computes for it. -/
def numbersSecond : OpLog :=
  Reference.logOf [.claimAdded ⟨"op-b", "r", "t"⟩ (Reference.numbered (.bool true)),
    .claimRetracted (Reference.retractionByRef "op-c"
      (PredicateRegistry.empty.claimRefForClaim (Reference.numbered (.bool true))))]

/-- A claim with an empty id, and a retraction by that id. -/
def emptyIdLog : OpLog :=
  Reference.logOf [.claimAdded ⟨"op-a", "r", "t"⟩ (Reference.fact "" Reference.key (.str "x") []),
    .claimRetracted (Reference.retractionById "op-c" "")]

private theorem ok_of_toOption {α : Type} {result : Result α} {value : α}
    (isSome : result.toOption = some value) : result = .ok value := by
  cases result with
  | error failure => cases isSome
  | ok found => exact congrArg Except.ok (Option.some.inj isSome)

def isActive (state : MemoryState) (claim : Claim) : Bool :=
  (state.activeClaimsByKey[claim.key]?.getD []).any fun known => pyEq known claim

private theorem isActive_iff (state : MemoryState) (claim : Claim) :
    isActive state claim = true ↔ state.IsActive claim :=
  List.any_eq_true

/-- No retraction names the claim of the first log, but it is not active after the merge; the
step leaves it active.  The other log retracts an empty id, which leaves its claim active. -/
theorem retracted_by_another_text :
    (∃ merged state start next delta,
      OpLog.merge numbersFirst numbersSecond = .ok merged ∧
      materialize merged .empty [] none ∅ = .ok state ∧
      materialize numbersFirst .empty [] none ∅ = .ok start ∧
      applyOperationsIncrementally start numbersSecond.iterOps [] = .ok (next, delta) ∧
      (∀ retraction, (numbersFirst.contentsWith numbersSecond).retraction retraction →
        retraction.targetClaimId ≠ some "a" ∧ retraction.targetClaimRef ≠
          some (PredicateRegistry.empty.claimRefForClaim (Reference.numbered (.int 1)))) ∧
      ¬state.IsActive (Reference.numbered (.int 1)) ∧
      next.IsActive (Reference.numbered (.int 1))) ∧
    ∃ state, materialize emptyIdLog .empty [] none ∅ = .ok state ∧
      (Contents.of (· ∈ emptyIdLog.iterOps)).retraction (Reference.retractionById "op-c" "") ∧
      state.IsActive (Reference.fact "" Reference.key (.str "x") []) := by
  have computed : (do
      let merged ← (OpLog.merge numbersFirst numbersSecond).toOption
      let state ← (materialize merged .empty [] none ∅).toOption
      let start ← (materialize numbersFirst .empty [] none ∅).toOption
      let next ← (applyOperationsIncrementally start numbersSecond.iterOps []).toOption
      return (isActive state (Reference.numbered (.int 1)),
        isActive next.1 (Reference.numbered (.int 1)))) = some (false, true) := by
    decide +kernel
  have emptyComputed : ((materialize emptyIdLog .empty [] none ∅).toOption.map fun state =>
      isActive state (Reference.fact "" Reference.key (.str "x") [])) = some true := by
    decide +kernel
  refine ⟨?_, ?_⟩
  · rcases Option.bind_eq_some_iff.mp computed with ⟨merged, merges, rest⟩
    rcases Option.bind_eq_some_iff.mp rest with ⟨state, run, rest⟩
    rcases Option.bind_eq_some_iff.mp rest with ⟨start, begins, rest⟩
    rcases Option.bind_eq_some_iff.mp rest with ⟨⟨next, delta⟩, stepped, same⟩
    injection same with same
    rcases Prod.mk.inj same with ⟨gone, kept⟩
    refine ⟨merged, state, start, next, delta, ok_of_toOption merges, ok_of_toOption run,
      ok_of_toOption begins, ok_of_toOption stepped, ?_, ?_, (isActive_iff _ _).mp kept⟩
    · intro retraction listed
      have firstOps : numbersFirst.iterOps =
          [.claimAdded ⟨"op-a", "r", "t"⟩ (Reference.numbered (.int 1))] := by
        decide +kernel
      have secondOps : numbersSecond.iterOps =
          [.claimAdded ⟨"op-b", "r", "t"⟩ (Reference.numbered (.bool true)),
            .claimRetracted (Reference.retractionByRef "op-c"
              (PredicateRegistry.empty.claimRefForClaim (Reference.numbered (.bool true))))] := by
        decide +kernel
      rcases listed with inFirst | inSecond
      · rw [firstOps, List.mem_singleton] at inFirst
        cases inFirst
      · rw [secondOps, List.mem_cons, List.mem_singleton] at inSecond
        rcases inSecond with impossible | isRetraction
        · cases impossible
        · injection isRetraction with isRetraction
          rw [isRetraction]
          exact ⟨by simp [Reference.retractionByRef, Reference.retractionFields],
            by decide +kernel⟩
    · rw [← isActive_iff, gone]
      exact Bool.false_ne_true
  · rcases Option.map_eq_some_iff.mp emptyComputed with ⟨state, run, active⟩
    refine ⟨state, ok_of_toOption run, ?_, (isActive_iff _ _).mp active⟩
    have emptyOps : (Op.claimRetracted (Reference.retractionById "op-c" "")) ∈
        emptyIdLog.iterOps := by
      decide +kernel
    exact emptyOps

/-- A retraction by id. -/
def retractingLog : OpLog :=
  Reference.logOf [.claimRetracted (Reference.retractionById "op-c" "a")]

/-- The claim is active before the merge, and neither after it nor after the step. -/
theorem retractions_win_elsewhere :
    ∃ merged state start next delta,
      OpLog.merge numbersFirst retractingLog = .ok merged ∧
      materialize merged .empty [] none ∅ = .ok state ∧
      materialize numbersFirst .empty [] none ∅ = .ok start ∧
      start.IsActive (Reference.numbered (.int 1)) ∧
      applyOperationsIncrementally start retractingLog.iterOps [] = .ok (next, delta) ∧
      ¬state.IsActive (Reference.numbered (.int 1)) ∧
      ¬next.IsActive (Reference.numbered (.int 1)) := by
  have computed : (do
      let merged ← (OpLog.merge numbersFirst retractingLog).toOption
      let _ ← (materialize merged .empty [] none ∅).toOption
      let start ← (materialize numbersFirst .empty [] none ∅).toOption
      return isActive start (Reference.numbered (.int 1))) = some true := by
    decide +kernel
  rcases Option.bind_eq_some_iff.mp computed with ⟨merged, merges, rest⟩
  rcases Option.bind_eq_some_iff.mp rest with ⟨state, run, rest⟩
  rcases Option.bind_eq_some_iff.mp rest with ⟨start, begins, same⟩
  injection same with active
  have merges := ok_of_toOption merges
  have run := ok_of_toOption run
  have begins := ok_of_toOption begins
  have firstOps : numbersFirst.iterOps =
      [.claimAdded ⟨"op-a", "r", "t"⟩ (Reference.numbered (.int 1))] := by
    decide +kernel
  have secondOps : retractingLog.iterOps =
      [.claimRetracted (Reference.retractionById "op-c" "a")] := by
    decide +kernel
  have only : ∀ claim, (numbersFirst.contentsWith retractingLog).claim claim →
      claim = Reference.numbered (.int 1) := by
    rintro claim ⟨header, inFirst | inSecond⟩
    · rw [firstOps, List.mem_singleton] at inFirst
      injection inFirst
    · rw [secondOps, List.mem_singleton] at inSecond
      cases inSecond
  have uniform : (numbersFirst.contentsWith retractingLog).Uniform .empty := by
    intro first second isFirst isSecond _
    rw [only first isFirst, only second isSecond]
  have isClaim : (numbersFirst.contentsWith retractingLog).claim (Reference.numbered (.int 1)) := by
    refine ⟨⟨"op-a", "r", "t"⟩, Or.inl ?_⟩
    rw [firstOps]
    exact List.mem_singleton_self _
  have isRetraction : (numbersFirst.contentsWith retractingLog).retraction
      (Reference.retractionById "op-c" "a") := by
    refine Or.inr ?_
    rw [secondOps]
    exact List.mem_singleton_self _
  rcases retractions_win Reference.collisionFree merges run uniform with ⟨exact, later⟩
  have gone : ¬state.IsActive (Reference.numbered (.int 1)) := by
    rw [exact _ isClaim]
    intro unnamed
    exact unnamed _ isRetraction (Or.inl ⟨by decide, rfl⟩)
  rcases (later start begins).2 retractingLog.iterOps (List.Perm.refl _) with
    ⟨next, delta, stepped, sameActive⟩
  exact ⟨merged, state, start, next, delta, merges, run, begins, (isActive_iff _ _).mp active,
    stepped, gone, fun impossible => gone ((sameActive _).mp impossible)⟩

/-- A claim whose reference the caller has supplied stays active when it is retracted by that
reference. -/
theorem retracted_by_supplied_ref :
    ∃ state next,
      materialize numbersFirst .empty [] none ∅ = .ok state ∧
      state.IsActive (Reference.numbered (.int 1)) ∧
      materialize (numbersFirst.insert (.claimRetracted (Reference.retractionByRef "op-c"
        (Reference.numbered (.int 1)).claimRef))) .empty [] none ∅ = .ok next ∧
      next.IsActive (Reference.numbered (.int 1)) := by
  have computed : (do
      let state ← (materialize numbersFirst .empty [] none ∅).toOption
      let next ← (materialize (numbersFirst.insert (.claimRetracted (Reference.retractionByRef
        "op-c" (Reference.numbered (.int 1)).claimRef))) .empty [] none ∅).toOption
      return (isActive state (Reference.numbered (.int 1)),
        isActive next (Reference.numbered (.int 1)))) = some (true, true) := by
    decide +kernel
  rcases Option.bind_eq_some_iff.mp computed with ⟨state, run, rest⟩
  rcases Option.bind_eq_some_iff.mp rest with ⟨next, reached, same⟩
  injection same with same
  rcases Prod.mk.inj same with ⟨before, after⟩
  exact ⟨state, next, ok_of_toOption run, (isActive_iff _ _).mp before, ok_of_toOption reached,
    (isActive_iff _ _).mp after⟩

/-- The log of a claim with the reference that its constructor derives. -/
def derivedRefLog : OpLog :=
  Reference.logOf [.claimAdded ⟨"op-a", "r", "t"⟩ (Reference.fact "a" Reference.key (.str "x") [])]

/-- That claim is inactive once it is retracted by its reference. -/
theorem retract_by_ref_iff_derived :
    ∃ state next after delta,
      materialize derivedRefLog .empty [] none ∅ = .ok state ∧
      state.IsActive (Reference.fact "a" Reference.key (.str "x") []) ∧
      materialize (derivedRefLog.insert (.claimRetracted (Reference.retractionByRef "op-c"
        (Reference.fact "a" Reference.key (.str "x") []).claimRef))) .empty [] none ∅ =
          .ok next ∧
      ¬next.IsActive (Reference.fact "a" Reference.key (.str "x") []) ∧
      applyOperationsIncrementally state [.claimRetracted (Reference.retractionByRef "op-c"
        (Reference.fact "a" Reference.key (.str "x") []).claimRef)] [] = .ok (after, delta) ∧
      ¬after.IsActive (Reference.fact "a" Reference.key (.str "x") []) := by
  have computed : ((materialize derivedRefLog .empty [] none ∅).toOption.map fun state =>
      isActive state (Reference.fact "a" Reference.key (.str "x") [])) = some true := by
    decide +kernel
  rcases Option.map_eq_some_iff.mp computed with ⟨state, run, active⟩
  have run := ok_of_toOption run
  have active := (isActive_iff _ _).mp active
  have listed : Op.claimAdded ⟨"op-a", "r", "t"⟩
      (Reference.fact "a" Reference.key (.str "x") []) ∈ derivedRefLog.iterOps := by
    decide +kernel
  have filed : derivedRefLog.FilesUnderOwnRef .empty
      (Reference.fact "a" Reference.key (.str "x") []) :=
    ⟨_, ⟨_, listed⟩, rfl, by decide +kernel⟩
  have fresh : derivedRefLog.ops[(Reference.retractionByRef "op-c"
      (Reference.fact "a" Reference.key (.str "x") []).claimRef).opId]? = none := by
    decide +kernel
  rcases retract_by_ref_iff Reference.collisionFree run active fresh ⟨rfl, rfl⟩ with
    ⟨⟨next, reached, full⟩, after, delta, stepped, incremental⟩
  exact ⟨state, next, after, delta, run, active, reached, full.mpr filed, stepped,
    incremental.mpr filed⟩

end Example

end Statefuse
