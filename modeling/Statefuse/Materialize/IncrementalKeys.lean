import Statefuse.Materialize.IncrementalEntry

/-!
# The second loop of an incremental step

A key whose claims are untouched keeps its finding (`finding_untouched`).  The loop
replaces the finding and the index of every other key: after some keys are done, the
tables hold the new findings of these keys and the old findings of the rest
(`KeyUpdate.Holds`).
-/

namespace Statefuse

open Foundation

/-- Looking up a record that was there before. -/
private theorem lookup_eq {α : Type} {old new : Dict String α} {key : α → String}
    {member fresh : α → Prop} (oldLists : Lists old key member) (newLists : Lists new key fresh)
    (within : ∀ record, member record → fresh record) (wanted : String)
    (known : ∀ record, fresh record → key record = wanted → member record) :
    new[wanted]? = old[wanted]? := by
  apply Option.ext
  intro record
  rw [newLists wanted record, oldLists wanted record]
  constructor
  · rintro ⟨listed, same⟩
    exact ⟨known record listed same, same⟩
  · rintro ⟨listed, same⟩
    exact ⟨within record listed, same⟩

variable [Runtime]

section Congruence

variable {first second : ConflictDetectionContext}

private theorem sourceTypesOf_congr {claims : List Claim}
    (same : ∀ claim ∈ claims, ∀ evidenceId ∈ claim.evidenceIds,
      (first.evidenceById[evidenceId]?.bind fun evidence => evidence.sourceId.bind fun sourceId =>
        first.sourcesById[sourceId]?) =
      (second.evidenceById[evidenceId]?.bind fun evidence => evidence.sourceId.bind fun sourceId =>
        second.sourcesById[sourceId]?)) :
    sourceTypesOf claims first = sourceTypesOf claims second := by
  unfold sourceTypesOf
  congr 1
  apply List.flatMap_congr
  intro claim listed
  apply List.filterMap_congr
  intro evidenceId cited
  have agrees := congrArg (Option.map Source.sourceType) (same claim listed evidenceId cited)
  simp only [Option.map_eq_bind, Option.bind_assoc] at agrees
  exact agrees

private theorem isMultiHop_congr {claims : List Claim}
    (same : ∀ claim ∈ claims,
      claim.derivationId.bind (fun derivationId => first.derivationsById[derivationId]?) =
      claim.derivationId.bind (fun derivationId => second.derivationsById[derivationId]?)) :
    isMultiHop claims first = isMultiHop claims second := by
  unfold isMultiHop
  rw [Bool.eq_iff_iff, List.any_eq_true, List.any_eq_true]
  constructor
  · rintro ⟨claim, listed, multi⟩
    rw [same claim listed] at multi
    exact ⟨claim, listed, multi⟩
  · rintro ⟨claim, listed, multi⟩
    rw [← same claim listed] at multi
    exact ⟨claim, listed, multi⟩

/-- A finding looks at its own claims only, and at what they cite. -/
theorem findingOf_congr {key : ClaimKey} {claims : List Claim}
    (sameRegistry : first.predicateRegistry = second.predicateRegistry)
    (sources : ∀ claim ∈ claims, ∀ evidenceId ∈ claim.evidenceIds,
      (first.evidenceById[evidenceId]?.bind fun evidence => evidence.sourceId.bind fun sourceId =>
        first.sourcesById[sourceId]?) =
      (second.evidenceById[evidenceId]?.bind fun evidence => evidence.sourceId.bind fun sourceId =>
        second.sourcesById[sourceId]?))
    (derivations : ∀ claim ∈ claims,
      claim.derivationId.bind (fun derivationId => first.derivationsById[derivationId]?) =
      claim.derivationId.bind (fun derivationId => second.derivationsById[derivationId]?)) :
    findingOf first key claims = findingOf second key claims := by
  have among : ∀ claim ∈ participants (clashingPairs second.predicateRegistry key claims) claims,
      claim ∈ claims := fun claim member => (List.mem_filter.mp member).1
  have annotations : annotationsFor
      (participants (clashingPairs second.predicateRegistry key claims) claims) first =
      annotationsFor (participants (clashingPairs second.predicateRegistry key claims) claims)
        second := by
    unfold annotationsFor
    rw [sourceTypesOf_congr (fun claim member => sources claim (among claim member)),
      isMultiHop_congr (fun claim member => derivations claim (among claim member))]
  unfold findingOf directFinding
  simp only [sameRegistry, annotations]

end Congruence

/-! ## One step from a state to new contents -/

/-- A state, the contents that the step adds to, and what the detectors see then. -/
structure Transition (registry : PredicateRegistry) (before contents : Contents)
    (state : MemoryState) (context : ConflictDetectionContext) : Prop where
  collisionFree : CollisionFree
  represents : Represents registry before state
  good : before.Good registry
  within : before.Within contents
  sameRegistry : context.predicateRegistry = registry
  distinct : Distinct (·.claimId) contents.claim
  grouped : context.Groups (contents.active registry)
  evidence : Lists context.evidenceById (·.evidenceId) contents.evidence
  sources : Lists context.sourcesById (·.sourceId) contents.source
  derivations : Lists context.derivationsById (·.derivationId) contents.derivation

namespace Transition

variable {registry : PredicateRegistry} {before contents : Contents} {state : MemoryState}
variable {context : ConflictDetectionContext}

theorem grouped_before (step : Transition registry before contents state context) :
    state.context.Groups (before.active registry) :=
  step.represents.active

theorem finding_before (step : Transition registry before contents state context) (key : ClaimKey) :
    ∃ report, state.finding key = .ok report :=
  finding_exists step.grouped_before key (fun claim isActive _ => step.good.readable claim isActive)

/-- A key whose claims are untouched keeps its finding. -/
theorem finding_untouched (step : Transition registry before contents state context)
    {key : ClaimKey} (untouched : ∀ claim, contents.claim claim → claim.key = key →
      Untouched registry before contents claim) :
    context.finding key = state.finding key := by
  have members : ∀ claim, contents.active registry claim ∧ claim.key = key ↔
      before.active registry claim ∧ claim.key = key := by
    intro claim
    constructor
    · rintro ⟨isActive, same⟩
      exact ⟨(untouched claim isActive.1 same).active.mpr isActive, same⟩
    · rintro ⟨isActive, same⟩
      exact ⟨(untouched claim (step.within.claim claim isActive.1) same).active.mp isActive, same⟩
  have claims : context.activeClaimsByKey[key]?.getD [] =
      state.context.activeClaimsByKey[key]?.getD [] := by
    apply eq_of_strictly_sorted (active_sorted step.grouped key)
      (active_sorted step.grouped_before key)
    intro claim
    rw [mem_active step.grouped, mem_active step.grouped_before, members]
  rw [ConflictDetectionContext.finding, MemoryState.finding, ConflictDetectionContext.finding,
    claims]
  have cited : ∀ claim ∈ state.context.activeClaimsByKey[key]?.getD [],
      Untouched registry before contents claim := by
    intro claim member
    obtain ⟨isActive, same⟩ := (mem_active step.grouped_before key claim).mp member
    exact untouched claim (step.within.claim claim isActive.1) same
  apply findingOf_congr (step.sameRegistry.trans step.represents.sameRegistry.symm)
  · intro claim member evidenceId isCited
    have facts := cited claim member
    have sameEvidence : context.evidenceById[evidenceId]? = state.evidenceById[evidenceId]? := by
      apply lookup_eq step.represents.evidence step.evidence step.within.evidence
      intro evidence isEvidence same
      rw [← same] at isCited
      exact facts.evidence evidence isEvidence isCited
    change _ = (state.evidenceById[evidenceId]?.bind fun evidence =>
      evidence.sourceId.bind fun sourceId => state.sourcesById[sourceId]?)
    rw [sameEvidence]
    cases found : state.evidenceById[evidenceId]? with
    | none => rfl
    | some evidence =>
        obtain ⟨known, same⟩ := (step.represents.evidence evidenceId evidence).mp found
        cases origin : evidence.sourceId with
        | none => simp [origin]
        | some sourceId =>
            simp only [Option.bind_some, origin]
            apply lookup_eq step.represents.sources step.sources step.within.source
            intro source isSource sameSource
            rw [← same] at isCited
            refine facts.source evidence source (step.within.evidence evidence known) isCited
              isSource ?_
            rw [origin, sameSource]
  · intro claim member
    have facts := cited claim member
    cases origin : claim.derivationId with
    | none => rfl
    | some derivationId =>
        apply lookup_eq step.represents.derivations step.derivations step.within.derivation
        intro derivation isDerivation same
        refine facts.derivation derivation isDerivation ?_
        rw [origin, same]

theorem finding_after (step : Transition registry before contents state context) {key : ClaimKey}
    (readable : ∀ claim, contents.active registry claim → claim.key = key → Readable claim) :
    ∃ report, context.finding key = .ok report :=
  finding_exists step.grouped key readable

end Transition

/-! ## One round -/

/-- Replacing the report of one key in a table of all reports. -/
theorem lists_replace {table : Dict String ConflictSet} {identify : ConflictSet → String}
    {reported fresh : ClaimKey → ConflictSet → Prop} {key : ClaimKey} {old new : Option ConflictSet}
    (lists : Lists table identify (fun conflict => ∃ key, reported key conflict))
    (oldReport : ∀ conflict, reported key conflict ↔ old = some conflict)
    (newReport : ∀ conflict, fresh key conflict ↔ new = some conflict)
    (others : ∀ other conflict, other ≠ key → (fresh other conflict ↔ reported other conflict))
    (oldApart : ∀ other conflict, reported other conflict → ∀ previous, old = some previous →
      identify conflict = identify previous → other = key)
    (newApart : ∀ other conflict, reported other conflict → ∀ current, new = some current →
      identify conflict = identify current → other = key) :
    Lists (new.toList.foldl
        (fun conflicts conflict => conflicts.insert (identify conflict) conflict)
      (old.toList.foldl (fun conflicts conflict => conflicts.erase (identify conflict)) table))
      identify (fun conflict => ∃ key, fresh key conflict) := by
  have erased : Lists
      (old.toList.foldl (fun conflicts conflict => conflicts.erase (identify conflict)) table)
      identify (fun conflict => ∃ other, other ≠ key ∧ reported other conflict) := by
    cases old with
    | none =>
        refine lists.congr ?_
        intro conflict
        constructor
        · rintro ⟨other, holds⟩
          refine ⟨other, ?_, holds⟩
          rintro rfl
          have impossible := (oldReport conflict).mp holds
          cases impossible
        · rintro ⟨other, _, holds⟩
          exact ⟨other, holds⟩
    | some previous =>
        refine (lists.erase (identify previous)).congr ?_
        intro conflict
        constructor
        · rintro ⟨⟨other, holds⟩, different⟩
          refine ⟨other, ?_, holds⟩
          rintro rfl
          have same := (oldReport conflict).mp holds
          injection same with same
          rw [same] at different
          exact different rfl
        · rintro ⟨other, different, holds⟩
          exact ⟨⟨other, holds⟩,
            fun same => different (oldApart other conflict holds previous rfl same)⟩
  cases new with
  | none =>
      refine erased.congr ?_
      intro conflict
      constructor
      · rintro ⟨other, different, holds⟩
        exact ⟨other, (others other conflict different).mpr holds⟩
      · rintro ⟨other, holds⟩
        by_cases same : other = key
        · rw [same, newReport] at holds
          cases holds
        · exact ⟨other, same, (others other conflict same).mp holds⟩
  | some current =>
      refine (erased.insert current ?_).congr ?_
      · rintro conflict ⟨other, different, holds⟩ same
        exact absurd (newApart other conflict holds current rfl same) different
      · intro conflict
        constructor
        · rintro (⟨other, different, holds⟩ | same)
          · exact ⟨other, (others other conflict different).mpr holds⟩
          · exact ⟨key, (newReport conflict).mpr (by rw [same])⟩
        · rintro ⟨other, holds⟩
          by_cases same : other = key
          · rw [same, newReport] at holds
            injection holds with holds
            exact Or.inr holds.symm
          · exact Or.inl ⟨other, same, (others other conflict same).mp holds⟩

/-- The finding of a key while some keys are done. -/
def Mixed (state : MemoryState) (context : ConflictDetectionContext) (done : List ClaimKey)
    (key : ClaimKey) (conflict : ConflictSet) : Prop :=
  (key ∈ done ∧ context.finding key = .ok (some conflict)) ∨
    (key ∉ done ∧ state.finding key = .ok (some conflict))

/-- The active claims of a key while some keys are done. -/
def ActiveAmid (registry : PredicateRegistry) (before contents : Contents) (done : List ClaimKey)
    (key : ClaimKey) (claim : Claim) : Prop :=
  ((key ∈ done ∧ contents.active registry claim) ∨
    (key ∉ done ∧ before.active registry claim)) ∧ claim.key = key

/-- A finding that the loop has looked at, before or after the step. -/
def Reported (state : MemoryState) (context : ConflictDetectionContext) (done : List ClaimKey)
    (conflict : ConflictSet) : Prop :=
  ∃ key ∈ done, state.finding key = .ok (some conflict) ∨
    context.finding key = .ok (some conflict)

/-- After some keys are done: the new findings of these keys, the old ones of the rest. -/
structure KeyUpdate.Holds (update start : KeyUpdate) (registry : PredicateRegistry)
    (before contents : Contents) (state : MemoryState) (context : ConflictDetectionContext)
    (done : List ClaimKey) : Prop where
  byKey : Maps update.conflictsByKey (fun key conflicts => ∃ conflict,
    Mixed state context done key conflict ∧ conflicts = [conflict])
  byId : Lists update.conflictsById (·.conflictId)
    (fun conflict => ∃ key, Mixed state context done key conflict)
  byRef : Lists update.conflictsByRef (·.conflictRef)
    (fun conflict => ∃ key, Mixed state context done key conflict)
  indexed : ∀ key : ClaimKey, key ∈ update.indexes ↔
    ∃ claim, ActiveAmid registry before contents done key claim
  indexes : ∀ (key : ClaimKey) (index : DirectConflictIndex), update.indexes[key]? = some index →
    IndexFor registry key (ActiveAmid registry before contents done key) index
  previousIds : ∀ conflictId, conflictId ∈ update.previousConflictIds ↔
    ∃ key ∈ done, ∃ conflict, state.finding key = .ok (some conflict) ∧
      conflict.conflictId = conflictId
  currentIds : ∀ conflictId, conflictId ∈ update.currentConflictIds ↔
    ∃ key ∈ done, ∃ conflict, context.finding key = .ok (some conflict) ∧
      conflict.conflictId = conflictId
  claimIds : ∀ claimId, claimId ∈ update.affectedClaimIds ↔ claimId ∈ start.affectedClaimIds ∨
    ∃ conflict, Reported state context done conflict ∧
      claimId ∈ conflict.candidates.map Claim.claimId
  refs : ∀ conflictRef, conflictRef ∈ update.affectedConflictRefs ↔
    conflictRef ∈ start.affectedConflictRefs ∨
    ∃ conflict, Reported state context done conflict ∧ conflict.conflictRef = conflictRef

section Round

variable {registry : PredicateRegistry} {before contents : Contents} {state : MemoryState}
variable {context : ConflictDetectionContext} {done : List ClaimKey} {key : ClaimKey}

theorem mixed_append_of_ne {other : ClaimKey} (different : other ≠ key) (conflict : ConflictSet) :
    Mixed state context (done ++ [key]) other conflict ↔
      Mixed state context done other conflict := by
  simp [Mixed, different]

theorem activeAmid_append_of_ne {other : ClaimKey} (different : other ≠ key) (claim : Claim) :
    ActiveAmid registry before contents (done ++ [key]) other claim ↔
      ActiveAmid registry before contents done other claim := by
  simp [ActiveAmid, different]

theorem mixed_append_self (conflict : ConflictSet) :
    Mixed state context (done ++ [key]) key conflict ↔
      context.finding key = .ok (some conflict) := by
  simp [Mixed]

theorem activeAmid_append_self (claim : Claim) :
    ActiveAmid registry before contents (done ++ [key]) key claim ↔
      contents.active registry claim ∧ claim.key = key := by
  simp [ActiveAmid]

theorem mixed_of_not_mem (fresh : key ∉ done) (conflict : ConflictSet) :
    Mixed state context done key conflict ↔ state.finding key = .ok (some conflict) := by
  simp [Mixed, fresh]

theorem activeAmid_of_not_mem (fresh : key ∉ done) (claim : Claim) :
    ActiveAmid registry before contents done key claim ↔
      before.active registry claim ∧ claim.key = key := by
  simp [ActiveAmid, fresh]

/-- A mixed finding is a finding of its key, in one of the two contexts. -/
theorem isFinding_of_mixed (step : Transition registry before contents state context)
    {conflict : ConflictSet} (mixed : Mixed state context done key conflict) :
    ∃ candidates witnesses, IsFinding key candidates witnesses conflict := by
  rcases mixed with ⟨_, found⟩ | ⟨_, found⟩
  · obtain ⟨candidates, witnesses, _, isFinding⟩ := finding_spec step.grouped found
    exact ⟨candidates, witnesses, isFinding⟩
  · obtain ⟨candidates, witnesses, _, isFinding⟩ := finding_spec step.grouped_before found
    exact ⟨candidates, witnesses, isFinding⟩

private theorem key_of_ref (step : Transition registry before contents state context)
    {other : ClaimKey} {first second : ConflictSet} {firstCandidates secondCandidates : List Claim}
    {firstWitnesses secondWitnesses : List JSONObject}
    (isFinding : IsFinding key firstCandidates firstWitnesses first)
    (otherIsFinding : IsFinding other secondCandidates secondWitnesses second)
    (same : first.conflictRef = second.conflictRef) : key = other := by
  rw [isFinding.conflictRef, otherIsFinding.conflictRef] at same
  exact directRef_injective step.collisionFree same

private theorem key_of_id (step : Transition registry before contents state context)
    {other : ClaimKey} {first second : ConflictSet} {firstCandidates secondCandidates : List Claim}
    {firstWitnesses secondWitnesses : List JSONObject}
    (isFinding : IsFinding key firstCandidates firstWitnesses first)
    (otherIsFinding : IsFinding other secondCandidates secondWitnesses second)
    (same : first.conflictId = second.conflictId) : key = other := by
  rw [isFinding.conflictId, otherIsFinding.conflictId] at same
  exact directId_injective step.collisionFree same

variable {update start : KeyUpdate}

private theorem previous_eq (step : Transition registry before contents state context)
    (holds : update.Holds start registry before contents state context done) (fresh : key ∉ done)
    {old : Option ConflictSet} (oldFound : state.finding key = .ok old) :
    (update.conflictsByKey[key]?.getD []).filter (isDirectFor key) = old.toList := by
  cases old with
  | none =>
      have absent : update.conflictsByKey[key]? = none := by
        rw [holds.byKey.get_none]
        rintro conflicts ⟨conflict, mixed, _⟩
        rw [mixed_of_not_mem fresh, oldFound] at mixed
        cases mixed
      rw [absent]
      rfl
  | some conflict =>
      have present : update.conflictsByKey[key]? = some [conflict] :=
        (holds.byKey key _).mpr ⟨conflict, (mixed_of_not_mem fresh conflict).mpr oldFound, rfl⟩
      obtain ⟨_, keys, _, detector⟩ := finding_direct step.grouped_before oldFound
      have direct : isDirectFor key conflict = true := by simp [isDirectFor, keys, detector]
      rw [present, Option.getD_some, List.filter_singleton, direct]
      rfl

private theorem previousIndex_ok (step : Transition registry before contents state context)
    (holds : update.Holds start registry before contents state context done) (fresh : key ∉ done)
    {old : Option ConflictSet} (oldFound : state.finding key = .ok old) :
    ∃ index, previousIndex state.activeClaimsByKey context.predicateRegistry update.indexes key
        old.toList = .ok index ∧
      IndexFor registry key (fun claim => before.active registry claim ∧ claim.key = key)
        index := by
  unfold previousIndex
  cases located : update.indexes[key]? with
  | some index =>
      exact ⟨index, rfl, (holds.indexes key index located).congr
        (fun claim => activeAmid_of_not_mem fresh claim)⟩
  | none =>
      -- A key without an index has no claims, so there is nothing to index.
      have idle : ∀ claim, ¬(before.active registry claim ∧ claim.key = key) := by
        intro claim isActive
        have present := (holds.indexed key).mpr
          ⟨claim, (activeAmid_of_not_mem fresh claim).mpr isActive⟩
        rw [Dict.mem_iff, located] at present
        obtain ⟨_, impossible⟩ := present
        cases impossible
      have claims : state.activeClaimsByKey[key]?.getD [] = [] := by
        rw [List.eq_nil_iff_forall_not_mem]
        intro claim member
        exact idle claim ((mem_active step.grouped_before key claim).mp member)
      have silent : old = none := by
        have absent : key ∉ state.context.activeClaimsByKey := by
          intro present
          obtain ⟨claim, isActive⟩ := (step.grouped_before.isSome_iff key).mp present
          exact idle claim isActive
        rw [MemoryState.finding, finding_absent absent] at oldFound
        injection oldFound with oldFound
        exact oldFound.symm
      obtain ⟨index, built, indexed⟩ := @buildDirectConflictIndex_ok _ context key [] none
        List.Pairwise.nil (by simp) (by simp) (by simp [findingOf, clashingPairs, combinations])
      rw [step.sameRegistry] at indexed
      refine ⟨index, ?_, indexed.congr ?_⟩
      · rw [claims, silent]
        exact built
      · intro claim
        simp only [List.not_mem_nil, false_iff]
        exact idle claim

theorem index_isEmpty_iff {index : DirectConflictIndex} {member : Claim → Prop}
    (indexed : IndexFor registry key member index) :
    index.claimsById.isEmpty = true ↔ ∀ claim, ¬member claim := by
  rw [Std.ExtTreeMap.isEmpty_iff]
  constructor
  · intro empty claim isMember
    have found := indexed.claims.get_key isMember
    rw [empty] at found
    simp at found
  · intro idle
    apply Dict.ext
    intro claimId
    rw [Dict.get_empty, indexed.claims.get_none]
    exact fun claim isMember => absurd isMember (idle claim)

private theorem reported_append {old new : Option ConflictSet}
    (oldFound : state.finding key = .ok old) (newFound : context.finding key = .ok new)
    (conflict : ConflictSet) :
    Reported state context (done ++ [key]) conflict ↔ Reported state context done conflict ∨
      conflict ∈ old.toList ∨ conflict ∈ new.toList := by
  have oldIff : state.finding key = .ok (some conflict) ↔ conflict ∈ old.toList := by
    rw [oldFound, Option.mem_toList, Except.ok.injEq]
  have newIff : context.finding key = .ok (some conflict) ↔ conflict ∈ new.toList := by
    rw [newFound, Option.mem_toList, Except.ok.injEq]
  unfold Reported
  simp only [List.mem_append, List.mem_singleton, or_and_right, exists_or, exists_eq_left]
  rw [oldIff, newIff]

private theorem found_append {α : Type} {found : ClaimKey → ConflictSet → Prop}
    {report : Option ConflictSet}
    (reportIs : ∀ conflict, found key conflict ↔ report = some conflict)
    (identify : ConflictSet → α) (wanted : α) :
    (∃ other ∈ done ++ [key], ∃ conflict, found other conflict ∧ identify conflict = wanted) ↔
      (∃ other ∈ done, ∃ conflict, found other conflict ∧ identify conflict = wanted) ∨
        wanted ∈ report.toList.map identify := by
  simp only [List.mem_append, List.mem_singleton, or_and_right, exists_or, exists_eq_left,
    reportIs, List.mem_map, Option.mem_toList]

/-- Replacing the report and the index of a key makes it one of those that are done. -/
theorem replace_holds (step : Transition registry before contents state context)
    (holds : update.Holds start registry before contents state context done) (fresh : key ∉ done)
    {old new : Option ConflictSet} (oldFound : state.finding key = .ok old)
    (newFound : context.finding key = .ok new) {index : DirectConflictIndex}
    (indexed : IndexFor registry key (fun claim => contents.active registry claim ∧ claim.key = key)
      index) (comparisons : Nat) :
    (update.replace key old.toList new.toList index comparisons).Holds start registry before
      contents state context (done ++ [key]) := by
  have oldReport : ∀ conflict, Mixed state context done key conflict ↔ old = some conflict := by
    intro conflict
    rw [mixed_of_not_mem fresh, oldFound, Except.ok.injEq]
  have newReport : ∀ conflict, Mixed state context (done ++ [key]) key conflict ↔
      new = some conflict := by
    intro conflict
    rw [mixed_append_self, newFound, Except.ok.injEq]
  have oldFinding : ∀ previous, old = some previous →
      ∃ candidates witnesses, IsFinding key candidates witnesses previous :=
    fun previous same => isFinding_of_mixed step ((oldReport previous).mpr same)
  have newFinding : ∀ current, new = some current →
      ∃ candidates witnesses, IsFinding key candidates witnesses current :=
    fun current same => isFinding_of_mixed step ((newReport current).mpr same)
  have empty := index_isEmpty_iff indexed
  refine ⟨?_, ?_, ?_, ?_, ?_, ?_, ?_, ?_, ?_⟩
  · intro wanted conflicts
    by_cases same : key = wanted
    · subst same
      cases new with
      | none =>
          simp only [KeyUpdate.replace, Option.toList_none, if_true, Dict.get_erase, newReport]
          simp
      | some current =>
          have nonempty : (some current).toList ≠ [] := List.cons_ne_nil current []
          unfold KeyUpdate.replace
          dsimp only
          rw [if_neg nonempty, Dict.get_insert_self]
          simp only [newReport, Option.some.injEq, exists_eq_left', Option.toList_some]
          exact eq_comm
    · have unchanged : (update.replace key old.toList new.toList index
          comparisons).conflictsByKey[wanted]? = update.conflictsByKey[wanted]? := by
        unfold KeyUpdate.replace
        dsimp only
        split
        · rw [Dict.get_erase, if_neg same]
        · rw [Dict.get_insert, if_neg same]
      rw [unchanged, holds.byKey wanted conflicts]
      exact exists_congr fun conflict =>
        and_congr_left' (mixed_append_of_ne (Ne.symm same) conflict).symm
  · apply lists_replace holds.byId oldReport newReport
      (fun other conflict different => mixed_append_of_ne different conflict)
    · intro other conflict mixed previous isOld same
      obtain ⟨_, _, first⟩ := isFinding_of_mixed step mixed
      obtain ⟨_, _, second⟩ := oldFinding previous isOld
      exact key_of_id step first second same
    · intro other conflict mixed current isNew same
      obtain ⟨_, _, first⟩ := isFinding_of_mixed step mixed
      obtain ⟨_, _, second⟩ := newFinding current isNew
      exact key_of_id step first second same
  · apply lists_replace holds.byRef oldReport newReport
      (fun other conflict different => mixed_append_of_ne different conflict)
    · intro other conflict mixed previous isOld same
      obtain ⟨_, _, first⟩ := isFinding_of_mixed step mixed
      obtain ⟨_, _, second⟩ := oldFinding previous isOld
      exact key_of_ref step first second same
    · intro other conflict mixed current isNew same
      obtain ⟨_, _, first⟩ := isFinding_of_mixed step mixed
      obtain ⟨_, _, second⟩ := newFinding current isNew
      exact key_of_ref step first second same
  · intro wanted
    by_cases same : key = wanted
    · subst same
      simp only [activeAmid_append_self, KeyUpdate.replace]
      rw [Dict.mem_iff]
      by_cases none : index.claimsById.isEmpty = true
      · rw [if_pos none]
        refine iff_of_false (by simp) ?_
        rintro ⟨claim, isActive⟩
        exact empty.mp none claim isActive
      · rw [if_neg none]
        refine iff_of_true ⟨index, Dict.get_insert_self _ _ _⟩ ?_
        by_contra idle
        exact none (empty.mpr (fun claim isActive => idle ⟨claim, isActive⟩))
    · simp only [activeAmid_append_of_ne (Ne.symm same), ← holds.indexed wanted,
        KeyUpdate.replace, Dict.mem_iff]
      split
      · rw [Dict.get_erase, if_neg same]
      · rw [Dict.get_insert, if_neg same]
  · intro wanted located found
    by_cases same : key = wanted
    · subst same
      refine IndexFor.congr ?_ (fun claim => (activeAmid_append_self claim).symm)
      simp only [KeyUpdate.replace] at found
      by_cases none : index.claimsById.isEmpty = true
      · rw [if_pos none, Dict.get_erase, if_pos rfl] at found
        cases found
      · rw [if_neg none, Dict.get_insert_self, Option.some.injEq] at found
        rw [← found]
        exact indexed
    · refine IndexFor.congr ?_ (fun claim => (activeAmid_append_of_ne (Ne.symm same) claim).symm)
      apply holds.indexes wanted located
      simp only [KeyUpdate.replace] at found
      split at found
      · rw [Dict.get_erase, if_neg same] at found
        exact found
      · rw [Dict.get_insert, if_neg same] at found
        exact found
  · intro conflictId
    rw [found_append (fun conflict => by rw [oldFound, Except.ok.injEq])
      (fun conflict => conflict.conflictId), ← holds.previousIds]
    exact mem_addAll
  · intro conflictId
    rw [found_append (fun conflict => by rw [newFound, Except.ok.injEq])
      (fun conflict => conflict.conflictId), ← holds.currentIds]
    exact mem_addAll
  · intro claimId
    simp only [reported_append oldFound newFound, or_and_right, exists_or]
    refine mem_addAll.trans ?_
    rw [mem_addAll, holds.claimIds claimId]
    simp only [candidateIds, List.mem_flatMap, or_assoc]
  · intro conflictRef
    simp only [reported_append oldFound newFound, or_and_right, exists_or]
    refine mem_addAll.trans ?_
    rw [holds.refs conflictRef, List.mem_append, or_assoc]
    simp only [List.mem_map]

/-- The round for a key whose active claims can be read. -/
theorem updateKey_ok (step : Transition registry before contents state context)
    (holds : update.Holds start registry before contents state context done) (fresh : key ∉ done)
    (readable : ∀ claim, contents.active registry claim → claim.key = key → Readable claim) :
    ∃ next, updateKey context state.activeClaimsByKey update key = .ok next ∧
      next.Holds start registry before contents state context (done ++ [key]) := by
  obtain ⟨old, oldFound⟩ := step.finding_before key
  obtain ⟨new, newFound⟩ := step.finding_after readable
  obtain ⟨index, located, indexed⟩ := previousIndex_ok step holds fresh oldFound
  have members := mem_active step.grouped key
  obtain ⟨updated, run, current⟩ := updateDirectConflictIndex_ok indexed
    ((active_sorted step.grouped key).imp (fun below => ne_of_lt below))
    (fun claim member other isActive same => step.distinct other claim
      (step.within.claim other isActive.1.1) ((members claim).mp member).1.1 same)
    (fun claim member => ((members claim).mp member).2)
    (fun claim member => readable claim ((members claim).mp member).1 ((members claim).mp member).2)
  have report : conflictFromDirectIndex updated.1 context key = .ok new := by
    rw [conflictFromDirectIndex_eq (active_sorted step.grouped key)
      (by rw [step.sameRegistry]; exact current)]
    exact newFound
  refine ⟨update.replace key old.toList new.toList updated.1 updated.2, ?_,
    replace_holds step holds fresh oldFound newFound (current.congr members) updated.2⟩
  unfold updateKey
  dsimp only
  rw [previous_eq step holds fresh oldFound, bind_of_ok located, step.sameRegistry,
    bind_of_ok run, bind_of_ok report]
  rfl

theorem readable_of_updateKey (step : Transition registry before contents state context)
    (holds : update.Holds start registry before contents state context done) (fresh : key ∉ done)
    {next : KeyUpdate} (run : updateKey context state.activeClaimsByKey update key = .ok next) :
    ∀ claim, contents.active registry claim → claim.key = key → Readable claim := by
  obtain ⟨old, oldFound⟩ := step.finding_before key
  obtain ⟨index, located, indexed⟩ := previousIndex_ok step holds fresh oldFound
  have members := mem_active step.grouped key
  unfold updateKey at run
  dsimp only at run
  rw [previous_eq step holds fresh oldFound, bind_of_ok located, step.sameRegistry,
    bind_ok_iff] at run
  obtain ⟨updated, run, _⟩ := run
  intro claim isActive sameKey
  exact readable_of_updateDirectConflictIndex indexed
    ((active_sorted step.grouped key).imp (fun below => ne_of_lt below))
    (fun claim member other isActive same => step.distinct other claim
      (step.within.claim other isActive.1.1) ((members claim).mp member).1.1 same)
    run claim ((members claim).mpr ⟨isActive, sameKey⟩)

end Round

end Statefuse
