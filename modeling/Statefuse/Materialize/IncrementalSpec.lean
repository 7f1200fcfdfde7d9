import Statefuse.Materialize.IncrementalKeys

/-!
# An incremental step represents the new contents

The third loop replaces the lifecycle of the marked conflict references; the lanes of
the other references are decided by what has not changed.  Put together, a step from the
state of some contents reaches the state of the contents with the new operations, and it
succeeds exactly when these are good (`applyOperations_represents`,
`applyOperations_exists`).
-/

namespace Statefuse

open Foundation

/-- The lanes of one reference, taken from its history. -/
private theorem groupBy_lane {α B : Type} [LinearOrder B] {order : α → B} {laneOf : α → Lane}
    {member : α → Prop} {byRef : Dict String (List α)} {byLane : Dict Lane (List α)}
    (refs : SortedGroups order byRef
      (fun conflictRef item => member item ∧ (laneOf item).conflictRef = conflictRef))
    (lanes : SortedGroups order byLane (fun lane item => member item ∧ laneOf item = lane))
    (lane : Lane) :
    (groupBy laneOf (byRef[lane.conflictRef]?.getD []))[lane]?.getD [] =
      byLane[lane]?.getD [] := by
  have grouped : ((groupBy laneOf (byRef[lane.conflictRef]?.getD []))[lane]?.getD []).Pairwise
      (fun first second => order first < order second) := by
    rw [getD_groupBy]
    exact (refs.getD_sorted lane.conflictRef).filter _
  refine eq_of_strictly_sorted grouped (lanes.getD_sorted lane) ?_
  intro item
  rw [mem_groupBy, refs.mem_getD, lanes.mem_getD]
  constructor
  · rintro ⟨⟨listed, _⟩, same⟩
    exact ⟨listed, same⟩
  · rintro ⟨listed, same⟩
    exact ⟨⟨listed, by rw [same]⟩, same⟩

variable [Runtime]

/-- Folding a lane looks resolutions up only through its own events. -/
private theorem foldLane_congr {first second : Dict String ResolutionRecord}
    {resolutions : List ResolutionRecord} {events : List ConflictLifecycleEvent}
    (same : ∀ event ∈ events, designated first none event = designated second none event) :
    foldLane first resolutions events none = foldLane second resolutions events none := by
  have decided : ∀ resolution ∈ resolutions, ∃ holds,
      resolutionApplies resolution none = .ok holds := fun _ _ => ⟨true, rfl⟩
  rw [foldLane, foldLane, timelineOf, bind_of_ok (filterM_of_decided decided)]
  have steps : ∀ (entries : List TimelineEntry) (start : LaneState),
      (∀ event, TimelineEntry.event event ∈ entries → event ∈ events) →
      entries.foldlM (timelineStep first none) start =
        entries.foldlM (timelineStep second none) start := by
    intro entries
    induction entries with
    | nil => exact fun _ _ => rfl
    | cons head tail inductionHypothesis =>
        intro start among
        have step : timelineStep first none start head = timelineStep second none start head := by
          cases head with
          | resolution record => rfl
          | event record =>
              rw [timelineStep, timelineStep, same record (among record List.mem_cons_self)]
        rw [List.foldlM_cons, List.foldlM_cons, step]
        congr 1
        funext next
        exact inductionHypothesis next
          (fun event member => among event (List.mem_cons_of_mem _ member))
  apply steps
  intro event member
  rw [mem_sortBy, List.mem_append, List.mem_map, List.mem_map] at member
  rcases member with ⟨_, _, impossible⟩ | ⟨record, listed, equal⟩
  · cases impossible
  · injection equal with equal
    rw [← equal]
    exact listed

omit [Runtime] in
private theorem get_updateWith {K V : Type} [LinearOrder K] (mapping other : Dict K V) (key : K) :
    (updateWith mapping other)[key]? = other[key]?.or mapping[key]? := by
  have general : ∀ (entries : List (K × V)) (mapping : Dict K V),
      entries.Pairwise (fun first second => first.1 < second.1) →
      (∀ value, (key, value) ∈ entries → (entries.foldl
        (fun mapping entry => mapping.insert entry.1 entry.2) mapping)[key]? = some value) ∧
      ((∀ value, (key, value) ∉ entries) → (entries.foldl
        (fun mapping entry => mapping.insert entry.1 entry.2) mapping)[key]? = mapping[key]?) := by
    intro entries
    induction entries with
    | nil => simp
    | cons head tail inductionHypothesis =>
        intro mapping sorted
        obtain ⟨above, tailSorted⟩ := List.pairwise_cons.mp sorted
        obtain ⟨inside, outside⟩ := inductionHypothesis (mapping.insert head.1 head.2) tailSorted
        constructor
        · intro value member
          rcases List.mem_cons.mp member with same | later
          · rw [List.foldl_cons, outside, ← same, Dict.get_insert_self]
            intro other listed
            have below := above (key, other) listed
            rw [← same] at below
            exact lt_irrefl _ below
          · exact inside value later
        · intro absent
          rw [List.foldl_cons,
            outside (fun value later => absent value (List.mem_cons_of_mem _ later)),
            Dict.get_insert, if_neg]
          intro same
          exact absent head.2 (by rw [← same]; exact List.mem_cons_self)
  obtain ⟨inside, outside⟩ := general other.toList mapping other.toList_sorted
  cases found : other[key]? with
  | some value => exact inside value ((Dict.mem_toList other key value).mpr found)
  | none =>
      refine outside (fun value member => ?_)
      rw [Dict.mem_toList, found] at member
      cases member

omit [Runtime] in
private theorem get_keepOtherRefs {V : Type} (conflictRef : String) (mapping : Dict Lane V)
    (lane : Lane) : (keepOtherRefs conflictRef mapping)[lane]? =
      if lane.conflictRef = conflictRef then none else mapping[lane]? := by
  rw [keepOtherRefs, Dict.get_filter]
  by_cases same : lane.conflictRef = conflictRef
  · simp [same]
  · cases mapping[lane]? with
    | none => simp
    | some value => simp [same]

section Replacing

variable {resolutionsById : Dict String ResolutionRecord}
  {resolutionsByRef : Dict String (List ResolutionRecord)}
  {lifecycleByRef : Dict String (List ConflictLifecycleEvent)}
  {conflictsByRef : Dict String ConflictSet} {fold : LifecycleFold} {conflictRef : String}

/-- Replacing the lanes of one reference. -/
theorem replaceLifecycleFoldForRef_ok :
    ∃ next, replaceLifecycleFoldForRef resolutionsById resolutionsByRef lifecycleByRef
        conflictsByRef fold conflictRef = .ok next ∧
      (∀ lane : Lane, lane.conflictRef = conflictRef → ∃ folded,
        foldLane resolutionsById
          ((groupBy ResolutionRecord.lane (resolutionsByRef[conflictRef]?.getD []))[lane]?.getD [])
          ((groupBy ConflictLifecycleEvent.lane
            (lifecycleByRef[conflictRef]?.getD []))[lane]?.getD []) none = .ok folded ∧
        next.view lane = folded.finalView conflictsByRef[conflictRef]? lane) ∧
      ∀ lane : Lane, lane.conflictRef ≠ conflictRef →
        (∀ item ∈ resolutionsByRef[conflictRef]?.getD [], item.conflictRef = conflictRef) →
        (∀ item ∈ lifecycleByRef[conflictRef]?.getD [], item.conflictRef = conflictRef) →
        next.view lane = fold.view lane := by
  obtain ⟨folded, run⟩ := @foldLifecycle_ok _ resolutionsById
    (groupBy ResolutionRecord.lane (resolutionsByRef[conflictRef]?.getD []))
    (groupBy ConflictLifecycleEvent.lane (lifecycleByRef[conflictRef]?.getD []))
    (conflictsOfRef conflictsByRef conflictRef) none (fun lane => foldLane_none_exists _ _ _)
  have single : ∀ wanted : String, (conflictsOfRef conflictsByRef conflictRef)[wanted]? =
      if conflictRef = wanted then conflictsByRef[conflictRef]? else none := by
    intro wanted
    unfold conflictsOfRef
    cases conflictsByRef[conflictRef]? with
    | none => simp
    | some conflict => rw [Dict.get_insert, Dict.get_empty]
  have lookup := foldLifecycle_lookup run
  simp only [single] at lookup
  refine ⟨_, by rw [replaceLifecycleFoldForRef, bind_of_ok run]; rfl, ?_, ?_⟩
  · intro lane same
    obtain ⟨state, computed, viewed⟩ := lookup lane
    refine ⟨state, computed, ?_⟩
    rw [same, if_pos rfl] at viewed
    rw [← viewed]
    simp only [LifecycleFold.view, get_updateWith, get_keepOtherRefs, same, if_true,
      Option.or_none]
  · intro lane different ownResolutions ownEvents
    obtain ⟨state, computed, viewed⟩ := lookup lane
    have noResolutions : (groupBy ResolutionRecord.lane
        (resolutionsByRef[conflictRef]?.getD []))[lane]?.getD [] = [] := by
      rw [List.eq_nil_iff_forall_not_mem]
      intro item member
      obtain ⟨listed, same⟩ := (mem_groupBy _ _ _ _).mp member
      exact different (by rw [← same]; exact ownResolutions item listed)
    have noEvents : (groupBy ConflictLifecycleEvent.lane
        (lifecycleByRef[conflictRef]?.getD []))[lane]?.getD [] = [] := by
      rw [List.eq_nil_iff_forall_not_mem]
      intro item member
      obtain ⟨listed, same⟩ := (mem_groupBy _ _ _ _).mp member
      exact different (by rw [← same]; exact ownEvents item listed)
    rw [noResolutions, noEvents] at computed
    have idle : state = .start := by
      injection computed with computed
      exact computed.symm
    rw [if_neg (Ne.symm different), idle] at viewed
    have active := congrArg LaneView.active viewed
    have effective := congrArg LaneView.effective viewed
    have status := congrArg LaneView.status viewed
    simp only [LifecycleFold.view] at active effective status
    simp only [LifecycleFold.view, get_updateWith, get_keepOtherRefs, if_neg different, active,
      effective, status]
    rfl

end Replacing

/-- The third loop decides the lanes of the given references anew and keeps the others. -/
private theorem lifecycle_loop {working : Working} {contents : Contents}
    (histories : working.Histories contents) (conflictsByRef : Dict String ConflictSet)
    (refs : List String) (start : LifecycleFold) :
    ∃ result, refs.foldlM (replaceLifecycleFoldForRef working.resolutionsById
        working.resolutionsByRef working.lifecycleByRef conflictsByRef) start = .ok result ∧
      ∀ lane : Lane,
        (lane.conflictRef ∈ refs → ∃ folded, foldLane working.resolutionsById
            (working.resolutionsByLane[lane]?.getD []) (working.lifecycleByLane[lane]?.getD [])
            none = .ok folded ∧
          result.view lane = folded.finalView conflictsByRef[lane.conflictRef]? lane) ∧
        (lane.conflictRef ∉ refs → result.view lane = start.view lane) := by
  apply exists_foldlM_invariant (fun done (fold : LifecycleFold) => ∀ lane : Lane,
    (lane.conflictRef ∈ done → ∃ folded, foldLane working.resolutionsById
        (working.resolutionsByLane[lane]?.getD []) (working.lifecycleByLane[lane]?.getD [])
        none = .ok folded ∧
      fold.view lane = folded.finalView conflictsByRef[lane.conflictRef]? lane) ∧
    (lane.conflictRef ∉ done → fold.view lane = start.view lane))
  · exact fun lane => ⟨by simp, fun _ => rfl⟩
  · intro done conflictRef rest fold _ holds
    obtain ⟨next, run, replaced, kept⟩ := @replaceLifecycleFoldForRef_ok _ working.resolutionsById
      working.resolutionsByRef working.lifecycleByRef conflictsByRef fold conflictRef
    refine ⟨next, run, ?_⟩
    intro lane
    by_cases same : lane.conflictRef = conflictRef
    · subst same
      refine ⟨fun _ => ?_, fun absent => absurd (by simp) absent⟩
      obtain ⟨folded, computed, viewed⟩ := replaced lane rfl
      rw [groupBy_lane histories.resolutionsByRef histories.resolutionsByLane,
        groupBy_lane histories.eventsByRef histories.eventsByLane] at computed
      exact ⟨folded, computed, viewed⟩
    · have unchanged : next.view lane = fold.view lane := by
        apply kept lane same
        · intro item listed
          exact ((histories.resolutionsByRef.mem_getD _ _).mp listed).2
        · intro item listed
          exact ((histories.eventsByRef.mem_getD _ _).mp listed).2
      rw [unchanged, List.mem_append, List.mem_singleton]
      constructor
      · rintro (earlier | equal)
        · exact (holds lane).1 earlier
        · exact absurd equal same
      · intro absent
        exact (holds lane).2 (fun earlier => absent (Or.inl earlier))

section Step

variable {registry : PredicateRegistry} {before contents : Contents} {state : MemoryState}
variable {context : ConflictDetectionContext}

private theorem ofState_holds (step : Transition registry before contents state context)
    (working : Working) :
    (KeyUpdate.ofState state working).Holds (KeyUpdate.ofState state working) registry before
      contents state context [] := by
  have represents := step.represents
  have mixed : ∀ key conflict, Mixed state context [] key conflict ↔
      state.finding key = .ok (some conflict) :=
    fun key conflict => mixed_of_not_mem (by simp) conflict
  have idle : ∀ key claim, ActiveAmid registry before contents [] key claim ↔
      before.active registry claim ∧ claim.key = key :=
    fun key claim => activeAmid_of_not_mem (by simp) claim
  refine ⟨?_, ?_, ?_, ?_, ?_, ?_, ?_, ?_, ?_⟩
  · simp only [mixed]
    exact represents.conflictsByKey
  · simp only [mixed]
    exact represents.conflictsById
  · simp only [mixed]
    exact represents.conflictsByRef
  · intro key
    simp only [idle]
    exact (represents.indexed key).trans (represents.active.isSome_iff key)
  · intro key index found
    exact (represents.indexes key index found).congr (fun claim => (idle key claim).symm)
  · simp [KeyUpdate.ofState]
  · simp [KeyUpdate.ofState]
  · simp [Reported]
  · simp [Reported]

private theorem keys_ok (step : Transition registry before contents state context)
    (working : Working) {keys : List ClaimKey} (distinct : keys.Nodup)
    (readable : ∀ claim, contents.active registry claim → claim.key ∈ keys → Readable claim) :
    ∃ update, keys.foldlM (updateKey context state.activeClaimsByKey)
        (KeyUpdate.ofState state working) = .ok update ∧
      update.Holds (KeyUpdate.ofState state working) registry before contents state context
        keys := by
  apply exists_foldlM_invariant (fun done (update : KeyUpdate) =>
    update.Holds (KeyUpdate.ofState state working) registry before contents state context done)
  · exact ofState_holds step working
  · intro done key rest update split holds
    rw [split] at distinct
    have fresh : key ∉ done := by
      intro member
      exact (List.nodup_append.mp distinct).2.2 key member key List.mem_cons_self rfl
    apply updateKey_ok step holds fresh
    intro claim isActive same
    refine readable claim isActive ?_
    rw [same, split]
    simp

private theorem readable_of_keys (step : Transition registry before contents state context)
    (working : Working) {keys : List ClaimKey} (distinct : keys.Nodup) {update : KeyUpdate}
    (run : keys.foldlM (updateKey context state.activeClaimsByKey)
      (KeyUpdate.ofState state working) = .ok update) :
    ∀ claim, contents.active registry claim → claim.key ∈ keys → Readable claim := by
  have invariant := foldlM_invariant_split (fun done (update : KeyUpdate) =>
    update.Holds (KeyUpdate.ofState state working) registry before contents state context done ∧
      ∀ claim, contents.active registry claim → claim.key ∈ done → Readable claim) keys _ _ run
    ⟨ofState_holds step working, by simp⟩ (by
      intro done key rest update next split holds stepped
      rw [split] at distinct
      have fresh : key ∉ done := by
        intro member
        exact (List.nodup_append.mp distinct).2.2 key member key List.mem_cons_self rfl
      have readable := readable_of_updateKey step holds.1 fresh stepped
      obtain ⟨other, run, after⟩ := updateKey_ok step holds.1 fresh readable
      rw [stepped] at run
      injection run with same
      rw [← same] at after
      refine ⟨after, ?_⟩
      intro claim isActive member
      rcases List.mem_append.mp member with earlier | last
      · exact holds.2 claim isActive earlier
      · exact readable claim isActive (List.mem_singleton.mp last))
  exact invariant.2

variable {working : Working} {activeDecisions : List Decision}

theorem Working.Holds.transition (holds : working.Holds registry before contents)
    (collisionFree : CollisionFree) (represents : Represents registry before state)
    (good : before.Good registry) :
    Transition registry before contents state
      (working.tidyActive.context registry activeDecisions) where
  collisionFree := collisionFree
  represents := represents
  good := good
  within := holds.within
  sameRegistry := rfl
  distinct := holds.records.consistent.claim
  grouped := Working.tidyActive_grouped holds
  evidence := holds.records.evidence
  sources := holds.records.sources
  derivations := holds.records.derivations

/-- The keys that are not marked keep their findings. -/
theorem finding_unmarked (holds : working.Holds registry before contents)
    (step : Transition registry before contents state context) {key : ClaimKey}
    (unmarked : key ∉ working.affectedKeys) : context.finding key = state.finding key := by
  apply step.finding_untouched
  intro claim isClaim same
  apply holds.marks.keys claim isClaim
  rw [same]
  exact unmarked

/-- The claims of the keys that are not marked were readable before. -/
theorem readable_unmarked (holds : working.Holds registry before contents)
    (good : before.Good registry) {claim : Claim} (isActive : contents.active registry claim)
    (unmarked : claim.key ∉ working.affectedKeys) : Readable claim :=
  good.readable claim ((holds.marks.keys claim isActive.1 unmarked).active.mpr isActive)

variable {update : KeyUpdate}

/-- Once the marked keys are done, the tables hold the findings of the new contents. -/
theorem mixed_iff (holds : working.Holds registry before contents)
    (step : Transition registry before contents state context) (key : ClaimKey)
    (conflict : ConflictSet) :
    Mixed state context working.affectedKeys.toList key conflict ↔
      context.finding key = .ok (some conflict) := by
  unfold Mixed
  rw [PySet.mem_toList]
  by_cases marked : key ∈ working.affectedKeys
  · simp [marked]
  · rw [finding_unmarked holds step marked]
    simp [marked]

theorem activeAmid_iff (holds : working.Holds registry before contents) (key : ClaimKey)
    (claim : Claim) (within : before.Within contents) :
    ActiveAmid registry before contents working.affectedKeys.toList key claim ↔
      contents.active registry claim ∧ claim.key = key := by
  unfold ActiveAmid
  rw [PySet.mem_toList]
  refine and_congr_left fun same => ?_
  by_cases marked : key ∈ working.affectedKeys
  · simp [marked]
  · simp only [marked, false_and, not_false_eq_true, true_and, false_or]
    have unmarked : claim.key ∉ working.affectedKeys := by
      rw [same]
      exact marked
    constructor
    · intro isActive
      exact (holds.marks.keys claim (within.claim claim isActive.1) unmarked).active.mp isActive
    · intro isActive
      exact (holds.marks.keys claim isActive.1 unmarked).active.mpr isActive

/-! ### The lanes after the step -/

/-- A lane of a reference that is not marked is folded as before. -/
private theorem foldLane_unmarked (holds : working.Holds registry before contents)
    (represents : Represents registry before state) {lane : Lane}
    (unmarked : lane.conflictRef ∉ working.affectedConflictRefs) :
    foldLane working.resolutionsById (working.resolutionsByLane[lane]?.getD [])
        (working.lifecycleByLane[lane]?.getD []) none =
      foldLane state.resolutionsById (state.resolutionsByConflictRefAndScope[lane]?.getD [])
        (state.lifecycleHistoryByConflictRefAndScope[lane]?.getD []) none := by
  have histories := holds.histories
  have known : ∀ resolution, contents.resolution resolution →
      resolution.conflictRef = lane.conflictRef → before.resolution resolution := by
    intro resolution isResolution same
    apply holds.marks.resolutionRefs resolution isResolution
    rw [same]
    exact unmarked
  have resolutions : working.resolutionsByLane[lane]?.getD [] =
      state.resolutionsByConflictRefAndScope[lane]?.getD [] := by
    refine eq_of_strictly_sorted (histories.resolutionsByLane.getD_sorted lane)
      (represents.resolutionsByLane.getD_sorted lane) ?_
    intro resolution
    rw [histories.resolutionsByLane.mem_getD, represents.resolutionsByLane.mem_getD]
    refine and_congr_left fun same => ⟨fun isResolution => ?_, holds.within.resolution resolution⟩
    exact known resolution isResolution (by rw [← same]; rfl)
  have events : working.lifecycleByLane[lane]?.getD [] =
      state.lifecycleHistoryByConflictRefAndScope[lane]?.getD [] := by
    refine eq_of_strictly_sorted (histories.eventsByLane.getD_sorted lane)
      (represents.eventsByLane.getD_sorted lane) ?_
    intro event
    rw [histories.eventsByLane.mem_getD, represents.eventsByLane.mem_getD]
    refine and_congr_left fun same => ⟨fun isEvent => ?_, holds.within.event event⟩
    apply holds.marks.eventRefs event isEvent
    rw [show event.conflictRef = lane.conflictRef by rw [← same]; rfl]
    exact unmarked
  rw [resolutions, events]
  apply foldLane_congr
  intro event member
  have here : event.conflictRef = lane.conflictRef := by
    rw [← ((represents.eventsByLane.mem_getD lane event).mp member).2]
    rfl
  unfold designated
  cases found : state.resolutionsById[event.resolutionId.getD ""]? with
  | some resolution =>
      obtain ⟨isResolution, same⟩ := (represents.resolutions _ _).mp found
      have kept : working.resolutionsById[event.resolutionId.getD ""]? = some resolution :=
        (holds.records.resolutions _ _).mpr ⟨holds.within.resolution resolution isResolution, same⟩
      rw [kept]
  | none =>
      cases fresh : working.resolutionsById[event.resolutionId.getD ""]? with
      | none => rfl
      | some resolution =>
          -- A new resolution is of another reference, so the event does not designate it.
          obtain ⟨isResolution, same⟩ := (holds.records.resolutions _ _).mp fresh
          have other : resolution.conflictRef ≠ event.conflictRef := by
            intro equal
            have old := known resolution isResolution (equal.trans here)
            rw [(represents.resolutions _ _).mpr ⟨old, same⟩] at found
            cases found
          simp only [if_pos (Or.inl other)]

/-- The conflict of a reference that is not marked has not changed. -/
private theorem conflictsByRef_unmarked {start : KeyUpdate}
    (holds : working.Holds registry before contents)
    (step : Transition registry before contents state context)
    (updated : update.Holds start registry before contents state context
      working.affectedKeys.toList) {conflictRef : String}
    (unmarked : conflictRef ∉ update.affectedConflictRefs) :
    update.conflictsByRef[conflictRef]? = state.conflictsByRef[conflictRef]? := by
  have unreported : ∀ conflict, conflict.conflictRef = conflictRef →
      ¬Reported state context working.affectedKeys.toList conflict := by
    intro conflict same reported
    exact unmarked ((updated.refs conflictRef).mpr (Or.inr ⟨conflict, reported, same⟩))
  apply Option.ext
  intro conflict
  rw [updated.byRef conflictRef conflict, step.represents.conflictsByRef conflictRef conflict]
  refine and_congr_left fun same => exists_congr fun key => ?_
  rw [mixed_iff holds step]
  have notMarked : context.finding key = .ok (some conflict) ∨
      state.finding key = .ok (some conflict) → key ∉ working.affectedKeys := by
    intro found marked
    exact unreported conflict same ⟨key, PySet.mem_toList _ _ |>.mpr marked, found.symm⟩
  constructor
  · intro found
    rw [← finding_unmarked holds step (notMarked (Or.inl found))]
    exact found
  · intro found
    rw [finding_unmarked holds step (notMarked (Or.inr found))]
    exact found

/-! ### Both directions -/

/-- What a step reports covers every difference between the two states. -/
structure MaterializationDelta.Covers (delta : MaterializationDelta) (registry : PredicateRegistry)
    (before contents : Contents) (state next : MemoryState) : Prop where
  incremental : delta.fullRebuild = false
  keys : ∀ claim, contents.claim claim → claim.key ∉ delta.affectedKeys →
    Untouched registry before contents claim
  findings : ∀ key : ClaimKey, key ∉ delta.affectedKeys → next.finding key = state.finding key
  claimIds : ∀ claim, contents.claim claim → claim.claimId ∉ delta.affectedClaimIds →
    before.claim claim ∧ (before.active registry claim ↔ contents.active registry claim)
  candidates : ∀ key ∈ delta.affectedKeys, ∀ conflict,
    state.finding key = .ok (some conflict) ∨ next.finding key = .ok (some conflict) →
    ∀ claim ∈ conflict.candidates, claim.claimId ∈ delta.affectedClaimIds
  previousIds : ∀ conflictId, conflictId ∈ delta.previousConflictIds ↔
    ∃ key ∈ delta.affectedKeys, ∃ conflict, state.finding key = .ok (some conflict) ∧
      conflict.conflictId = conflictId
  currentIds : ∀ conflictId, conflictId ∈ delta.currentConflictIds ↔
    ∃ key ∈ delta.affectedKeys, ∃ conflict, next.finding key = .ok (some conflict) ∧
      conflict.conflictId = conflictId
  refs : ∀ key ∈ delta.affectedKeys, ∀ conflict,
    state.finding key = .ok (some conflict) ∨ next.finding key = .ok (some conflict) →
    conflict.conflictRef ∈ delta.affectedConflictRefs
  lanes : ∀ lane : Lane, lane.conflictRef ∉ delta.affectedConflictRefs →
    next.lifecycle.view lane = state.lifecycle.view lane
  resolutionIds : ∀ resolution, contents.resolution resolution →
    resolution.resolutionId ∉ delta.affectedResolutionIds → before.resolution resolution ∧
    resolution.conflictRef ∉ delta.affectedConflictRefs ∧
    ∀ claim, contents.claim claim → claim.claimId ∈ resolution.claimIds → before.claim claim

/-- The three loops put together. -/
private theorem loops_represent (holds : working.Holds registry before contents)
    (collisionFree : CollisionFree) (represents : Represents registry before state)
    (good : before.Good registry)
    (sorts : sortDecisions (Dict.values working.decisionsById) = .ok activeDecisions)
    (updated : update.Holds (.ofState state working.tidyActive) registry before contents state
      (working.tidyActive.context registry activeDecisions) working.affectedKeys.toList)
    {lifecycle : LifecycleFold}
    (folds : update.affectedConflictRefs.toList.foldlM
      (replaceLifecycleFoldForRef working.resolutionsById working.resolutionsByRef
        working.lifecycleByRef update.conflictsByRef) state.lifecycle = .ok lifecycle)
    (ops : List Op) :
    Represents registry contents
        (working.tidyActive.state registry activeDecisions update lifecycle) ∧
      (working.tidyActive.delta ops update).Covers registry before contents state
        (working.tidyActive.state registry activeDecisions update lifecycle) := by
  have step : Transition registry before contents state
      (working.tidyActive.context registry activeDecisions) :=
    holds.transition collisionFree represents good
  obtain ⟨decisionsListed, decisionsSorted⟩ := decisions_sorted holds.records.decisions sorts
  obtain ⟨lifecycle', folds', viewed⟩ := lifecycle_loop holds.histories update.conflictsByRef
    update.affectedConflictRefs.toList state.lifecycle
  have sameLifecycle : (Except.ok lifecycle : Result _) = .ok lifecycle' := folds.symm.trans folds'
  injection sameLifecycle with sameLifecycle
  rw [← sameLifecycle] at viewed
  have mixed := mixed_iff holds step
  have marked : ∀ conflictRef, conflictRef ∉ update.affectedConflictRefs →
      conflictRef ∉ working.affectedConflictRefs :=
    fun conflictRef unmarked known => unmarked ((updated.refs conflictRef).mpr (Or.inl known))
  have values : Dict.values update.conflictsById =
      sortBy (·.conflictId) (Dict.values update.conflictsById) :=
    (sortBy_of_pairwise (updated.byId.values_distinct.imp (fun below => le_of_lt below))).symm
  constructor
  · exact {
      sameRegistry := rfl
      sources := holds.records.sources
      evidence := holds.records.evidence
      claims := holds.records.claims
      derivations := holds.records.derivations
      resolutions := holds.records.resolutions
      events := holds.records.events
      decisions := decisionsListed
      decisionsSorted := decisionsSorted
      claimRefs := holds.indexed.claimRefs
      claimIdsByRef := holds.indexed.claimIdsByRef.listed
      retractionsByTarget := holds.activity.target
      retractionsByTargetRef := holds.activity.targetRef
      retractionsBySuperseder := holds.activity.superseder
      retractionsBySupersederRef := holds.activity.supersederRef
      inactive := holds.activity.inactive
      inapplicable := holds.activity.inapplicable
      active := step.grouped
      resolutionsByRef := holds.histories.resolutionsByRef
      resolutionsByLane := holds.histories.resolutionsByLane
      eventsByRef := holds.histories.eventsByRef
      eventsByLane := holds.histories.eventsByLane
      claimIdsByEvidence := holds.indexed.claimIdsByEvidence.listed
      claimIdsByDerivation := holds.indexed.claimIdsByDerivation.listed
      evidenceIdsBySource := holds.indexed.evidenceIdsBySource.listed
      resolutionIdsByClaim := holds.indexed.resolutionIdsByClaim.listed
      conflictsByKey := Maps.congr updated.byKey
        (fun key conflicts => exists_congr fun conflict => and_congr_left' (mixed key conflict))
      conflictsById := updated.byId.congr
        (fun conflict => exists_congr fun key => mixed key conflict)
      conflictsByRef := updated.byRef.congr
        (fun conflict => exists_congr fun key => mixed key conflict)
      conflicts := values.symm
      indexed := by
        intro key
        refine (updated.indexed key).trans (Iff.trans ?_ (step.grouped.isSome_iff key).symm)
        exact exists_congr fun claim => activeAmid_iff holds key claim holds.within
      indexes := fun key index found => (updated.indexes key index found).congr
        (fun claim => activeAmid_iff holds key claim holds.within)
      lifecycle := by
        intro lane
        by_cases known : lane.conflictRef ∈ update.affectedConflictRefs
        · exact (viewed lane).1 (PySet.mem_toList _ _ |>.mpr known)
        · obtain ⟨folded, computed, view⟩ := represents.lifecycle lane
          refine ⟨folded, ?_, ?_⟩
          · rw [← computed]
            exact foldLane_unmarked holds represents (marked _ known)
          · refine ((viewed lane).2 (mt (PySet.mem_toList _ _).mp known)).trans ?_
            rw [view, ← conflictsByRef_unmarked holds step updated known]
            rfl }
  · have reported : ∀ key ∈ (working.tidyActive.delta ops update).affectedKeys, ∀ conflict,
        state.finding key = .ok (some conflict) ∨
          (working.tidyActive.context registry activeDecisions).finding key =
            .ok (some conflict) →
        Reported state (working.tidyActive.context registry activeDecisions)
          working.affectedKeys.toList conflict :=
      fun key member conflict found => ⟨key, member, found⟩
    have unmarkedKey : ∀ key : ClaimKey, key ∉ (working.tidyActive.delta ops update).affectedKeys →
        key ∉ working.affectedKeys := fun key => mt (PySet.mem_toList _ _).mpr
    exact {
      incremental := rfl
      keys := fun claim isClaim unmarked =>
        holds.marks.keys claim isClaim (unmarkedKey claim.key unmarked)
      findings := fun key unmarked => finding_unmarked holds step (unmarkedKey key unmarked)
      claimIds := by
        intro claim isClaim unmarked
        apply holds.marks.claimIds claim isClaim
        intro known
        exact unmarked ((PySet.mem_toList _ _).mpr ((updated.claimIds _).mpr (Or.inl known)))
      candidates := fun key member conflict found claim isCandidate =>
        (PySet.mem_toList _ _).mpr ((updated.claimIds _).mpr (Or.inr ⟨conflict,
          reported key member conflict found, List.mem_map_of_mem isCandidate⟩))
      previousIds := fun conflictId =>
        (PySet.mem_toList _ _).trans (updated.previousIds conflictId)
      currentIds := fun conflictId => (PySet.mem_toList _ _).trans (updated.currentIds conflictId)
      refs := fun key member conflict found => (PySet.mem_toList _ _).mpr
        ((updated.refs _).mpr (Or.inr ⟨conflict, reported key member conflict found, rfl⟩))
      lanes := fun lane unmarked => (viewed lane).2 unmarked
      resolutionIds := by
        intro resolution isResolution unmarked
        obtain ⟨oldUnmarked, elsewhere⟩ := not_or.mp
          (fun listed => unmarked ((PySet.mem_toList _ _).mpr (mem_addAll.mpr listed)))
        obtain ⟨known, named⟩ := holds.marks.resolutionIds resolution isResolution oldUnmarked
        refine ⟨known, ?_, named⟩
        intro isMarked
        refine elsewhere (List.mem_flatMap.mpr ⟨resolution.conflictRef, isMarked, ?_⟩)
        exact List.mem_map_of_mem
          ((holds.histories.resolutionsByRef.mem_getD _ _).mpr ⟨isResolution, rfl⟩) }

end Step

/-- A step from the state of some contents reaches the state of the contents with the
new operations. -/
theorem applyOperations_represents (collisionFree : CollisionFree) {registry : PredicateRegistry}
    {before : Contents} {state : MemoryState} (represents : Represents registry before state)
    (good : before.Good registry) {ops : List Op} (some : ops ≠ [])
    (plain : (ops.foldl Contents.add before).Plain) {next : MemoryState}
    {delta : MaterializationDelta}
    (run : applyOperationsIncrementally state ops [] = .ok (next, delta)) :
    Represents registry (ops.foldl Contents.add before) next ∧
      (ops.foldl Contents.add before).Good registry ∧
      delta.Covers registry before (ops.foldl Contents.add before) state next := by
  rw [applyOperationsIncrementally_ok_iff some] at run
  obtain ⟨entered, enters, activeDecisions, sorts, update, updates, lifecycle, folds, same⟩ := run
  rw [represents.sameRegistry] at enters updates same
  have holds := Working.enter_holds (Working.ofState_holds represents) plain enters
  have step : Transition registry before (ops.foldl Contents.add before) state
      (entered.tidyActive.context registry activeDecisions) :=
    holds.transition collisionFree represents good
  have distinct : entered.affectedKeys.toList.Nodup :=
    (PySet.toList_sorted _).imp (fun below => ne_of_lt below)
  have readable := readable_of_keys step entered.tidyActive distinct updates
  obtain ⟨update', updates', updated⟩ := keys_ok step entered.tidyActive distinct readable
  have sameUpdate : (Except.ok update : Result _) = .ok update' := updates.symm.trans updates'
  injection sameUpdate with sameUpdate
  rw [← sameUpdate] at updated
  obtain ⟨represented, covers⟩ :=
    loops_represent holds collisionFree represents good sorts updated folds ops
  injection same with sameState sameDelta
  rw [← sameState, ← sameDelta]
  refine ⟨represented, ⟨holds.records.consistent, ?_, ?_⟩, covers⟩
  · intro decision isDecision
    exact timed_of_sortDecisions sorts decision
      ((holds.records.decisions.mem_values decision).mpr isDecision)
  · intro claim isActive
    by_cases marked : claim.key ∈ entered.affectedKeys
    · exact readable claim isActive ((PySet.mem_toList _ _).mpr marked)
    · exact readable_unmarked holds good isActive marked

/-- A step succeeds when the new contents are good. -/
theorem applyOperations_exists (collisionFree : CollisionFree) {registry : PredicateRegistry}
    {before : Contents} {state : MemoryState} (represents : Represents registry before state)
    (good : before.Good registry) {ops : List Op} (some : ops ≠ [])
    (plain : (ops.foldl Contents.add before).Plain)
    (goodAfter : (ops.foldl Contents.add before).Good registry) :
    ∃ result, applyOperationsIncrementally state ops [] = .ok result := by
  obtain ⟨entered, enters⟩ := Working.enter_exists (Working.ofState_holds represents) plain
    goodAfter.consistent
  have holds := Working.enter_holds (Working.ofState_holds represents) plain enters
  obtain ⟨activeDecisions, sorts⟩ := sortDecisions_exists
    (fun decision listed => goodAfter.timed decision
      ((holds.records.decisions.mem_values decision).mp listed))
  have step : Transition registry before (ops.foldl Contents.add before) state
      (entered.tidyActive.context registry activeDecisions) :=
    holds.transition collisionFree represents good
  have distinct : entered.affectedKeys.toList.Nodup :=
    (PySet.toList_sorted _).imp (fun below => ne_of_lt below)
  obtain ⟨update, updates, _⟩ := keys_ok step entered.tidyActive distinct
    (fun claim isActive _ => goodAfter.readable claim isActive)
  obtain ⟨lifecycle, folds, _⟩ := lifecycle_loop holds.histories update.conflictsByRef
    update.affectedConflictRefs.toList state.lifecycle
  rw [← represents.sameRegistry] at enters updates
  exact ⟨_, (applyOperationsIncrementally_ok_iff some).mpr ⟨entered, enters, activeDecisions, sorts,
    update, updates, lifecycle, folds, rfl⟩⟩

end Statefuse
