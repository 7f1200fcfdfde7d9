import Statefuse.Materialize.Lifecycle

/-!
# What the lifecycle fold computes

Every lane is decided on its own: by its own timeline and by the conflict with its
reference (`foldLifecycle_lookup`).  The two passes over all lanes, and the maps
that hold active resolutions, effective resolutions and statuses apart, are
bookkeeping around that fact.
-/

namespace Statefuse

open Foundation

variable [Runtime]

/-- The resolution that is effective in a lane with a given state. -/
def LaneState.effective (state : LaneState) (conflict : Option ConflictSet) :
    Option ResolutionRecord :=
  match conflict, state.active with
  | some conflict, some resolution =>
      if (judge conflict resolution).1 then some resolution else none
  | _, _ => none

/-- The status of a lane with a given state. -/
def LaneState.finalStatus (state : LaneState) (conflict : Option ConflictSet) (lane : Lane) :
    Option LifecycleStatus :=
  match conflict, state.active with
  | none, _ => state.status
  | some conflict, some resolution => some (judge conflict resolution).2
  | some _, none =>
      if lane.scope = none then some (state.status.getD .opened) else state.status

/-- What the three maps say about one lane. -/
structure LaneView where
  active : Option ResolutionRecord
  effective : Option ResolutionRecord
  status : Option LifecycleStatus

def LifecycleFold.view (fold : LifecycleFold) (lane : Lane) : LaneView :=
  ⟨fold.active[lane]?, fold.effective[lane]?, fold.statuses[lane]?⟩

/-- Folds that say the same about every lane are the same. -/
theorem LifecycleFold.ext_view {first second : LifecycleFold}
    (same : ∀ lane, first.view lane = second.view lane) : first = second := by
  have active : first.active = second.active :=
    Dict.ext (fun lane => congrArg LaneView.active (same lane))
  have effective : first.effective = second.effective :=
    Dict.ext (fun lane => congrArg LaneView.effective (same lane))
  have statuses : first.statuses = second.statuses :=
    Dict.ext (fun lane => congrArg LaneView.status (same lane))
  cases first
  cases second
  cases active
  cases effective
  cases statuses
  rfl

/-- The view of a lane after the first pass. -/
def LaneState.view (state : LaneState) : LaneView := ⟨state.active, none, state.status⟩

/-- The view of a lane after both passes. -/
def LaneState.finalView (state : LaneState) (conflict : Option ConflictSet) (lane : Lane) :
    LaneView :=
  ⟨state.active, state.effective conflict, state.finalStatus conflict lane⟩

theorem LifecycleFold.view_empty (lane : Lane) :
    LifecycleFold.empty.view lane = LaneState.start.view := by
  simp [view, empty, LaneState.view, LaneState.start]

theorem LifecycleFold.view_enter_self (fold : LifecycleFold) (lane : Lane) (state : LaneState)
    (fresh : fold.view lane = LaneState.start.view) :
    (fold.enter lane state).view lane = state.view := by
  have active : fold.active[lane]? = none := congrArg LaneView.active fresh
  have effective : fold.effective[lane]? = none := congrArg LaneView.effective fresh
  have status : fold.statuses[lane]? = none := congrArg LaneView.status fresh
  obtain ⟨stateActive, stateStatus⟩ := state
  cases stateActive <;> cases stateStatus <;>
    simp only [view, enter, LaneState.view, active, effective, status, Dict.get_insert_self]

theorem LifecycleFold.view_enter_of_ne (fold : LifecycleFold) {lane other : Lane}
    (different : lane ≠ other) (state : LaneState) :
    (fold.enter lane state).view other = fold.view other := by
  obtain ⟨stateActive, stateStatus⟩ := state
  cases stateActive <;> cases stateStatus <;>
    simp only [view, enter, Dict.get_insert_of_ne _ different]

section Passes

variable (folded : Lane → Result LaneState)

/-- The first pass over a list of lanes. -/
private theorem enter_pass (lanes : List Lane) (distinct : lanes.Nodup)
    (start result : LifecycleFold)
    (run : lanes.foldlM (fun (fold : LifecycleFold) lane => do
      let state ← folded lane
      return fold.enter lane state) start = .ok result)
    (fresh : ∀ lane ∈ lanes, start.view lane = LaneState.start.view) :
    (∀ lane ∈ lanes, ∃ state, folded lane = .ok state ∧ result.view lane = state.view) ∧
      ∀ lane, lane ∉ lanes → result.view lane = start.view lane := by
  induction lanes generalizing start with
  | nil =>
      rw [List.foldlM_nil, pure_ok_iff] at run
      subst run
      simp
  | cons head tail inductionHypothesis =>
      obtain ⟨headFresh, tailDistinct⟩ := List.nodup_cons.mp distinct
      rw [List.foldlM_cons, bind_ok_iff] at run
      obtain ⟨next, entered, run⟩ := run
      rw [bind_ok_iff] at entered
      obtain ⟨state, computed, same⟩ := entered
      rw [pure_ok_iff] at same
      subst same
      have different : ∀ lane ∈ tail, head ≠ lane := by
        rintro lane member rfl
        exact headFresh member
      obtain ⟨inside, outside⟩ := inductionHypothesis tailDistinct _ run (by
        intro lane member
        rw [LifecycleFold.view_enter_of_ne start (different lane member) state]
        exact fresh lane (List.mem_cons_of_mem _ member))
      constructor
      · intro lane member
        rcases List.mem_cons.mp member with rfl | member
        · refine ⟨state, computed, ?_⟩
          rw [outside lane headFresh]
          exact start.view_enter_self lane state (fresh lane List.mem_cons_self)
        · exact inside lane member
      · intro lane absent
        have notHead : head ≠ lane := fun same => absent (same ▸ List.mem_cons_self)
        rw [outside lane (fun member => absent (List.mem_cons_of_mem _ member)),
          start.view_enter_of_ne notHead state]

/-- The first pass succeeds when every lane can be folded. -/
private theorem enter_pass_ok (lanes : List Lane) (start : LifecycleFold)
    (each : ∀ lane ∈ lanes, ∃ state, folded lane = .ok state) :
    ∃ result, lanes.foldlM (fun (fold : LifecycleFold) lane => do
      let state ← folded lane
      return fold.enter lane state) start = .ok result := by
  induction lanes generalizing start with
  | nil => exact ⟨start, rfl⟩
  | cons head tail inductionHypothesis =>
      obtain ⟨state, computed⟩ := each head List.mem_cons_self
      obtain ⟨result, run⟩ := inductionHypothesis (start.enter head state)
        (fun lane member => each lane (List.mem_cons_of_mem _ member))
      refine ⟨result, ?_⟩
      rw [List.foldlM_cons, bind_ok_iff]
      refine ⟨start.enter head state, ?_, run⟩
      rw [computed]
      rfl

end Passes

/-! ## The second pass -/

namespace LifecycleFold

/-- Judging a lane, as seen in that lane. -/
def judgedView (view : LaneView) (conflict : ConflictSet) : LaneView :=
  match view.active with
  | none => view
  | some resolution =>
      ⟨some resolution,
        if (judge conflict resolution).1 then some resolution else view.effective,
        some (judge conflict resolution).2⟩

theorem view_judgeLane_self (fold : LifecycleFold) (conflict : ConflictSet) (lane : Lane) :
    (fold.judgeLane conflict lane).view lane = judgedView (fold.view lane) conflict := by
  cases active : fold.active[lane]? with
  | none => simp only [judgeLane, judgedView, view, active]
  | some resolution =>
      by_cases effective : (judge conflict resolution).1 = true
      · simp only [judgeLane, judgedView, view, active, effective, if_true, Dict.get_insert_self]
      · simp only [judgeLane, judgedView, view, active, effective, Dict.get_insert_self]
        rfl

theorem view_judgeLane_of_ne (fold : LifecycleFold) (conflict : ConflictSet) {lane other : Lane}
    (different : lane ≠ other) :
    (fold.judgeLane conflict lane).view other = fold.view other := by
  cases active : fold.active[lane]? with
  | none => simp only [judgeLane, active]
  | some resolution =>
      by_cases effective : (judge conflict resolution).1 = true
      · simp only [judgeLane, view, active, effective, if_true,
          Dict.get_insert_of_ne _ different]
      · simp only [judgeLane, view, active, effective, Dict.get_insert_of_ne _ different]
        rfl

theorem view_judgeLanes (lanes : List Lane) (distinct : lanes.Nodup) (fold : LifecycleFold)
    (conflict : ConflictSet) (lane : Lane) :
    (lanes.foldl (fun fold lane => fold.judgeLane conflict lane) fold).view lane =
      if lane ∈ lanes then judgedView (fold.view lane) conflict else fold.view lane := by
  induction lanes generalizing fold with
  | nil => rfl
  | cons head tail inductionHypothesis =>
      obtain ⟨headFresh, tailDistinct⟩ := List.nodup_cons.mp distinct
      rw [List.foldl_cons, inductionHypothesis tailDistinct]
      by_cases same : head = lane
      · subst same
        rw [if_neg headFresh, if_pos List.mem_cons_self, view_judgeLane_self]
      · rw [view_judgeLane_of_ne fold conflict same]
        by_cases member : lane ∈ tail
        · rw [if_pos member, if_pos (List.mem_cons_of_mem _ member)]
        · rw [if_neg member, if_neg (by
            intro either
            rcases List.mem_cons.mp either with equal | inTail
            · exact same equal.symm
            · exact member inTail)]

theorem view_openByDefault_of_ne (fold : LifecycleFold) {lane other : Lane}
    (different : lane ≠ other) : (fold.openByDefault lane).view other = fold.view other := by
  by_cases present : lane ∈ fold.statuses
  · simp only [openByDefault, view, if_pos present]
  · simp only [openByDefault, view, if_neg present, Dict.get_insert_of_ne _ different]

theorem view_openByDefault_self (fold : LifecycleFold) (lane : Lane) :
    (fold.openByDefault lane).view lane =
      ⟨fold.active[lane]?, fold.effective[lane]?, some (fold.statuses[lane]?.getD .opened)⟩ := by
  by_cases present : lane ∈ fold.statuses
  · obtain ⟨status, found⟩ := (Dict.mem_iff fold.statuses lane).mp present
    simp only [openByDefault, view, if_pos present, found, Option.getD_some]
  · have absent : fold.statuses[lane]? = none := by
      cases found : fold.statuses[lane]? with
      | none => rfl
      | some status => exact absurd ((Dict.mem_iff fold.statuses lane).mpr ⟨status, found⟩) present
    simp only [openByDefault, view, if_neg present, absent, Option.getD_none,
      Dict.get_insert_self]

/-- One conflict, as seen in a lane of another reference. -/
theorem view_judgeConflict_of_ne (lanes : List Lane) (fold : LifecycleFold)
    (entry : String × ConflictSet) {lane : Lane} (different : lane.conflictRef ≠ entry.1) :
    (fold.judgeConflict lanes entry).view lane = fold.view lane := by
  have outside : lane ∉ sortedSet (Lane.global entry.1 ::
      lanes.filter fun lane => lane.conflictRef = entry.1) := by
    rw [mem_sortedSet, List.mem_cons, List.mem_filter]
    rintro (same | ⟨_, same⟩)
    · exact different (congrArg Lane.conflictRef same)
    · exact different (by simpa using same)
  have distinct := (sortedSet_sorted (Lane.global entry.1 ::
    lanes.filter fun lane => lane.conflictRef = entry.1)).imp (fun below => ne_of_lt below)
  rw [judgeConflict, view_judgeLanes _ distinct, if_neg outside,
    view_openByDefault_of_ne fold (fun same => different (by rw [← same]; rfl))]

/-- One conflict, as seen in a lane of its own reference that the first pass left
in a given state. -/
theorem view_judgeConflict (lanes : List Lane) (fold : LifecycleFold) (conflict : ConflictSet)
    (lane : Lane) (state : LaneState) (viewed : fold.view lane = state.view)
    (idle : lane ∉ lanes → state = .start) :
    (fold.judgeConflict lanes (lane.conflictRef, conflict)).view lane =
      state.finalView (some conflict) lane := by
  have distinct := (sortedSet_sorted (Lane.global lane.conflictRef ::
    lanes.filter fun other => other.conflictRef = lane.conflictRef)).imp
    (fun below => ne_of_lt below)
  obtain ⟨active, status⟩ := state
  have activeFound : fold.active[lane]? = active := congrArg LaneView.active viewed
  have effectiveFound : fold.effective[lane]? = none := congrArg LaneView.effective viewed
  have statusFound : fold.statuses[lane]? = status := congrArg LaneView.status viewed
  rw [judgeConflict, view_judgeLanes _ distinct]
  by_cases isGlobal : lane.scope = none
  · have same : Lane.global lane.conflictRef = lane := by
      cases lane
      cases isGlobal
      rfl
    have member : lane ∈ sortedSet (Lane.global lane.conflictRef ::
        lanes.filter fun other => other.conflictRef = lane.conflictRef) := by
      rw [mem_sortedSet, same]
      exact List.mem_cons_self
    rw [if_pos member, same, view_openByDefault_self, activeFound, effectiveFound, statusFound]
    cases active with
    | none => simp only [judgedView, LaneState.finalView, LaneState.effective,
        LaneState.finalStatus, isGlobal, if_true]
    | some resolution => simp only [judgedView, LaneState.finalView, LaneState.effective,
        LaneState.finalStatus]
  · have different : Lane.global lane.conflictRef ≠ lane := by
      intro same
      exact isGlobal (by rw [← same]; rfl)
    rw [view_openByDefault_of_ne fold different, viewed]
    by_cases listed : lane ∈ lanes
    · have member : lane ∈ sortedSet (Lane.global lane.conflictRef ::
          lanes.filter fun other => other.conflictRef = lane.conflictRef) := by
        rw [mem_sortedSet, List.mem_cons, List.mem_filter]
        exact Or.inr ⟨listed, by simp⟩
      rw [if_pos member]
      cases active with
      | none => simp only [judgedView, LaneState.view, LaneState.finalView, LaneState.effective,
          LaneState.finalStatus, isGlobal, if_false]
      | some resolution => simp only [judgedView, LaneState.view, LaneState.finalView,
          LaneState.effective, LaneState.finalStatus]
    · have outside : lane ∉ sortedSet (Lane.global lane.conflictRef ::
          lanes.filter fun other => other.conflictRef = lane.conflictRef) := by
        rw [mem_sortedSet, List.mem_cons, List.mem_filter]
        rintro (same | ⟨inside, _⟩)
        · exact different same.symm
        · exact listed inside
      have start := idle listed
      injection start with noActive noStatus
      subst noActive
      subst noStatus
      rw [if_neg outside]
      simp only [LaneState.view, LaneState.finalView, LaneState.effective, LaneState.finalStatus,
        isGlobal, if_false]

private theorem view_judgeConflicts_of_ne (lanes : List Lane)
    (entries : List (String × ConflictSet)) (fold : LifecycleFold) (lane : Lane)
    (different : ∀ entry ∈ entries, lane.conflictRef ≠ entry.1) :
    (entries.foldl (judgeConflict lanes) fold).view lane = fold.view lane := by
  induction entries generalizing fold with
  | nil => rfl
  | cons head tail inductionHypothesis =>
      rw [List.foldl_cons, inductionHypothesis _
        (fun entry member => different entry (List.mem_cons_of_mem _ member)),
        view_judgeConflict_of_ne lanes fold head (different head List.mem_cons_self)]

/-- The second pass, as seen in one lane. -/
theorem view_judgeConflicts (lanes : List Lane) (conflictsByRef : Dict String ConflictSet)
    (fold : LifecycleFold) (lane : Lane) (state : LaneState) (viewed : fold.view lane = state.view)
    (idle : lane ∉ lanes → state = .start) :
    (conflictsByRef.toList.foldl (judgeConflict lanes) fold).view lane =
      state.finalView conflictsByRef[lane.conflictRef]? lane := by
  cases found : conflictsByRef[lane.conflictRef]? with
  | none =>
      rw [view_judgeConflicts_of_ne lanes _ fold lane, viewed]
      · rfl
      · intro entry member same
        have present := (Dict.mem_toList conflictsByRef entry.1 entry.2).mp member
        rw [← same, found] at present
        cases present
  | some conflict =>
      have member := (Dict.mem_toList conflictsByRef _ _).mpr found
      obtain ⟨before, after, split⟩ := List.append_of_mem member
      have sorted := conflictsByRef.toList_sorted
      rw [split] at sorted ⊢
      obtain ⟨_, afterSorted, across⟩ := List.pairwise_append.mp sorted
      rw [List.foldl_append, List.foldl_cons, view_judgeConflicts_of_ne lanes after]
      · apply view_judgeConflict _ _ _ _ _ _ idle
        rw [view_judgeConflicts_of_ne lanes before fold lane, viewed]
        intro entry earlier same
        exact absurd same (ne_of_gt (across entry earlier _ List.mem_cons_self))
      · intro entry later
        exact ne_of_lt ((List.pairwise_cons.mp afterSorted).1 entry later)

end LifecycleFold

section Both

variable {resolutionsById : Dict String ResolutionRecord}
  {resolutionsByLane : Dict Lane (List ResolutionRecord)}
  {eventsByLane : Dict Lane (List ConflictLifecycleEvent)}
  {conflictsByRef : Dict String ConflictSet} {validAt : Option String}

private theorem foldLane_idle (lane : Lane)
    (absent : lane ∉ sortedSet (resolutionsByLane.keys ++ eventsByLane.keys)) :
    foldLane resolutionsById (resolutionsByLane[lane]?.getD []) (eventsByLane[lane]?.getD [])
      validAt = .ok .start := by
  rw [mem_sortedSet, List.mem_append, Dict.mem_keys, Dict.mem_keys] at absent
  have noResolutions : resolutionsByLane[lane]? = none :=
    Option.eq_none_iff_forall_ne_some.mpr (fun items found => absent (Or.inl ⟨items, found⟩))
  have noEvents : eventsByLane[lane]? = none :=
    Option.eq_none_iff_forall_ne_some.mpr (fun items found => absent (Or.inr ⟨items, found⟩))
  rw [noResolutions, noEvents]
  rfl

/-- Each lane is decided by its own timeline and by the conflict of its reference. -/
theorem foldLifecycle_lookup {fold : LifecycleFold}
    (run : foldLifecycle resolutionsById resolutionsByLane eventsByLane conflictsByRef validAt =
      .ok fold) (lane : Lane) :
    ∃ state, foldLane resolutionsById (resolutionsByLane[lane]?.getD [])
        (eventsByLane[lane]?.getD []) validAt = .ok state ∧
      fold.view lane = state.finalView conflictsByRef[lane.conflictRef]? lane := by
  rw [foldLifecycle, bind_ok_iff] at run
  obtain ⟨first, entered, run⟩ := run
  rw [pure_ok_iff] at run
  have distinct := (sortedSet_sorted (resolutionsByLane.keys ++ eventsByLane.keys)).imp
    (fun below => ne_of_lt below)
  obtain ⟨inside, outside⟩ := enter_pass
    (fun lane => foldLane resolutionsById (resolutionsByLane[lane]?.getD [])
      (eventsByLane[lane]?.getD []) validAt) _ distinct _ _ entered
    (fun lane _ => LifecycleFold.view_empty lane)
  by_cases listed : lane ∈ sortedSet (resolutionsByLane.keys ++ eventsByLane.keys)
  · obtain ⟨state, computed, viewed⟩ := inside lane listed
    refine ⟨state, computed, ?_⟩
    rw [← run]
    exact LifecycleFold.view_judgeConflicts _ _ _ _ _ viewed
      (fun absent => absurd listed absent)
  · refine ⟨.start, foldLane_idle lane listed, ?_⟩
    rw [← run]
    apply LifecycleFold.view_judgeConflicts _ _ _ _ _ _ (fun _ => rfl)
    rw [outside lane listed, LifecycleFold.view_empty]

/-- The fold succeeds when the timeline of every lane can be folded. -/
theorem foldLifecycle_ok
    (each : ∀ lane : Lane, ∃ state, foldLane resolutionsById (resolutionsByLane[lane]?.getD [])
      (eventsByLane[lane]?.getD []) validAt = .ok state) :
    ∃ fold, foldLifecycle resolutionsById resolutionsByLane eventsByLane conflictsByRef validAt =
      .ok fold := by
  obtain ⟨first, entered⟩ := enter_pass_ok
    (fun lane => foldLane resolutionsById (resolutionsByLane[lane]?.getD [])
      (eventsByLane[lane]?.getD []) validAt)
    (sortedSet (resolutionsByLane.keys ++ eventsByLane.keys)) .empty (fun lane _ => each lane)
  rw [foldLifecycle]
  refine ⟨conflictsByRef.toList.foldl (LifecycleFold.judgeConflict
    (sortedSet (resolutionsByLane.keys ++ eventsByLane.keys))) first, ?_⟩
  rw [bind_ok_iff]
  exact ⟨first, entered, rfl⟩

end Both

end Statefuse
