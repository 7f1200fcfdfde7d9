import Statefuse.Materialize.Scopes
import Statefuse.View.Unresolved

/-!
# Views of one scope

A view of a scope reads the lanes of that scope and of every scope, and nothing else about
resolutions.  States that agree on these lanes therefore have the same view
(`buildView_agrees`), and resolutions of other scopes do not reach it, unless they make the
materialization itself fail (`scoped_view_iff`).
-/

namespace Statefuse

open Foundation

section Theory

variable [Runtime]

/-- The resolver reads no resolutions and no lifecycle events. -/
def IgnoresResolutions (resolver : Resolver) : Prop :=
  ∀ conflict constraints first second,
    MemoryState.withoutResolutions first = MemoryState.withoutResolutions second →
      resolver conflict constraints first = resolver conflict constraints second

section Agreement

variable {scope : Option String} {first second : MemoryState}

namespace MemoryState.AgreesOn

theorem activeClaimsByKey (agrees : first.AgreesOn scope second) :
    first.activeClaimsByKey = second.activeClaimsByKey := by
  have same := congrArg MemoryState.activeClaimsByKey agrees.same
  exact same

theorem conflicts (agrees : first.AgreesOn scope second) : first.conflicts = second.conflicts := by
  have same := congrArg MemoryState.conflicts agrees.same
  exact same

theorem conflictsByKey (agrees : first.AgreesOn scope second) :
    first.conflictsByKey = second.conflictsByKey := by
  have same := congrArg MemoryState.conflictsByKey agrees.same
  exact same

theorem predicateRegistry (agrees : first.AgreesOn scope second) :
    first.predicateRegistry = second.predicateRegistry := by
  have same := congrArg MemoryState.predicateRegistry agrees.same
  exact same

end MemoryState.AgreesOn

/-- The lane that a view of the scope reads is the same, and it is a visible one. -/
theorem resolutionLane_agrees (agrees : first.AgreesOn scope second) (conflict : ConflictSet) :
    resolutionLane first conflict scope = resolutionLane second conflict scope ∧
      (resolutionLane first conflict scope).VisibleIn scope := by
  cases scope with
  | none => exact ⟨rfl, Or.inl rfl⟩
  | some scope =>
      have history := agrees.history ⟨conflict.conflictRef, some scope⟩ (Or.inr rfl)
      unfold resolutionLane
      simp only
      by_cases listed : (⟨conflict.conflictRef, some scope⟩ : Lane) ∈
          first.resolutionsByConflictRefAndScope ∨
        (⟨conflict.conflictRef, some scope⟩ : Lane) ∈ first.lifecycleHistoryByConflictRefAndScope
      · rw [if_pos listed, if_pos (history.mp listed)]
        exact ⟨rfl, Or.inr rfl⟩
      · rw [if_neg listed, if_neg (fun also => listed (history.mpr also))]
        exact ⟨rfl, Or.inl rfl⟩

theorem committedChoice_agrees (agrees : first.AgreesOn scope second) (conflict : ConflictSet) :
    committedChoice first conflict scope = committedChoice second conflict scope := by
  rcases resolutionLane_agrees agrees conflict with ⟨sameLane, visible⟩
  unfold committedChoice
  simp only [← sameLane]
  rw [agrees.effective _ visible, agrees.active _ visible, agrees.statuses _ visible]

theorem viewKey_agrees (agrees : first.AgreesOn scope second) {constraints : ViewConstraints}
    (isScope : constraints.scope = scope) {resolver : Option Resolver}
    (ignores : ∀ answer ∈ resolver, IgnoresResolutions answer) (draft : Draft)
    (entry : ClaimKey × List Claim) :
    viewKey first constraints resolver draft entry =
      viewKey second constraints resolver draft entry := by
  have selectable : selectableConflicts first entry.1 = selectableConflicts second entry.1 := by
    rw [selectableConflicts, selectableConflicts, agrees.conflictsByKey]
  unfold viewKey
  rw [selectable]
  cases selectableConflicts second entry.1 with
  | nil =>
      simp only [viewUndisputed, agrees.predicateRegistry]
  | cons conflict _ =>
      have suggested : ∀ draft, viewSuggested first constraints resolver draft entry.1 conflict =
          viewSuggested second constraints resolver draft entry.1 conflict := by
        intro draft
        cases resolver with
        | none => rfl
        | some resolver =>
            have answers := ignores resolver rfl conflict constraints first second agrees.same
            simp only [viewSuggested, answers]
      rw [← isScope] at agrees
      simp only [viewConflicted, committedChoice_agrees agrees, suggested]

theorem viewFinding_agrees (agrees : first.AgreesOn scope second) (draft : Draft)
    (conflict : ConflictSet) :
    viewFinding first scope draft conflict = viewFinding second scope draft conflict := by
  rcases resolutionLane_agrees agrees conflict with ⟨sameLane, visible⟩
  unfold viewFinding Draft.excludeRejected
  rw [committedChoice_agrees agrees, ← sameLane, agrees.effective _ visible]

/-- States that agree on the lanes of a scope have the same view of it. -/
theorem buildView_agrees (agrees : first.AgreesOn scope second) {constraints : ViewConstraints}
    (isScope : constraints.scope = scope) {resolver : Option Resolver}
    (ignores : ∀ answer ∈ resolver, IgnoresResolutions answer) :
    buildView first constraints resolver = buildView second constraints resolver := by
  have keys : viewKey first constraints resolver = viewKey second constraints resolver := by
    funext draft entry
    exact viewKey_agrees agrees isScope ignores draft entry
  have findings : viewFinding first constraints.scope = viewFinding second constraints.scope := by
    funext draft conflict
    rw [isScope]
    exact viewFinding_agrees agrees draft conflict
  have start : Draft.start first = Draft.start second := by
    rw [Draft.start, Draft.start, agrees.conflicts]
  rw [buildView, buildView, keys, findings, start, agrees.activeClaimsByKey, agrees.conflicts]

end Agreement

/-! ## Resolutions of other scopes -/

/-- Resolutions and lifecycle events of other scopes.  Neither the operations nor the records
have an id that anything else has. -/
structure AreForeign (scope : Option String) (log : OpLog) (added : List Op) : Prop where
  foreign : ∀ op ∈ added, op.isOfOtherScope scope = true
  freshIds : ∀ op ∈ added, log.ops[op.opId]? = none
  distinctIds : (added.map Op.opId).Nodup
  freshRecords : ∀ op ∈ added, ∀ other ∈ log.iterOps, op.sharesRecordId other = false
  distinctRecords : added.Pairwise fun op other => op.sharesRecordId other = false

theorem sharesRecordId_comm (first second : Op) :
    first.sharesRecordId second = second.sharesRecordId first := by
  cases first with
  | resolutionAdded header resolution =>
      cases second with
      | resolutionAdded other second => simp [Op.sharesRecordId, eq_comm]
      | _ => rfl
  | conflictLifecycleEventAdded header event =>
      cases second with
      | conflictLifecycleEventAdded other second => simp [Op.sharesRecordId, eq_comm]
      | _ => rfl
  | _ => cases second <;> rfl

section Logs

variable {log wide : OpLog} {added : List Op} {scope : Option String}

/-- The operations of a log to which new ones are added. -/
theorem OpLog.mem_addAll (fresh : ∀ op ∈ added, log.ops[op.opId]? = none)
    (distinct : (added.map Op.opId).Nodup)
    (adding : added.foldlM (fun log op => (log.add op).map Prod.fst) log = .ok wide) (op : Op) :
    op ∈ wide.iterOps ↔ op ∈ log.iterOps ∨ op ∈ added := by
  induction added generalizing log with
  | nil =>
      rw [List.foldlM_nil, pure_ok_iff] at adding
      simp [adding]
  | cons head rest inductionHypothesis =>
      have freshHead := fresh head List.mem_cons_self
      rw [List.foldlM_cons, bind_of_ok (OpLog.add_fresh freshHead)] at adding
      rw [List.map_cons, List.nodup_cons] at distinct
      have freshRest : ∀ other ∈ rest, (log.insert head).ops[other.opId]? = none := by
        intro other listed
        rw [OpLog.insert, Dict.get_insert, if_neg]
        · exact fresh other (List.mem_cons_of_mem _ listed)
        · intro same
          exact distinct.1 (List.mem_map.mpr ⟨other, listed, same.symm⟩)
      rw [inductionHypothesis freshRest distinct.2 adding, OpLog.mem_insert freshHead,
        List.mem_cons, or_assoc]

/-- The log is what remains when the added operations are left out again. -/
theorem AreForeign.parts (foreign : AreForeign scope log added)
    (adding : added.foldlM (fun log op => (log.add op).map Prod.fst) log = .ok wide) :
    log.iterOps = wide.iterOps.filter fun op => !decide (op ∈ added) := by
  apply eq_of_strictly_sorted log.iterOps_sorted (wide.iterOps_sorted.filter _)
  intro op
  rw [List.mem_filter, OpLog.mem_addAll foreign.freshIds foreign.distinctIds adding,
    Bool.not_eq_true', decide_eq_false_iff_not]
  constructor
  · intro listed
    refine ⟨Or.inl listed, fun isAdded => ?_⟩
    have found := (OpLog.mem_iterOps log op).mp listed
    rw [foreign.freshIds op isAdded] at found
    cases found
  · intro both
    exact both.1.resolve_right both.2

theorem AreForeign.addsScoped (foreign : AreForeign scope log added)
    (adding : added.foldlM (fun log op => (log.add op).map Prod.fst) log = .ok wide) :
    AddsScoped (fun op => decide (op ∈ added)) scope wide.iterOps := by
  constructor
  · exact wide.iterOps_nodup
  · intro op _ isAdded
    exact foreign.foreign op (of_decide_eq_true isAdded)
  · intro first _ second listed different isAdded
    have inAdded := of_decide_eq_true isAdded
    rcases (OpLog.mem_addAll foreign.freshIds foreign.distinctIds adding second).mp listed with
      earlier | alsoAdded
    · exact foreign.freshRecords first inAdded second earlier
    · have : Std.Symm fun op other : Op => op.sharesRecordId other = false := by
        constructor
        intro op other apart
        rw [sharesRecordId_comm]
        exact apart
      exact foreign.distinctRecords.forall inAdded alsoAdded different

end Logs

/-- The view of what a log amounts to. -/
def materializedView (log : OpLog) (registry : PredicateRegistry)
    (detectors : List ConflictDetector) (validAt : Option String) (context : JSONObject)
    (constraints : ViewConstraints) (resolver : Option Resolver) : Result Projection := do
  let state ← materialize log registry detectors validAt context
  buildView state constraints resolver

/-- Resolutions of other scopes leave the view of a scope as it is, unless they give a bound
that is no timestamp and there is an instant to compare it with: then there is no view.  They
never bring about a view that was not there before. -/
theorem scoped_view_iff {log wide : OpLog} {added : List Op} {constraints : ViewConstraints}
    (foreign : AreForeign constraints.scope log added)
    (adding : added.foldlM (fun log op => (log.add op).map Prod.fst) log = .ok wide)
    (registry : PredicateRegistry) (detectors : List ConflictDetector) (validAt : Option String)
    (context : JSONObject) {resolver : Option Resolver}
    (ignores : ∀ answer ∈ resolver, IgnoresResolutions answer) :
    (∀ projection,
      materializedView log registry detectors validAt context constraints resolver =
          .ok projection →
        (materializedView wide registry detectors validAt context constraints resolver =
            .ok projection ↔
          (validAt = none ∨ ∀ header resolution, Op.resolutionAdded header resolution ∈ added →
            ∀ bound ∈ resolution.givenBounds, Parses bound))) ∧
      ∀ projection,
        materializedView wide registry detectors validAt context constraints resolver =
            .ok projection →
          materializedView log registry detectors validAt context constraints resolver =
            .ok projection := by
  have parts := foreign.parts adding
  have adds := foreign.addsScoped adding
  have back : ∀ state projection,
      materialize wide registry detectors validAt context = .ok state →
      (materializedView log registry detectors validAt context constraints resolver =
          .ok projection ↔ buildView state constraints resolver = .ok projection) := by
    intro state projection run
    rcases materialize_without parts adds run with ⟨narrowState, narrowRun, agrees⟩
    rw [materializedView, bind_of_ok narrowRun, buildView_agrees agrees rfl ignores]
  constructor
  · intro projection view
    rcases bind_ok_iff.mp view with ⟨narrowState, narrowRun, _⟩
    have readable := materialize_with_iff parts adds narrowRun
    have members : (∀ header resolution, Op.resolutionAdded header resolution ∈ wide.iterOps →
          decide (Op.resolutionAdded header resolution ∈ added) = true →
            ∀ bound ∈ resolution.givenBounds, Parses bound) ↔
        ∀ header resolution, Op.resolutionAdded header resolution ∈ added →
          ∀ bound ∈ resolution.givenBounds, Parses bound := by
      constructor
      · intro each header resolution isAdded
        exact each header resolution ((OpLog.mem_addAll foreign.freshIds foreign.distinctIds
          adding _).mpr (Or.inr isAdded)) (decide_eq_true isAdded)
      · intro each header resolution _ isAdded
        exact each header resolution (of_decide_eq_true isAdded)
    rw [members] at readable
    rw [← readable]
    constructor
    · intro wideView
      rcases bind_ok_iff.mp wideView with ⟨state, run, _⟩
      exact ⟨state, run⟩
    · intro success
      rcases success with ⟨state, run⟩
      rw [materializedView, bind_of_ok run]
      exact (back state projection run).mp view
  · intro projection wideView
    rcases bind_ok_iff.mp wideView with ⟨state, run, built⟩
    exact (back state projection run).mpr built

end Theory

/-! ## A resolution of another scope -/

section Example

attribute [local instance] Reference.shortRuntime

/-- A resolution of the scope `task`, until a given text. -/
def taskOps (validUntil : String) : List Op :=
  [.resolutionAdded ⟨"op-d", "r", "t"⟩ (Reference.scopedSelection "d" "b" "a" "task" validUntil
    Reference.d_ne_empty Reference.b_ne_a)]

private theorem disputed_without_task : (Reference.logOf disputedOps).ops["op-d"]? = none := by
  decide +kernel

private theorem taskOps_foreign (validUntil : String) :
    AreForeign none (Reference.logOf disputedOps) (taskOps validUntil) := by
  constructor
  · intro op listed
    rw [List.mem_singleton.mp listed]
    rfl
  · intro op listed
    rw [List.mem_singleton.mp listed]
    exact disputed_without_task
  · exact List.nodup_singleton _
  · intro op listed other present
    rw [List.mem_singleton.mp listed]
    cases other with
    | resolutionAdded header resolution =>
        have ops : (Reference.logOf disputedOps).iterOps = disputedOps := by decide +kernel
        rw [ops] at present
        simp [disputedOps] at present
    | _ => rfl
  · exact List.pairwise_singleton _ _

private theorem taskOps_added (validUntil : String) :
    (taskOps validUntil).foldlM (fun log op => (log.add op).map Prod.fst)
        (Reference.logOf disputedOps) =
      .ok (Reference.logOf (disputedOps ++ taskOps validUntil)) := by
  have inserted : Reference.logOf (disputedOps ++ taskOps validUntil) =
      (taskOps validUntil).foldl OpLog.insert (Reference.logOf disputedOps) := by
    rw [Reference.logOf, List.foldl_append]
    rfl
  rw [inserted, taskOps, List.foldlM_cons, bind_of_ok (OpLog.add_fresh disputed_without_task)]
  rfl

/-- A resolution of another scope that holds until no timestamp takes the view away. -/
theorem scoped_resolution_takes_view :
    AreForeign none (Reference.logOf disputedOps) (taskOps "soon") ∧
    (taskOps "soon").foldlM (fun log op => (log.add op).map Prod.fst)
      (Reference.logOf disputedOps) = .ok (Reference.logOf (disputedOps ++ taskOps "soon")) ∧
    (∃ projection, materializedView (Reference.logOf disputedOps) .empty []
      (some Reference.timestamp) ∅ (.ofScope none) none = .ok projection) ∧
    ¬∃ projection, materializedView (Reference.logOf (disputedOps ++ taskOps "soon")) .empty []
      (some Reference.timestamp) ∅ (.ofScope none) none = .ok projection := by
  refine ⟨taskOps_foreign "soon", taskOps_added "soon", ?_, ?_⟩
  · have computed : (materializedView (Reference.logOf disputedOps) .empty []
        (some Reference.timestamp) ∅ (.ofScope none) none).isOk = true := by
      decide +kernel
    cases view : materializedView (Reference.logOf disputedOps) .empty []
        (some Reference.timestamp) ∅ (.ofScope none) none with
    | error failure =>
        rw [view] at computed
        cases computed
    | ok projection => exact ⟨projection, rfl⟩
  · have computed : (materializedView (Reference.logOf (disputedOps ++ taskOps "soon")) .empty []
        (some Reference.timestamp) ∅ (.ofScope none) none).isOk = false := by
      decide +kernel
    intro built
    rcases built with ⟨projection, view⟩
    rw [view] at computed
    cases computed

private theorem taskOps_parse (header : OpHeader) (resolution : ResolutionRecord)
    (listed : Op.resolutionAdded header resolution ∈ taskOps Reference.timestamp) :
    ∀ bound ∈ resolution.givenBounds, Parses bound := by
  injection List.mem_singleton.mp listed with _ isTask
  intro bound given
  have bounds : resolution.givenBounds = [Reference.timestamp] := by
    rw [isTask]
    decide +kernel
  rw [bounds] at given
  rw [List.mem_singleton.mp given]
  exact Reference.ReadsTimestamp.parses

/-- One that holds until a timestamp leaves the view as it is. -/
theorem scoped_view_iff_task :
    ∃ projection,
      materializedView (Reference.logOf disputedOps) .empty [] (some Reference.timestamp) ∅
        (.ofScope none) (some insistent) = .ok projection ∧
      materializedView (Reference.logOf (disputedOps ++ taskOps Reference.timestamp)) .empty []
        (some Reference.timestamp) ∅ (.ofScope none) (some insistent) = .ok projection := by
  have computed : (materializedView (Reference.logOf disputedOps) .empty []
      (some Reference.timestamp) ∅ (.ofScope none) (some insistent)).isOk = true := by
    decide +kernel
  have ignores : ∀ answer ∈ some insistent, IgnoresResolutions answer := by
    intro answer isAnswer conflict constraints first second _
    rw [← Option.mem_some_iff.mp isAnswer]
    simp only [insistent]
  cases view : materializedView (Reference.logOf disputedOps) .empty []
      (some Reference.timestamp) ∅ (.ofScope none) (some insistent) with
  | error failure =>
      rw [view] at computed
      cases computed
  | ok projection =>
      have same := (scoped_view_iff (taskOps_foreign Reference.timestamp)
        (taskOps_added Reference.timestamp) .empty [] (some Reference.timestamp) ∅ ignores).1
        projection view
      exact ⟨projection, rfl, same.mpr (Or.inr taskOps_parse)⟩

end Example

end Statefuse
