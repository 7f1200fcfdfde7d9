import Statefuse.Materialize.Frame

/-!
# What a delta accounts for

A delta accounts for two states when every difference between them is in it.  A step
from a coherent state accounts for its result, deltas of consecutive steps account for
the ends together, and what full materialization computes is coherent.
-/

namespace Statefuse

open Foundation

variable [Runtime]

/-- The conflicts that touch a key. -/
def MemoryState.conflictsAt (state : MemoryState) (key : ClaimKey) : List ConflictSet :=
  state.conflicts.filter fun conflict => key ∈ conflict.keys

def MemoryState.hasConflict (state : MemoryState) (conflictId : String) : Prop :=
  ∃ conflict ∈ state.conflicts, conflict.conflictId = conflictId

namespace MaterializationDelta

def isEmpty (delta : MaterializationDelta) : Bool :=
  delta.processedOpIds.isEmpty && !delta.fullRebuild

/-- Every difference between the states is in the delta. -/
structure Accounts (delta : MaterializationDelta) (first second : MemoryState) : Prop where
  active : ∀ key : ClaimKey, key ∉ delta.affectedKeys →
    first.activeClaimsByKey[key]? = second.activeClaimsByKey[key]?
  conflicts : ∀ key : ClaimKey, key ∉ delta.affectedKeys →
    first.conflictsAt key = second.conflictsAt key
  lost : ∀ conflictId, first.hasConflict conflictId → ¬second.hasConflict conflictId →
    conflictId ∈ delta.previousConflictIds ∨ conflictId ∈ delta.currentConflictIds
  gained : ∀ conflictId, second.hasConflict conflictId → ¬first.hasConflict conflictId →
    conflictId ∈ delta.previousConflictIds ∨ conflictId ∈ delta.currentConflictIds
  statuses : ∀ lane : Lane, lane.conflictRef ∉ delta.affectedConflictRefs →
    first.lifecycleStatusByConflictRefAndScope[lane]? =
      second.lifecycleStatusByConflictRefAndScope[lane]?
  empty : delta.isEmpty = true → first = second

end MaterializationDelta

/-- Every difference between the states is in one of the deltas. -/
structure AccountTogether (deltas : List MaterializationDelta) (first second : MemoryState) :
    Prop where
  active : ∀ key : ClaimKey, (∀ delta ∈ deltas, key ∉ delta.affectedKeys) →
    first.activeClaimsByKey[key]? = second.activeClaimsByKey[key]?
  conflicts : ∀ key : ClaimKey, (∀ delta ∈ deltas, key ∉ delta.affectedKeys) →
    first.conflictsAt key = second.conflictsAt key
  lost : ∀ conflictId, first.hasConflict conflictId → ¬second.hasConflict conflictId →
    ∃ delta ∈ deltas, conflictId ∈ delta.previousConflictIds ∨
      conflictId ∈ delta.currentConflictIds
  gained : ∀ conflictId, second.hasConflict conflictId → ¬first.hasConflict conflictId →
    ∃ delta ∈ deltas, conflictId ∈ delta.previousConflictIds ∨
      conflictId ∈ delta.currentConflictIds
  statuses : ∀ lane : Lane, (∀ delta ∈ deltas, lane.conflictRef ∉ delta.affectedConflictRefs) →
    first.lifecycleStatusByConflictRefAndScope[lane]? =
      second.lifecycleStatusByConflictRefAndScope[lane]?
  empty : (∀ delta ∈ deltas, delta.isEmpty = true) → first = second

namespace AccountTogether

variable {deltas : List MaterializationDelta} {delta : MaterializationDelta}
  {first second third : MemoryState}

theorem nil (state : MemoryState) : AccountTogether [] state state :=
  ⟨fun _ _ => rfl, fun _ _ => rfl, fun _ present absent => absurd present absent,
    fun _ present absent => absurd present absent, fun _ _ => rfl, fun _ => rfl⟩

/-- One more step. -/
theorem append (together : AccountTogether deltas first second)
    (accounts : delta.Accounts second third) : AccountTogether (deltas ++ [delta]) first third := by
  have before : ∀ {property : MaterializationDelta → Prop},
      (∀ other ∈ deltas ++ [delta], property other) → ∀ other ∈ deltas, property other :=
    fun all other member => all other (List.mem_append_left _ member)
  have last : ∀ {property : MaterializationDelta → Prop},
      (∀ other ∈ deltas ++ [delta], property other) → property delta :=
    fun all => all delta (List.mem_append_right _ List.mem_cons_self)
  refine ⟨?_, ?_, ?_, ?_, ?_, ?_⟩
  · intro key unmarked
    exact (together.active key (before unmarked)).trans (accounts.active key (last unmarked))
  · intro key unmarked
    exact (together.conflicts key (before unmarked)).trans (accounts.conflicts key (last unmarked))
  · intro conflictId present absent
    by_cases between : second.hasConflict conflictId
    · exact ⟨delta, by simp, accounts.lost conflictId between absent⟩
    · obtain ⟨other, member, reported⟩ := together.lost conflictId present between
      exact ⟨other, List.mem_append_left _ member, reported⟩
  · intro conflictId present absent
    by_cases between : second.hasConflict conflictId
    · obtain ⟨other, member, reported⟩ := together.gained conflictId between absent
      exact ⟨other, List.mem_append_left _ member, reported⟩
    · exact ⟨delta, by simp, accounts.gained conflictId present between⟩
  · intro lane unmarked
    exact (together.statuses lane (before unmarked)).trans (accounts.statuses lane (last unmarked))
  · intro idle
    exact (together.empty (before idle)).trans (accounts.empty (last idle))

end AccountTogether

namespace MemoryState.Coherent

variable {state : MemoryState}

theorem mem_conflicts (coherent : state.Coherent) (conflict : ConflictSet) :
    conflict ∈ state.conflicts ↔
      ∃ key : ClaimKey, state.conflictsByKey[key]? = some [conflict] := by
  rw [coherent.conflicts]
  exact coherent.tables.listed.mem_values conflict

/-- The conflicts that touch a key are those filed under it. -/
theorem conflictsAt_eq (coherent : state.Coherent) (key : ClaimKey) :
    state.conflictsAt key = state.conflictsByKey[key]?.getD [] := by
  obtain ⟨report, listed, reported, direct⟩ := coherent.tables.at_key key
  have ordered : state.conflicts.Pairwise (fun first second =>
      first.conflictId < second.conflictId) := by
    rw [coherent.conflicts]
    exact coherent.tables.listed.values_distinct
  rw [listed]
  refine eq_of_strictly_sorted (ordered.filter _) ?_ ?_
  · cases report with
    | none => exact List.Pairwise.nil
    | some conflict => exact List.pairwise_singleton _ _
  · intro conflict
    rw [MemoryState.conflictsAt, List.mem_filter, decide_eq_true_eq, coherent.mem_conflicts,
      Option.mem_toList]
    constructor
    · rintro ⟨⟨place, found⟩, touches⟩
      obtain ⟨_, same, isDirect⟩ := coherent.tables.single place _ found
      rw [List.cons.injEq] at same
      rw [← same.1] at isDirect
      obtain ⟨_, _, finding⟩ := isDirect
      rw [finding.keys, List.mem_singleton] at touches
      rw [← touches] at found
      exact (reported conflict).mp found
    · intro isReport
      obtain ⟨_, _, finding⟩ := direct conflict isReport
      refine ⟨⟨key, (reported conflict).mpr isReport⟩, ?_⟩
      rw [finding.keys]
      exact List.mem_singleton_self key

theorem hasConflict_iff (coherent : state.Coherent) (conflictId : String) :
    state.hasConflict conflictId ↔ ∃ (key : ClaimKey) (conflict : ConflictSet),
      state.conflictsByKey[key]? = some [conflict] ∧ conflict.conflictId = conflictId := by
  constructor
  · rintro ⟨conflict, listed, same⟩
    obtain ⟨key, found⟩ := (coherent.mem_conflicts conflict).mp listed
    exact ⟨key, conflict, found, same⟩
  · rintro ⟨key, conflict, found, same⟩
    exact ⟨conflict, (coherent.mem_conflicts conflict).mpr ⟨key, found⟩, same⟩

end MemoryState.Coherent

/-! ## One step -/

section Step

variable {state next : MemoryState} {entered : Working} {update : KeyUpdate}
  {activeDecisions : List Decision}

theorem tidy_get (working : Working) (key : ClaimKey) :
    working.tidyActive.activeClaimsByKey[key]? =
      (working.activeClaimsByKey[key]?.map (sortBy Claim.claimId)).filter
        (fun claims => !claims.isEmpty) := by
  rw [Working.tidyActive, Dict.get_filter, sortGroups, Dict.get_map]

/-- The first loop, as a passage from the state to the detectors. -/
theorem passage_of_enter (collisionFree : CollisionFree) (coherent : state.Coherent)
    (leaves : (Working.ofState state).Leaves entered) (activeDecisions : List Decision) :
    Passage state (entered.tidyActive.context state.predicateRegistry activeDecisions) := by
  have among := leaves.among coherent.among
  have tidy := tidy_get entered
  have members : ∀ (key : ClaimKey),
      ∀ claim ∈ entered.tidyActive.activeClaimsByKey[key]?.getD [],
        claim ∈ entered.activeClaimsByKey[key]?.getD [] := by
    intro key claim listed
    rw [tidy] at listed
    cases found : entered.activeClaimsByKey[key]? with
    | none =>
        rw [found] at listed
        cases listed
    | some claims =>
        rw [found, Option.map_some, Option.filter] at listed
        split at listed
        · exact mem_sortBy.mp listed
        · cases listed
  exact {
    collisionFree := collisionFree
    coherent := coherent
    sameRegistry := rfl
    sorted := by
      intro key claims found
      change entered.tidyActive.activeClaimsByKey[key]? = some claims at found
      rw [tidy, Option.filter_eq_some_iff, Option.map_eq_some_iff] at found
      obtain ⟨⟨unsorted, bound, same⟩, nonempty⟩ := found
      rw [← same] at nonempty ⊢
      refine ⟨by simpa using nonempty, sortBy_strict (among.distinct key unsorted bound)⟩
    keyed := fun key claim listed => (among.of_getD (members key claim listed)).1
    immutable := by
      intro key claim listed other known same
      obtain ⟨_, bound⟩ := among.of_getD (members key claim listed)
      obtain ⟨_, old⟩ := coherent.among.of_getD known
      have kept := leaves.bound other.claimId other old
      rw [same, bound, Option.some.injEq] at kept
      exact kept.symm }

/-- The active claims of an unmarked key are as they were. -/
private theorem tidy_untouched (coherent : state.Coherent)
    (leaves : (Working.ofState state).Leaves entered) {key : ClaimKey}
    (unmarked : key ∉ entered.affectedKeys) :
    entered.tidyActive.activeClaimsByKey[key]? = state.activeClaimsByKey[key]? := by
  have same : entered.activeClaimsByKey[key]? = state.activeClaimsByKey[key]? :=
    leaves.untouched key unmarked
  rw [tidy_get, same]
  cases found : state.activeClaimsByKey[key]? with
  | none => rfl
  | some claims =>
      obtain ⟨nonempty, sorted⟩ := coherent.sorted key claims found
      rw [Option.map_some, sortBy_of_pairwise (sorted.imp (fun below => le_of_lt below)),
        Option.filter, if_pos (by simpa using nonempty)]

/-- The second loop starts from the state itself. -/
private theorem follows_start (coherent : state.Coherent) (working : Working)
    (context : ConflictDetectionContext) :
    (KeyUpdate.ofState state working).Follows state context [] where
  tables := coherent.tables
  silent := by simp
  untouched := fun _ _ => ⟨rfl, rfl⟩
  indexed := by simp
  indexes := by simp
  previousIds := by simp
  currentIds := by simp

theorem follows_of_keys {context : ConflictDetectionContext} (passage : Passage state context)
    (working : Working) {keys : List ClaimKey} (distinct : keys.Nodup)
    (run : keys.foldlM (updateKey context state.activeClaimsByKey)
      (KeyUpdate.ofState state working) = .ok update) :
    update.Follows state context keys ∧
      ∀ key ∈ keys, ∀ claim ∈ context.activeClaimsByKey[key]?.getD [], Readable claim := by
  refine foldlM_invariant_split (fun done (update : KeyUpdate) =>
    update.Follows state context done ∧
      ∀ key ∈ done, ∀ claim ∈ context.activeClaimsByKey[key]?.getD [], Readable claim)
    keys _ _ run ⟨follows_start passage.coherent working context, by simp⟩ ?_
  rintro done key rest update next split ⟨follows, read⟩ stepped
  rw [split] at distinct
  have fresh : key ∉ done := by
    intro member
    exact (List.nodup_append.mp distinct).2.2 key member key List.mem_cons_self rfl
  have readable := readable_of_round passage follows fresh stepped
  obtain ⟨other, computed, after⟩ := updateKey_follows passage follows fresh readable
  rw [stepped] at computed
  injection computed with same
  rw [← same] at after
  refine ⟨after, ?_⟩
  intro place member
  rcases List.mem_append.mp member with earlier | last
  · exact read place earlier
  · rw [List.mem_singleton.mp last]
    exact readable

theorem keys_follow {context : ConflictDetectionContext} (passage : Passage state context)
    (working : Working) {keys : List ClaimKey} (distinct : keys.Nodup)
    (readable : ∀ key ∈ keys, ∀ claim ∈ context.activeClaimsByKey[key]?.getD [],
      Readable claim) :
    ∃ update, keys.foldlM (updateKey context state.activeClaimsByKey)
      (KeyUpdate.ofState state working) = .ok update := by
  obtain ⟨update, run, _⟩ := exists_foldlM_invariant
    (fun done (update : KeyUpdate) => update.Follows state context done) keys
    (KeyUpdate.ofState state working) (follows_start passage.coherent working context) (by
      intro done key rest update split follows
      rw [split] at distinct
      have fresh : key ∉ done := by
        intro member
        exact (List.nodup_append.mp distinct).2.2 key member key List.mem_cons_self rfl
      exact updateKey_follows passage follows fresh (readable key (by rw [split]; simp)))
  exact ⟨update, run⟩

/-- The third loop changes the lanes of its references only, and it always succeeds. -/
theorem lanes_untouched {resolutionsById : Dict String ResolutionRecord}
    {resolutionsByRef : Dict String (List ResolutionRecord)}
    {lifecycleByRef : Dict String (List ConflictLifecycleEvent)}
    {conflictsByRef : Dict String ConflictSet} (own : OwnHistories resolutionsByRef lifecycleByRef)
    (refs : List String) (start : LifecycleFold) :
    ∃ result, refs.foldlM (replaceLifecycleFoldForRef resolutionsById resolutionsByRef
        lifecycleByRef conflictsByRef) start = .ok result ∧
      ∀ lane : Lane, lane.conflictRef ∉ refs → result.view lane = start.view lane := by
  refine exists_foldlM_invariant (fun done (fold : LifecycleFold) =>
    ∀ lane : Lane, lane.conflictRef ∉ done → fold.view lane = start.view lane) refs start
    (fun _ _ => rfl) ?_
  intro done conflictRef rest fold _ kept
  obtain ⟨next, run, _, others⟩ := @replaceLifecycleFoldForRef_ok _ resolutionsById
    resolutionsByRef lifecycleByRef conflictsByRef fold conflictRef
  refine ⟨next, run, ?_⟩
  intro lane absent
  rw [List.mem_append, List.mem_singleton, not_or] at absent
  rw [others lane absent.2 (own.resolutions conflictRef) (own.events conflictRef)]
  exact kept lane absent.1

/-- The state after the three loops is coherent again. -/
private theorem coherent_of_loops (coherent : state.Coherent)
    (leaves : (Working.ofState state).Leaves entered)
    (passage : Passage state
      (entered.tidyActive.context state.predicateRegistry activeDecisions))
    (follows : update.Follows state
      (entered.tidyActive.context state.predicateRegistry activeDecisions)
      entered.affectedKeys.toList) (lifecycle : LifecycleFold) :
    (entered.tidyActive.state state.predicateRegistry activeDecisions update
      lifecycle).Coherent := by
  have among := leaves.among coherent.among
  have untouched : ∀ {key : ClaimKey}, key ∉ entered.affectedKeys.toList →
      entered.tidyActive.activeClaimsByKey[key]? = state.activeClaimsByKey[key]? :=
    fun absent => tidy_untouched coherent leaves (fun marked =>
      absent ((PySet.mem_toList _ _).mpr marked))
  refine ⟨⟨among.keyed, ?_, ?_⟩, leaves.histories coherent.histories, passage.sorted,
    follows.tables, ?_, ?_, ?_, ?_⟩
  · intro key claims found claim listed
    change entered.tidyActive.activeClaimsByKey[key]? = some claims at found
    rw [tidy_get, Option.filter_eq_some_iff, Option.map_eq_some_iff] at found
    obtain ⟨⟨unsorted, bound, same⟩, _⟩ := found
    rw [← same, mem_sortBy] at listed
    exact among.known key unsorted bound claim listed
  · intro key claims found
    exact ((passage.sorted key claims found).2).imp (fun below => ne_of_lt below)
  · intro key absent
    by_cases marked : key ∈ entered.affectedKeys.toList
    · exact follows.silent key marked absent
    · have same := untouched marked
      change entered.tidyActive.activeClaimsByKey[key]? = none at absent
      change update.conflictsByKey[key]? = none
      rw [(follows.untouched key marked).1]
      exact coherent.silent key (by rw [← same]; exact absent)
  · exact sortBy_of_pairwise
      (follows.tables.listed.values_distinct.imp (fun below => le_of_lt below))
  · intro key
    by_cases marked : key ∈ entered.affectedKeys.toList
    · exact follows.indexed key marked
    · have same := untouched marked
      change key ∈ update.indexes ↔ key ∈ entered.tidyActive.activeClaimsByKey
      rw [Dict.mem_iff, Dict.mem_iff, (follows.untouched key marked).2, same, ← Dict.mem_iff,
        ← Dict.mem_iff]
      exact coherent.indexed key
  · intro key index found
    by_cases marked : key ∈ entered.affectedKeys.toList
    · exact follows.indexes key marked index found
    · change update.indexes[key]? = some index at found
      rw [(follows.untouched key marked).2] at found
      have indexed := coherent.indexes key index found
      rw [← untouched marked] at indexed
      exact indexed

private theorem accounts_of_loops (coherent : state.Coherent)
    (leaves : (Working.ofState state).Leaves entered)
    (follows : update.Follows state
      (entered.tidyActive.context state.predicateRegistry activeDecisions)
      entered.affectedKeys.toList) {lifecycle : LifecycleFold}
    (after : (entered.tidyActive.state state.predicateRegistry activeDecisions update
      lifecycle).Coherent)
    (lanes : ∀ lane : Lane, lane.conflictRef ∉ update.affectedConflictRefs.toList →
      lifecycle.view lane = state.lifecycle.view lane) {ops : List Op} (some : ops ≠ []) :
    (entered.tidyActive.delta ops update).Accounts state
      (entered.tidyActive.state state.predicateRegistry activeDecisions update lifecycle) := by
  have kept : ∀ key : ClaimKey, key ∉ entered.affectedKeys.toList →
      update.conflictsByKey[key]? = state.conflictsByKey[key]? :=
    fun key absent => (follows.untouched key absent).1
  refine ⟨?_, ?_, ?_, ?_, ?_, ?_⟩
  · intro key unmarked
    exact (tidy_untouched coherent leaves (fun marked =>
      unmarked ((PySet.mem_toList _ _).mpr marked))).symm
  · intro key unmarked
    rw [coherent.conflictsAt_eq, after.conflictsAt_eq]
    change state.conflictsByKey[key]?.getD [] = update.conflictsByKey[key]?.getD []
    rw [kept key unmarked]
  · intro conflictId present absent
    obtain ⟨key, conflict, found, same⟩ := (coherent.hasConflict_iff conflictId).mp present
    by_cases marked : key ∈ entered.affectedKeys.toList
    · rw [← same]
      exact Or.inl ((PySet.mem_toList _ _).mpr (follows.previousIds key marked conflict found))
    · refine absurd ((after.hasConflict_iff conflictId).mpr ⟨key, conflict, ?_, same⟩) absent
      exact (kept key marked).trans found
  · intro conflictId present absent
    obtain ⟨key, conflict, found, same⟩ := (after.hasConflict_iff conflictId).mp present
    by_cases marked : key ∈ entered.affectedKeys.toList
    · rw [← same]
      exact Or.inr ((PySet.mem_toList _ _).mpr (follows.currentIds key marked conflict found))
    · refine absurd ((coherent.hasConflict_iff conflictId).mpr ⟨key, conflict, ?_, same⟩) absent
      exact (kept key marked).symm.trans found
  · intro lane unmarked
    exact (congrArg LaneView.status (lanes lane unmarked)).symm
  · intro isEmpty
    simp [MaterializationDelta.isEmpty, Working.delta, some] at isEmpty

/-- A step from a coherent state reaches one, and its delta accounts for the difference. -/
theorem applyOperations_accounts (collisionFree : CollisionFree) (coherent : state.Coherent)
    {ops : List Op} {delta : MaterializationDelta}
    (run : applyOperationsIncrementally state ops [] = .ok (next, delta)) :
    next.Coherent ∧ delta.Accounts state next := by
  by_cases some : ops = []
  · rw [applyOperationsIncrementally, if_neg (by simp), if_pos some] at run
    injection run with run
    injection run with sameState sameDelta
    rw [← sameState]
    exact ⟨coherent, fun _ _ => rfl, fun _ _ => rfl, fun _ present absent => absurd present absent,
      fun _ present absent => absurd present absent, fun _ _ => rfl, fun _ => rfl⟩
  · rw [applyOperationsIncrementally_ok_iff some] at run
    obtain ⟨entered, enters, activeDecisions, _, update, updates, lifecycle, folds, same⟩ := run
    have leaves := Working.enter_leaves enters
    have passage := passage_of_enter collisionFree coherent leaves activeDecisions
    have distinct : entered.affectedKeys.toList.Nodup :=
      (PySet.toList_sorted _).imp (fun below => ne_of_lt below)
    obtain ⟨follows, _⟩ := follows_of_keys passage entered.tidyActive distinct updates
    obtain ⟨result, folded, lanes⟩ := @lanes_untouched _ entered.tidyActive.resolutionsById
      entered.tidyActive.resolutionsByRef entered.tidyActive.lifecycleByRef update.conflictsByRef
      (leaves.histories coherent.histories) update.affectedConflictRefs.toList state.lifecycle
    have sameFold : (Except.ok lifecycle : Result _) = .ok result := folds.symm.trans folded
    injection sameFold with sameFold
    rw [← sameFold] at lanes
    have after := coherent_of_loops coherent leaves passage follows lifecycle
    injection same with sameState sameDelta
    rw [← sameState, ← sameDelta]
    exact ⟨after, accounts_of_loops coherent leaves follows after lanes some⟩

/-- The delta of a step is no rebuild. -/
theorem incremental_of_run {ops : List Op} {delta : MaterializationDelta}
    (run : applyOperationsIncrementally state ops [] = .ok (next, delta)) :
    delta.fullRebuild = false := by
  by_cases some : ops = []
  · rw [applyOperationsIncrementally, if_neg (by simp), if_pos some] at run
    injection run with run
    injection run with _ sameDelta
    rw [← sameDelta]
    rfl
  · rw [applyOperationsIncrementally_ok_iff some] at run
    obtain ⟨_, _, _, _, _, _, _, _, same⟩ := run
    injection same with _ sameDelta
    rw [← sameDelta]
    rfl

end Step

omit [Runtime] in
private theorem own_groupBy {α β : Type} [LinearOrder β] (order : α → β) (ref : α → String)
    (items : List α) (conflictRef : String) :
    ∀ record ∈ (sortGroups order (groupBy ref items))[conflictRef]?.getD [],
      ref record = conflictRef := by
  intro record listed
  rw [sortGroups, Dict.get_map] at listed
  cases found : (groupBy ref items)[conflictRef]? with
  | none =>
      rw [found] at listed
      cases listed
  | some group =>
      rw [found, Option.map_some, Option.getD_some, mem_sortBy] at listed
      refine ((mem_groupBy ref items conflictRef record).mp ?_).2
      rw [found]
      exact listed

/-- A key has exactly one conflict when there is a finding about it. -/
theorem single_iff {byKey : Dict ClaimKey (List ConflictSet)}
    {finding : ClaimKey → Result (Option ConflictSet)}
    (maps : Maps byKey (fun key items => ∃ conflict,
      finding key = .ok (some conflict) ∧ items = [conflict]))
    (key : ClaimKey) (conflict : ConflictSet) :
    byKey[key]? = some [conflict] ↔ finding key = .ok (some conflict) := by
  rw [maps key [conflict]]
  constructor
  · rintro ⟨other, found, same⟩
    rw [List.cons.injEq] at same
    rw [same.1]
    exact found
  · intro found
    exact ⟨conflict, found, rfl⟩

/-- What full materialization computes is coherent, whatever records the log binds. -/
theorem materialize_coherent (collisionFree : CollisionFree) {log : OpLog}
    {registry : PredicateRegistry} {state : MemoryState}
    (run : materialize log registry [] none ∅ = .ok state) :
    state.Coherent ∧ state.predicateRegistry = registry := by
  obtain ⟨active, distinctIds⟩ := materialize_active run
  obtain ⟨_, collected, collects, partition, _, decisions, _, conflicts, detected, indexes, built,
    lifecycle, _, same⟩ := materialize_ok_iff.mp run
  have gathers := collect_gathers collects
  subst same
  have readable : ∀ claim, (collected.state registry
      (sortGroups Claim.claimId (groupBy Claim.key partition.1)) partition.2 decisions conflicts
      indexes lifecycle).Applicable none ∅ claim → Readable claim :=
    fun claim isActive => readable_of_buildIndexes active built claim.key claim ⟨isActive, rfl⟩
  obtain ⟨contextGrouped, contextClaims⟩ := detection_grouped active distinctIds registry
    collected.evidenceById collected.sourcesById collected.derivationsById decisions
  obtain ⟨conflicts', detected', sorted, findings⟩ :=
    runConflictDetectors_direct collisionFree contextGrouped contextClaims readable
  have sameConflicts : (Except.ok conflicts : Result _) = .ok conflicts' :=
    detected.symm.trans detected'
  injection sameConflicts with sameConflicts
  subst sameConflicts
  obtain ⟨byId, _, listed, byKey, direct⟩ :=
    conflict_tables collisionFree contextGrouped sorted findings
  obtain ⟨indexes', built', present, indexed⟩ :=
    buildIndexes_indexFor contextGrouped readable direct
  have sameIndexes : (Except.ok indexes : Result _) = .ok indexes' := built.symm.trans built'
  injection sameIndexes with sameIndexes
  subst sameIndexes
  refine ⟨⟨⟨gathers.claims.keyed, ?_, ?_⟩, ⟨own_groupBy _ _ _, own_groupBy _ _ _⟩, ?_, ⟨?_, ?_⟩, ?_,
    listed, present, ?_⟩, rfl⟩
  · intro key claims found claim member
    obtain ⟨⟨bound, _⟩, sameKey⟩ := (active.exact key claim).mp ⟨claims, found, member⟩
    exact ⟨sameKey, bound⟩
  · intro key claims found
    exact (active.sorted key claims found).imp (fun below => ne_of_lt below)
  · exact fun key claims found => ⟨active.nonempty key claims found, active.sorted key claims found⟩
  · intro key group found
    obtain ⟨conflict, isFinding, same⟩ := (byKey key group).mp found
    obtain ⟨candidates, witnesses, _, finding⟩ := finding_spec contextGrouped isFinding
    exact ⟨conflict, same, candidates, witnesses, finding⟩
  · exact byId.congr (fun conflict => exists_congr fun key => (single_iff byKey key conflict).symm)
  · intro key absent
    cases found : (groupConflictsByKey conflicts)[key]? with
    | none => exact found
    | some group =>
        obtain ⟨conflict, isFinding, _⟩ := (byKey key group).mp found
        rw [finding_absent (by
          rw [Dict.mem_iff]
          rintro ⟨claims, located⟩
          exact absurd (located.symm.trans absent) (by simp))] at isFinding
        cases isFinding
  · intro key index found
    refine (indexed key index found).congr ?_
    intro claim
    exact (active.mem_getD key claim).symm

end Statefuse
