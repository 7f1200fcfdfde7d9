import Statefuse.Materialize.Gathering
import Statefuse.Materialize.IncrementalSpec

/-!
# What an incremental step leaves alone

The facts here hold of any tables that fit together, whatever records the log binds:
records that are written differently and equal under `==` are no exception.  The
first loop changes the active claims of the keys it marks and of no others
(`Working.Leaves`), the second loop the conflicts of these keys (`KeyUpdate.Follows`),
and the third loop the lanes of the references that the second one reports.
-/

namespace Statefuse

open Foundation

variable [Runtime]

/-- The active claims of a key are bound, belong to the key and differ in their ids. -/
structure ActiveAmong (claimsById : Dict String Claim) (active : Dict ClaimKey (List Claim)) :
    Prop where
  keyed : Keyed claimsById Claim.claimId
  known : ∀ (key : ClaimKey) (claims : List Claim), active[key]? = some claims →
    ∀ claim ∈ claims, claim.key = key ∧ claimsById[claim.claimId]? = some claim
  distinct : ∀ (key : ClaimKey) (claims : List Claim), active[key]? = some claims →
    claims.Pairwise (fun first second => first.claimId ≠ second.claimId)

/-- Histories are filed under their own conflict reference. -/
structure OwnHistories (resolutionsByRef : Dict String (List ResolutionRecord))
    (lifecycleByRef : Dict String (List ConflictLifecycleEvent)) : Prop where
  resolutions : ∀ (conflictRef : String), ∀ record ∈ resolutionsByRef[conflictRef]?.getD [],
    record.conflictRef = conflictRef
  events : ∀ (conflictRef : String), ∀ record ∈ lifecycleByRef[conflictRef]?.getD [],
    record.conflictRef = conflictRef

namespace ActiveAmong

variable {claimsById : Dict String Claim} {active : Dict ClaimKey (List Claim)}

theorem of_getD (among : ActiveAmong claimsById active) {key : ClaimKey} {claim : Claim}
    (listed : claim ∈ active[key]?.getD []) :
    claim.key = key ∧ claimsById[claim.claimId]? = some claim := by
  cases found : active[key]? with
  | none =>
      rw [found] at listed
      cases listed
  | some claims =>
      rw [found] at listed
      exact among.known key claims found claim listed

theorem distinct_getD (among : ActiveAmong claimsById active) (key : ClaimKey) :
    (active[key]?.getD []).Pairwise (fun first second => first.claimId ≠ second.claimId) := by
  cases found : active[key]? with
  | none => exact List.Pairwise.nil
  | some claims => exact among.distinct key claims found

/-- A new claim at the end of the claims of its key. -/
theorem append (among : ActiveAmong claimsById active) {claim : Claim}
    (new : claimsById[claim.claimId]? = none) :
    ActiveAmong (claimsById.insert claim.claimId claim)
      (active.insert claim.key (active[claim.key]?.getD [] ++ [claim])) := by
  have kept : ∀ other : Claim, claimsById[other.claimId]? = some other →
      (claimsById.insert claim.claimId claim)[other.claimId]? = some other := by
    intro other bound
    rw [Dict.get_insert, if_neg]
    · exact bound
    · intro same
      rw [← same, new] at bound
      cases bound
  refine ⟨among.keyed.insert claim, ?_, ?_⟩
  · intro key claims found other listed
    rw [Dict.get_insert] at found
    split at found
    · rename_i here
      injection found with found
      rw [← found] at listed
      rcases List.mem_append.mp listed with earlier | last
      · obtain ⟨sameKey, bound⟩ := among.of_getD earlier
        exact ⟨sameKey.trans here, kept other bound⟩
      · rw [List.mem_singleton.mp last]
        exact ⟨here, Dict.get_insert_self _ _ _⟩
    · obtain ⟨sameKey, bound⟩ := among.known key claims found other listed
      exact ⟨sameKey, kept other bound⟩
  · intro key claims found
    rw [Dict.get_insert] at found
    split at found
    · injection found with found
      rw [← found]
      refine List.pairwise_append.mpr ⟨among.distinct_getD _, List.pairwise_singleton _ _, ?_⟩
      intro other listed last member same
      rw [List.mem_singleton.mp member] at same
      obtain ⟨_, bound⟩ := among.of_getD listed
      rw [same, new] at bound
      cases bound
    · exact among.distinct key claims found

/-- A new claim that is not active. -/
theorem bind (among : ActiveAmong claimsById active) {claim : Claim}
    (new : claimsById[claim.claimId]? = none) :
    ActiveAmong (claimsById.insert claim.claimId claim) active := by
  refine ⟨among.keyed.insert claim, ?_, among.distinct⟩
  intro key claims found other listed
  obtain ⟨sameKey, bound⟩ := among.known key claims found other listed
  refine ⟨sameKey, ?_⟩
  rw [Dict.get_insert, if_neg]
  · exact bound
  · intro same
    rw [← same, new] at bound
    cases bound

/-- Fewer claims under one key. -/
theorem filter (among : ActiveAmong claimsById active) (key : ClaimKey) (test : Claim → Bool) :
    ActiveAmong claimsById (active.insert key ((active[key]?.getD []).filter test)) := by
  refine ⟨among.keyed, ?_, ?_⟩
  · intro wanted claims found other listed
    rw [Dict.get_insert] at found
    split at found
    · rename_i here
      injection found with found
      rw [← found] at listed
      rw [← here]
      exact among.of_getD (List.mem_filter.mp listed).1
    · exact among.known wanted claims found other listed
  · intro wanted claims found
    rw [Dict.get_insert] at found
    split at found
    · injection found with found
      rw [← found]
      exact (among.distinct_getD key).filter test
    · exact among.distinct wanted claims found

end ActiveAmong

/-! ## The first loop -/

namespace Working

/-- What entering operations leaves alone: bound claims, and the keys that stay unmarked. -/
structure Leaves (start next : Working) : Prop where
  marks : ∀ key : ClaimKey, key ∈ start.affectedKeys → key ∈ next.affectedKeys
  untouched : ∀ key : ClaimKey, key ∉ next.affectedKeys →
    next.activeClaimsByKey[key]? = start.activeClaimsByKey[key]?
  bound : ∀ (claimId : String) (claim : Claim), start.claimsById[claimId]? = some claim →
    next.claimsById[claimId]? = some claim
  among : ActiveAmong start.claimsById start.activeClaimsByKey →
    ActiveAmong next.claimsById next.activeClaimsByKey
  histories : OwnHistories start.resolutionsByRef start.lifecycleByRef →
    OwnHistories next.resolutionsByRef next.lifecycleByRef

namespace Leaves

theorem refl (working : Working) : Leaves working working :=
  ⟨fun _ => id, fun _ _ => rfl, fun _ _ => id, id, id⟩

theorem trans {first second third : Working} (before : Leaves first second)
    (after : Leaves second third) : Leaves first third where
  marks := fun key marked => after.marks key (before.marks key marked)
  untouched := fun key unmarked => (after.untouched key unmarked).trans
    (before.untouched key (fun marked => unmarked (after.marks key marked)))
  bound := fun claimId claim known => after.bound claimId claim (before.bound claimId claim known)
  among := fun among => after.among (before.among among)
  histories := fun own => after.histories (before.histories own)

/-- Claims, active claims and histories are as they were. -/
theorem of_same {start next : Working} (marks : ∀ key : ClaimKey, key ∈ start.affectedKeys →
      key ∈ next.affectedKeys)
    (active : next.activeClaimsByKey = start.activeClaimsByKey)
    (claims : next.claimsById = start.claimsById)
    (resolutions : next.resolutionsByRef = start.resolutionsByRef)
    (events : next.lifecycleByRef = start.lifecycleByRef) : Leaves start next where
  marks := marks
  untouched := fun _ _ => by rw [active]
  bound := fun _ _ known => by rw [claims]; exact known
  among := fun among => by rw [claims, active]; exact among
  histories := fun own => by rw [resolutions, events]; exact own

end Leaves

variable {working next : Working} {registry : PredicateRegistry}

theorem deactivate_leaves (claimId : String) : Leaves working (working.deactivate claimId) := by
  unfold deactivate
  cases found : working.claimsById[claimId]? with
  | none => exact .refl working
  | some claim =>
      refine ⟨fun key marked => (PySet.mem_insert _ _ _).mpr (Or.inr marked), ?_,
        fun _ _ => id, fun among => among.filter _ _, id⟩
      intro key unmarked
      have different : claim.key ≠ key :=
        fun same => unmarked ((PySet.mem_insert _ _ _).mpr (Or.inl same))
      change (working.activeClaimsByKey.insert _ _)[key]? = _
      rw [Dict.get_insert, if_neg different]

theorem deactivateAll_leaves (claimIds : List String) :
    Leaves working (claimIds.foldl deactivate working) := by
  induction claimIds generalizing working with
  | nil => exact .refl working
  | cons head tail inductionHypothesis =>
      exact (deactivate_leaves head).trans inductionHypothesis

/-- A new claim is marked, whether it becomes active or not. -/
theorem applyClaim_leaves {claim : Claim} (run : applyClaim registry working claim = .ok next) :
    Leaves working next := by
  rw [applyClaim, bind_ok_iff] at run
  obtain ⟨⟨table, inserted⟩, bound, run⟩ := run
  unfold insertImmutable at bound
  cases found : working.claimsById[claim.claimId]? with
  | some existing =>
      rw [found] at bound
      simp only at bound
      split at bound
      · injection bound with bound
        injection bound with sameTable notInserted
        subst sameTable notInserted
        injection run with run
        rw [← run]
        exact .of_same (fun _ => id) rfl rfl rfl rfl
      · cases bound
  | none =>
      rw [found] at bound
      injection bound with bound
      injection bound with sameTable isInserted
      subst sameTable isInserted
      injection run with run
      rw [← run]
      refine ⟨fun key marked => (PySet.mem_insert _ _ _).mpr (Or.inr marked), ?_, ?_, ?_, id⟩
      · intro key unmarked
        have different : claim.key ≠ key :=
          fun same => unmarked ((PySet.mem_insert _ _ _).mpr (Or.inl same))
        dsimp only
        split
        · rfl
        · rw [Dict.get_insert, if_neg different]
      · intro claimId other known
        dsimp only
        rw [Dict.get_insert, if_neg]
        · exact known
        · intro same
          rw [← same, found] at known
          cases known
      · intro among
        dsimp only
        split
        · exact among.bind found
        · exact among.append found

omit [Runtime] in
private theorem own_insert {α β : Type} [LinearOrder β] {order : α → β} (ref : α → String)
    {dict : Dict String (List α)}
    (own : ∀ conflictRef : String, ∀ record ∈ dict[conflictRef]?.getD [], ref record = conflictRef)
    (record : α) : ∀ conflictRef : String,
      ∀ other ∈ (insertSorted order dict (ref record) record)[conflictRef]?.getD [],
        ref other = conflictRef := by
  intro conflictRef other listed
  rw [insertSorted, Dict.get_insert] at listed
  split at listed
  · rename_i here
    rw [Option.getD_some, mem_sortBy, List.mem_append, List.mem_singleton] at listed
    rcases listed with earlier | last
    · exact (own _ other earlier).trans here
    · rw [last]
      exact here
  · exact own conflictRef other listed

theorem applyOp_leaves {op : Op} (run : applyOp registry working op = .ok next) :
    Leaves working next := by
  cases op with
  | sourceAdded header source =>
      rw [applyOp, applySource, bind_ok_iff] at run
      obtain ⟨⟨table, inserted⟩, _, run⟩ := run
      cases inserted with
      | false =>
          injection run with run
          rw [← run]
          exact .of_same (fun _ => id) rfl rfl rfl rfl
      | true =>
          injection run with run
          obtain ⟨keys, marked, members⟩ := @markClaimKeys_all _
            { working with sourcesById := table }
            (working.evidenceIdsBySourceId[source.sourceId]?.getD ∅).toList
          rw [← run]
          dsimp only
          rw [marked]
          exact .of_same (fun key known => (members key).mpr (Or.inl known)) rfl rfl rfl rfl
  | evidenceAdded header evidence =>
      rw [applyOp, applyEvidence, bind_ok_iff] at run
      obtain ⟨⟨table, inserted⟩, _, run⟩ := run
      cases inserted with
      | false =>
          injection run with run
          rw [← run]
          exact .of_same (fun _ => id) rfl rfl rfl rfl
      | true =>
          injection run with run
          rw [← run]
          exact .of_same (fun _ marked => mem_markClaimKeys.mpr (Or.inl marked)) rfl rfl rfl rfl
  | claimAdded header claim => exact applyClaim_leaves run
  | claimRetracted retraction =>
      injection run with run
      have recorded : Leaves working (working.recordRetraction retraction) :=
        .of_same (fun _ => id) rfl rfl rfl rfl
      rw [← run, applyRetraction]
      exact recorded.trans (deactivateAll_leaves _)
  | decisionAdded header decision =>
      rw [applyOp, applyDecision, bind_ok_iff] at run
      obtain ⟨⟨table, inserted⟩, _, run⟩ := run
      injection run with run
      rw [← run]
      exact .of_same (fun _ => id) rfl rfl rfl rfl
  | derivationAdded header derivation =>
      rw [applyOp, applyDerivation, bind_ok_iff] at run
      obtain ⟨⟨table, inserted⟩, _, run⟩ := run
      cases inserted with
      | false =>
          injection run with run
          rw [← run]
          exact .of_same (fun _ => id) rfl rfl rfl rfl
      | true =>
          injection run with run
          rw [← run]
          exact .of_same (fun _ marked => mem_markClaimKeys.mpr (Or.inl marked)) rfl rfl rfl rfl
  | resolutionAdded header resolution =>
      rw [applyOp, applyResolution, bind_ok_iff] at run
      obtain ⟨⟨table, inserted⟩, _, run⟩ := run
      cases inserted with
      | false =>
          injection run with run
          rw [← run]
          exact .of_same (fun _ => id) rfl rfl rfl rfl
      | true =>
          injection run with run
          rw [← run]
          exact ⟨fun _ => id, fun _ _ => rfl, fun _ _ => id, id, fun own =>
            ⟨own_insert (fun record => record.conflictRef) own.resolutions resolution,
              own.events⟩⟩
  | conflictLifecycleEventAdded header event =>
      rw [applyOp, applyEvent, bind_ok_iff] at run
      obtain ⟨⟨table, inserted⟩, _, run⟩ := run
      cases inserted with
      | false =>
          injection run with run
          rw [← run]
          exact .of_same (fun _ => id) rfl rfl rfl rfl
      | true =>
          injection run with run
          rw [← run]
          exact ⟨fun _ => id, fun _ _ => rfl, fun _ _ => id, id, fun own =>
            ⟨own.resolutions, own_insert (fun record => record.conflictRef) own.events event⟩⟩

theorem enter_leaves {ops : List Op} (run : ops.foldlM (applyOp registry) working = .ok next) :
    Leaves working next := by
  induction ops generalizing working with
  | nil =>
      rw [List.foldlM_nil, pure_ok_iff] at run
      rw [← run]
      exact .refl working
  | cons head tail inductionHypothesis =>
      rw [List.foldlM_cons, bind_ok_iff] at run
      obtain ⟨entered, stepped, run⟩ := run
      exact (applyOp_leaves stepped).trans (inductionHypothesis run)

end Working

/-! ## The second loop -/

/-- What the direct detector reports about a key. -/
def DirectAt (key : ClaimKey) (conflict : ConflictSet) : Prop :=
  ∃ candidates witnesses, IsFinding key candidates witnesses conflict

/-- Every key has at most one conflict, its own, and the table by id lists them all. -/
structure ConflictTables (byKey : Dict ClaimKey (List ConflictSet))
    (byId : Dict String ConflictSet) : Prop where
  single : ∀ (key : ClaimKey) (conflicts : List ConflictSet), byKey[key]? = some conflicts →
    ∃ conflict, conflicts = [conflict] ∧ DirectAt key conflict
  listed : Lists byId (·.conflictId)
    (fun conflict => ∃ key : ClaimKey, byKey[key]? = some [conflict])

/-- A canonical state whose tables fit together. -/
structure MemoryState.Coherent (state : MemoryState) : Prop where
  among : ActiveAmong state.claimsById state.activeClaimsByKey
  histories : OwnHistories state.resolutionsByConflictRef state.lifecycleHistoryByConflictRef
  sorted : ∀ (key : ClaimKey) (claims : List Claim), state.activeClaimsByKey[key]? = some claims →
    claims ≠ [] ∧ claims.Pairwise (fun first second => first.claimId < second.claimId)
  tables : ConflictTables state.conflictsByKey state.conflictsById
  silent : ∀ key : ClaimKey, state.activeClaimsByKey[key]? = none →
    state.conflictsByKey[key]? = none
  conflicts : state.conflicts = Dict.values state.conflictsById
  indexed : ∀ key : ClaimKey, key ∈ state.directConflictIndexes ↔ key ∈ state.activeClaimsByKey
  indexes : ∀ (key : ClaimKey) (index : DirectConflictIndex),
    state.directConflictIndexes[key]? = some index →
    IndexFor state.predicateRegistry key (· ∈ state.activeClaimsByKey[key]?.getD []) index

/-- A state and what the detectors see after the first loop. -/
structure Passage (state : MemoryState) (context : ConflictDetectionContext) : Prop where
  collisionFree : CollisionFree
  coherent : state.Coherent
  sameRegistry : context.predicateRegistry = state.predicateRegistry
  sorted : ∀ (key : ClaimKey) (claims : List Claim),
    context.activeClaimsByKey[key]? = some claims →
    claims ≠ [] ∧ claims.Pairwise (fun first second => first.claimId < second.claimId)
  keyed : ∀ (key : ClaimKey), ∀ claim ∈ context.activeClaimsByKey[key]?.getD [], claim.key = key
  immutable : ∀ (key : ClaimKey), ∀ claim ∈ context.activeClaimsByKey[key]?.getD [],
    ∀ other ∈ state.activeClaimsByKey[key]?.getD [], other.claimId = claim.claimId → other = claim

/-- After some keys are done, their conflicts and indexes are new and the others are not. -/
structure KeyUpdate.Follows (update : KeyUpdate) (state : MemoryState)
    (context : ConflictDetectionContext) (done : List ClaimKey) : Prop where
  tables : ConflictTables update.conflictsByKey update.conflictsById
  silent : ∀ key ∈ done, context.activeClaimsByKey[key]? = none →
    update.conflictsByKey[key]? = none
  untouched : ∀ key : ClaimKey, key ∉ done →
    update.conflictsByKey[key]? = state.conflictsByKey[key]? ∧
      update.indexes[key]? = state.directConflictIndexes[key]?
  indexed : ∀ key ∈ done, (key ∈ update.indexes ↔ key ∈ context.activeClaimsByKey)
  indexes : ∀ key ∈ done, ∀ index : DirectConflictIndex, update.indexes[key]? = some index →
    IndexFor state.predicateRegistry key (· ∈ context.activeClaimsByKey[key]?.getD []) index
  previousIds : ∀ key ∈ done, ∀ conflict : ConflictSet,
    state.conflictsByKey[key]? = some [conflict] →
    conflict.conflictId ∈ update.previousConflictIds
  currentIds : ∀ key ∈ done, ∀ conflict : ConflictSet,
    update.conflictsByKey[key]? = some [conflict] → conflict.conflictId ∈ update.currentConflictIds

theorem DirectAt.eq_of_id (collisionFree : CollisionFree) {key other : ClaimKey}
    {first second : ConflictSet} (isFirst : DirectAt key first) (isSecond : DirectAt other second)
    (same : first.conflictId = second.conflictId) : key = other := by
  obtain ⟨_, _, firstFinding⟩ := isFirst
  obtain ⟨_, _, secondFinding⟩ := isSecond
  rw [firstFinding.conflictId, secondFinding.conflictId] at same
  exact directId_injective collisionFree same

theorem DirectAt.isDirectFor {key : ClaimKey} {conflict : ConflictSet}
    (direct : DirectAt key conflict) : isDirectFor key conflict = true := by
  obtain ⟨_, _, finding⟩ := direct
  simp [Statefuse.isDirectFor, finding.keys, finding.detectorId]

/-- The conflict of a key, if it has one. -/
theorem ConflictTables.at_key {byKey : Dict ClaimKey (List ConflictSet)}
    {byId : Dict String ConflictSet} (tables : ConflictTables byKey byId) (key : ClaimKey) :
    ∃ report : Option ConflictSet, byKey[key]?.getD [] = report.toList ∧
      (∀ conflict, byKey[key]? = some [conflict] ↔ report = some conflict) ∧
      ∀ conflict, report = some conflict → DirectAt key conflict := by
  cases found : byKey[key]? with
  | none =>
      refine ⟨none, rfl, ?_, ?_⟩
      · intro conflict
        constructor <;> intro impossible <;> cases impossible
      · intro conflict impossible
        cases impossible
  | some conflicts =>
      obtain ⟨conflict, same, direct⟩ := tables.single key conflicts found
      refine ⟨some conflict, ?_, ?_, ?_⟩
      · rw [same]
        rfl
      · intro other
        rw [same, Option.some.injEq, Option.some.injEq, List.cons.injEq]
        exact and_iff_left rfl
      · intro other isReport
        injection isReport with isReport
        rw [← isReport]
        exact direct

section Round

variable {state : MemoryState} {context : ConflictDetectionContext} {update : KeyUpdate}
  {done : List ClaimKey} {key : ClaimKey}

theorem sorted_getD {active : Dict ClaimKey (List Claim)}
    (sorted : ∀ (key : ClaimKey) (claims : List Claim), active[key]? = some claims →
      claims ≠ [] ∧ claims.Pairwise (fun first second => first.claimId < second.claimId))
    (key : ClaimKey) :
    (active[key]?.getD []).Pairwise (fun first second => first.claimId < second.claimId) := by
  cases found : active[key]? with
  | none => exact List.Pairwise.nil
  | some claims => exact (sorted key claims found).2

/-- The index a round starts from is the index of the old claims of its key. -/
private theorem previousIndex_follows (passage : Passage state context)
    (follows : update.Follows state context done) (fresh : key ∉ done)
    {report : Option ConflictSet}
    (reported : ∀ conflict, state.conflictsByKey[key]? = some [conflict] ↔
      report = some conflict) :
    ∃ index, previousIndex state.activeClaimsByKey state.predicateRegistry update.indexes key
        report.toList = .ok index ∧
      IndexFor state.predicateRegistry key (· ∈ state.activeClaimsByKey[key]?.getD []) index := by
  unfold previousIndex
  rw [(follows.untouched key fresh).2]
  cases located : state.directConflictIndexes[key]? with
  | some index => exact ⟨index, rfl, passage.coherent.indexes key index located⟩
  | none =>
      -- A key without an index has no claims and no conflict, so there is nothing to index.
      have absent : state.activeClaimsByKey[key]? = none := by
        cases found : state.activeClaimsByKey[key]? with
        | none => rfl
        | some claims =>
            obtain ⟨index, present⟩ := (Dict.mem_iff _ _).mp
              ((passage.coherent.indexed key).mpr ((Dict.mem_iff _ _).mpr ⟨claims, found⟩))
            rw [located] at present
            cases present
      have noReport : report = none := by
        cases isReport : report with
        | none => rfl
        | some conflict =>
            have found := (reported conflict).mpr isReport
            rw [passage.coherent.silent key absent] at found
            cases found
      rw [absent, noReport]
      have nothing : findingOf state.context key [] = .ok none := by
        simp [findingOf, clashingPairs, combinations]
      obtain ⟨index, built, indexed⟩ := @buildDirectConflictIndex_ok _ state.context key [] none
        List.Pairwise.nil (by simp) (by simp) nothing
      exact ⟨index, built, indexed⟩

section Replace

variable {old new : Option ConflictSet} {index : DirectConflictIndex} {comparisons : Nat}

/-- Replacing the conflict and the index of a key leaves the other keys as they are. -/
theorem replace_others {other : ClaimKey} (different : key ≠ other) :
    (update.replace key old.toList new.toList index comparisons).conflictsByKey[other]? =
        update.conflictsByKey[other]? ∧
      (update.replace key old.toList new.toList index comparisons).indexes[other]? =
        update.indexes[other]? := by
  constructor
  · change (if new.toList = [] then _ else _ : Dict ClaimKey (List ConflictSet))[other]? = _
    split
    · rw [Dict.get_erase, if_neg different]
    · rw [Dict.get_insert, if_neg different]
  · change (if index.claimsById.isEmpty then _ else _ : Dict ClaimKey _)[other]? = _
    split
    · rw [Dict.get_erase, if_neg different]
    · rw [Dict.get_insert, if_neg different]

theorem replace_report (conflict : ConflictSet) :
    (update.replace key old.toList new.toList index comparisons).conflictsByKey[key]? =
      some [conflict] ↔ new = some conflict := by
  unfold KeyUpdate.replace
  dsimp only
  cases new with
  | none => simp
  | some current =>
      rw [if_neg (by simp), Dict.get_insert_self]
      simp

private theorem replace_index :
    (update.replace key old.toList new.toList index comparisons).indexes[key]? =
      if index.claimsById.isEmpty then none else some index := by
  unfold KeyUpdate.replace
  dsimp only
  split
  · rw [Dict.get_erase, if_pos rfl]
  · rw [Dict.get_insert_self]

/-- The tables list the new conflict of the key in place of the old one. -/
private theorem replace_tables (collisionFree : CollisionFree)
    (tables : ConflictTables update.conflictsByKey update.conflictsById)
    (before : ∀ conflict, update.conflictsByKey[key]? = some [conflict] ↔ old = some conflict)
    (oldDirect : ∀ conflict, old = some conflict → DirectAt key conflict)
    (newDirect : ∀ conflict, new = some conflict → DirectAt key conflict) :
    ConflictTables (update.replace key old.toList new.toList index comparisons).conflictsByKey
      (update.replace key old.toList new.toList index comparisons).conflictsById := by
  have apart : ∀ {report : Option ConflictSet},
      (∀ conflict, report = some conflict → DirectAt key conflict) →
      ∀ other conflict, update.conflictsByKey[other]? = some [conflict] →
      ∀ reported, report = some reported → conflict.conflictId = reported.conflictId →
        other = key := by
    intro report direct other conflict found reported isReported same
    obtain ⟨_, listed, otherDirect⟩ := tables.single other _ found
    rw [List.cons.injEq] at listed
    rw [← listed.1] at otherDirect
    exact otherDirect.eq_of_id collisionFree (direct reported isReported) same
  constructor
  · intro wanted conflicts found
    by_cases same : key = wanted
    · subst same
      cases isNew : new with
      | none =>
          rw [isNew] at found
          simp [KeyUpdate.replace] at found
      | some conflict =>
          rw [(replace_report conflict).mpr isNew, Option.some.injEq] at found
          exact ⟨conflict, found.symm, newDirect conflict isNew⟩
    · rw [(replace_others same).1] at found
      exact tables.single wanted conflicts found
  · refine lists_replace tables.listed before replace_report ?_ (apart oldDirect) (apart newDirect)
    intro other conflict different
    rw [(replace_others (Ne.symm different)).1]

/-- The key has an index when it has claims. -/
private theorem replace_indexed (passage : Passage state context)
    (indexed : IndexFor state.predicateRegistry key
      (· ∈ context.activeClaimsByKey[key]?.getD []) index) :
    key ∈ (update.replace key old.toList new.toList index comparisons).indexes ↔
      key ∈ context.activeClaimsByKey := by
  have empty := index_isEmpty_iff indexed
  rw [Dict.mem_iff, Dict.mem_iff, replace_index]
  cases found : context.activeClaimsByKey[key]? with
  | none =>
      rw [found] at empty
      rw [if_pos (empty.mpr (by simp))]
      simp
  | some claims =>
      obtain ⟨claim, listed⟩ := List.exists_mem_of_ne_nil claims (passage.sorted key claims found).1
      rw [if_neg]
      · simp
      · intro none
        rw [found] at empty
        exact empty.mp none claim listed

/-- Replacing the conflict and the index of a key. -/
private theorem replace_follows (passage : Passage state context)
    (follows : update.Follows state context done) (fresh : key ∉ done)
    (oldReport : ∀ conflict, state.conflictsByKey[key]? = some [conflict] ↔ old = some conflict)
    (oldDirect : ∀ conflict, old = some conflict → DirectAt key conflict)
    (newDirect : ∀ conflict, new = some conflict → DirectAt key conflict)
    (quiet : context.activeClaimsByKey[key]? = none → new = none)
    (indexed : IndexFor state.predicateRegistry key
      (· ∈ context.activeClaimsByKey[key]?.getD []) index) (comparisons : Nat) :
    (update.replace key old.toList new.toList index comparisons).Follows state context
      (done ++ [key]) := by
  have before : ∀ conflict,
      update.conflictsByKey[key]? = some [conflict] ↔ old = some conflict := by
    intro conflict
    rw [(follows.untouched key fresh).1]
    exact oldReport conflict
  have earlier : ∀ other ∈ done, key ≠ other := by
    intro other member same
    exact fresh (by rw [same]; exact member)
  refine ⟨replace_tables passage.collisionFree follows.tables before oldDirect newDirect,
    ?_, ?_, ?_, ?_, ?_, ?_⟩
  · intro wanted member absent
    rcases List.mem_append.mp member with isDone | last
    · rw [(replace_others (earlier wanted isDone)).1]
      exact follows.silent wanted isDone absent
    · rw [List.mem_singleton.mp last] at absent ⊢
      rw [quiet absent]
      simp [KeyUpdate.replace]
  · intro wanted absent
    rw [List.mem_append, List.mem_singleton, not_or] at absent
    have apart : key ≠ wanted := Ne.symm absent.2
    rw [(replace_others apart).1, (replace_others apart).2]
    exact follows.untouched wanted absent.1
  · intro wanted member
    rcases List.mem_append.mp member with isDone | last
    · rw [Dict.mem_iff, (replace_others (earlier wanted isDone)).2, ← Dict.mem_iff]
      exact follows.indexed wanted isDone
    · rw [List.mem_singleton.mp last]
      exact replace_indexed passage indexed
  · intro wanted member located found
    rcases List.mem_append.mp member with isDone | last
    · rw [(replace_others (earlier wanted isDone)).2] at found
      exact follows.indexes wanted isDone located found
    · rw [List.mem_singleton.mp last] at found ⊢
      rw [replace_index] at found
      split at found
      · cases found
      · rw [Option.some.injEq] at found
        rw [← found]
        exact indexed
  · intro wanted member conflict found
    refine mem_addAll.mpr ?_
    rcases List.mem_append.mp member with isDone | last
    · exact Or.inl (follows.previousIds wanted isDone conflict found)
    · rw [List.mem_singleton.mp last] at found
      rw [(oldReport conflict).mp found]
      exact Or.inr (by simp)
  · intro wanted member conflict found
    refine mem_addAll.mpr ?_
    rcases List.mem_append.mp member with isDone | last
    · rw [(replace_others (earlier wanted isDone)).1] at found
      exact Or.inl (follows.currentIds wanted isDone conflict found)
    · rw [List.mem_singleton.mp last, replace_report] at found
      rw [found]
      exact Or.inr (by simp)

end Replace

/-- The round for a key whose active claims can be read puts the finding about them in the
place of the old conflict. -/
theorem updateKey_replaces (passage : Passage state context)
    (follows : update.Follows state context done) (fresh : key ∉ done)
    (readable : ∀ claim ∈ context.activeClaimsByKey[key]?.getD [], Readable claim) :
    ∃ (old new : Option ConflictSet) (index : DirectConflictIndex) (comparisons : Nat),
      updateKey context state.activeClaimsByKey update key =
        .ok (update.replace key old.toList new.toList index comparisons) ∧
      (∀ conflict, state.conflictsByKey[key]? = some [conflict] ↔ old = some conflict) ∧
      (∀ conflict, old = some conflict → DirectAt key conflict) ∧
      findingOf context key (context.activeClaimsByKey[key]?.getD []) = .ok new ∧
      IndexFor state.predicateRegistry key (· ∈ context.activeClaimsByKey[key]?.getD []) index := by
  obtain ⟨old, previous, oldReport, oldDirect⟩ := passage.coherent.tables.at_key key
  obtain ⟨index, located, indexed⟩ := previousIndex_follows passage follows fresh oldReport
  have sorted := sorted_getD passage.sorted key
  obtain ⟨new, newFound⟩ : ∃ found, findingOf context key
      (context.activeClaimsByKey[key]?.getD []) = .ok found :=
    findingOf_ok sorted (passage.keyed key) readable
  obtain ⟨updated, run, current⟩ := updateDirectConflictIndex_ok indexed
    (sorted.imp (fun below => ne_of_lt below)) (passage.immutable key) (passage.keyed key) readable
  have report : conflictFromDirectIndex updated.1 context key = .ok new := by
    rw [conflictFromDirectIndex_eq sorted (by rw [passage.sameRegistry]; exact current)]
    exact newFound
  have filtered : (update.conflictsByKey[key]?.getD []).filter (isDirectFor key) = old.toList := by
    rw [(follows.untouched key fresh).1, previous, List.filter_eq_self]
    intro conflict member
    exact (oldDirect conflict (Option.mem_toList.mp member)).isDirectFor
  refine ⟨old, new, updated.1, updated.2, ?_, oldReport, oldDirect, newFound, current⟩
  unfold updateKey
  dsimp only
  rw [filtered, passage.sameRegistry, bind_of_ok located, bind_of_ok run, bind_of_ok report]
  rfl

/-- What a round finds is the conflict of its key. -/
theorem direct_of_finding (passage : Passage state context) {new : Option ConflictSet}
    (found : findingOf context key (context.activeClaimsByKey[key]?.getD []) = .ok new) :
    ∀ conflict, new = some conflict → DirectAt key conflict := by
  intro conflict same
  rw [same] at found
  exact ⟨_, _, findingOf_spec (sorted_getD passage.sorted key) (passage.keyed key) found⟩

theorem updateKey_follows (passage : Passage state context)
    (follows : update.Follows state context done) (fresh : key ∉ done)
    (readable : ∀ claim ∈ context.activeClaimsByKey[key]?.getD [], Readable claim) :
    ∃ next, updateKey context state.activeClaimsByKey update key = .ok next ∧
      next.Follows state context (done ++ [key]) := by
  obtain ⟨old, new, index, comparisons, run, oldReport, oldDirect, newFound, current⟩ :=
    updateKey_replaces passage follows fresh readable
  have quiet : context.activeClaimsByKey[key]? = none → new = none := by
    intro absent
    rw [absent] at newFound
    have nothing : findingOf context key [] = .ok none := by
      simp [findingOf, clashingPairs, combinations]
    rw [Option.getD_none, nothing] at newFound
    injection newFound with same
    exact same.symm
  exact ⟨_, run, replace_follows passage follows fresh oldReport oldDirect
    (direct_of_finding passage newFound) quiet current comparisons⟩

/-- A round that succeeds has read the active claims of its key. -/
theorem readable_of_round (passage : Passage state context)
    (follows : update.Follows state context done) (fresh : key ∉ done) {next : KeyUpdate}
    (run : updateKey context state.activeClaimsByKey update key = .ok next) :
    ∀ claim ∈ context.activeClaimsByKey[key]?.getD [], Readable claim := by
  obtain ⟨old, previous, oldReport, oldDirect⟩ := passage.coherent.tables.at_key key
  obtain ⟨index, located, indexed⟩ := previousIndex_follows passage follows fresh oldReport
  have filtered : (update.conflictsByKey[key]?.getD []).filter (isDirectFor key) = old.toList := by
    rw [(follows.untouched key fresh).1, previous, List.filter_eq_self]
    intro conflict member
    exact (oldDirect conflict (Option.mem_toList.mp member)).isDirectFor
  unfold updateKey at run
  dsimp only at run
  rw [filtered, passage.sameRegistry, bind_of_ok located, bind_ok_iff] at run
  obtain ⟨updated, run, _⟩ := run
  exact readable_of_updateDirectConflictIndex indexed
    ((sorted_getD passage.sorted key).imp (fun below => ne_of_lt below)) (passage.immutable key) run

end Round

end Statefuse
