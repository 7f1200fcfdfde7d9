import Statefuse.Compaction
import Statefuse.Materialize.Authority
import Statefuse.Materialize.Retractions

/-!
# Pruning a log

A log loses claims, evidence, and retractions that name no target, or has equal operations in
their place.  The tables that the rest of the log is collected into agree with the tables of the
whole log on the claims and the evidence of which it has lost nothing (`collect_respelled`).
-/

namespace Statefuse

open Foundation

variable [Runtime]

/-- A table that agrees with another one on the ids that are kept, and binds no other id to a
record that is not equal to the other one's. -/
structure Keeps {α : Type} [PyEq α] (isKept : String → Prop) (wide narrow : Dict String α) :
    Prop where
  agrees : ∀ recordId, isKept recordId → narrow[recordId]? = wide[recordId]?
  bound : BoundIn wide narrow

namespace Keeps

variable {α : Type} [PyEq α] {isKept : String → Prop} {wide narrow next : Dict String α}
  {recordId name : String} {record : α}

omit [Runtime] in
theorem empty (isKept : String → Prop) : Keeps isKept (∅ : Dict String α) ∅ :=
  ⟨fun _ _ => rfl, .refl _⟩

omit [Runtime] in
/-- Nothing is left out when every id is kept. -/
theorem eq_of_all (keeps : Keeps isKept wide narrow) (all : ∀ recordId, isKept recordId) :
    narrow = wide :=
  Dict.ext fun recordId => keeps.agrees recordId (all recordId)

omit [Runtime] in
/-- A record that is bound in both tables. -/
theorem bind (keeps : Keeps isKept wide narrow)
    (run : bindRecord wide recordId record name = .ok next) :
    bindRecord narrow recordId record name = .ok (narrow.insert recordId record) ∧
      Keeps isKept next (narrow.insert recordId record) := by
  rcases keeps.bound.bind run with ⟨also, bound⟩
  refine ⟨also, ?_, bound⟩
  intro otherId kept
  rw [bindRecord_ok run, Dict.get_insert, Dict.get_insert, keeps.agrees otherId kept]

omit [Runtime] in
/-- A record that is left out. -/
theorem bind_left (keeps : Keeps isKept wide narrow) (dropped : ¬ isKept recordId)
    (run : bindRecord wide recordId record name = .ok next) : Keeps isKept next narrow := by
  refine ⟨?_, keeps.bound.bind_left run⟩
  intro otherId kept
  have other : recordId ≠ otherId := fun same => dropped (same ▸ kept)
  rw [bindRecord_ok run, Dict.get_insert_of_ne _ other, keeps.agrees otherId kept]

omit [Runtime] in
/-- A record that is left out, and an equal one in its place. -/
theorem bind_respelled {other : α} (keeps : Keeps isKept wide narrow)
    (dropped : ¬ isKept recordId) (equal : pyEq record other = true)
    (run : bindRecord wide recordId record name = .ok next) :
    bindRecord narrow recordId other name = .ok (narrow.insert recordId other) ∧
      Keeps isKept next (narrow.insert recordId other) := by
  constructor
  · unfold bindRecord
    cases found : narrow[recordId]? with
    | none => rfl
    | some existing =>
        have also := (keeps.bound.bind run).1
        unfold bindRecord at also
        rw [found] at also
        by_cases same : pyEq existing record = true
        · exact if_pos (pyEq_trans same equal)
        · simp only [if_neg same] at also
          cases also
  · rw [bindRecord_ok run]
    constructor
    · intro otherId kept
      have apart : recordId ≠ otherId := fun same => dropped (same ▸ kept)
      rw [Dict.get_insert_of_ne _ apart, Dict.get_insert_of_ne _ apart, keeps.agrees otherId kept]
    · intro otherId known found
      rw [Dict.get_insert] at found ⊢
      by_cases here : recordId = otherId
      · rw [if_pos here] at found ⊢
        injection found with found
        exact ⟨record, rfl, found ▸ equal⟩
      · rw [if_neg here] at found ⊢
        exact keeps.bound otherId known found

end Keeps

/-- The tables of a log that is pruned: fewer claims, less evidence, and possibly fewer entries
under the superseding claims of retractions. -/
structure Collected.Prunes (isClaim isEvidence : String → Prop) (wide narrow : Collected) :
    Prop where
  sourcesById : narrow.sourcesById = wide.sourcesById
  evidence : Keeps isEvidence wide.evidenceById narrow.evidenceById
  claims : Keeps isClaim wide.claimsById narrow.claimsById
  retractionsByTarget : narrow.retractionsByTarget = wide.retractionsByTarget
  retractionsByTargetRef : narrow.retractionsByTargetRef = wide.retractionsByTargetRef
  decisionsById : narrow.decisionsById = wide.decisionsById
  derivationsById : narrow.derivationsById = wide.derivationsById
  resolutionsById : narrow.resolutionsById = wide.resolutionsById
  lifecycleEventsById : narrow.lifecycleEventsById = wide.lifecycleEventsById

theorem Collected.prunes_empty (isClaim isEvidence : String → Prop) :
    Collected.empty.Prunes isClaim isEvidence .empty :=
  ⟨rfl, .empty _, .empty _, rfl, rfl, rfl, rfl, rfl, rfl⟩

/-- An operation that may be left out when the given claims and evidence remain. -/
def Op.MayBeLeft (isClaim isEvidence : String → Prop) : Op → Prop
  | .evidenceAdded _ evidence => ¬ isEvidence evidence.evidenceId
  | .claimAdded _ claim => ¬ isClaim claim.claimId
  | .claimRetracted retraction =>
      truthy retraction.targetClaimId = none ∧ truthy retraction.targetClaimRef = none
  | _ => False

section Collecting

variable {isClaim isEvidence : String → Prop} {registry : PredicateRegistry}
  {wide narrow next : Collected} {op : Op}

/-- An operation that is left out changes nothing that remains. -/
theorem collectStep_dropped (prunes : wide.Prunes isClaim isEvidence narrow)
    (left : op.MayBeLeft isClaim isEvidence)
    (run : collectStep registry wide op = .ok next) : next.Prunes isClaim isEvidence narrow := by
  cases op with
  | evidenceAdded header evidence =>
      rw [collectStep, bind_ok_iff] at run
      rcases run with ⟨records, bound, run⟩
      rw [pure_ok_iff] at run
      subst run
      exact { prunes with evidence := prunes.evidence.bind_left left bound }
  | claimAdded header claim =>
      rw [collectStep, bind_ok_iff] at run
      rcases run with ⟨records, bound, run⟩
      rw [pure_ok_iff] at run
      subst run
      exact { prunes with claims := prunes.claims.bind_left left bound }
  | claimRetracted retraction =>
      rcases left with ⟨noTarget, noRef⟩
      injection run with run
      subst run
      exact { prunes with
        retractionsByTarget := by
          simp only [appendRetraction, noTarget]
          exact prunes.retractionsByTarget
        retractionsByTargetRef := by
          simp only [appendRetraction, noRef]
          exact prunes.retractionsByTargetRef }
  | sourceAdded header source => cases left
  | decisionAdded header decision => cases left
  | derivationAdded header derivation => cases left
  | resolutionAdded header resolution => cases left
  | conflictLifecycleEventAdded header event => cases left

/-- An operation that remains. -/
theorem collectStep_retained (prunes : wide.Prunes isClaim isEvidence narrow)
    (run : collectStep registry wide op = .ok next) :
    ∃ narrowNext, collectStep registry narrow op = .ok narrowNext ∧
      next.Prunes isClaim isEvidence narrowNext := by
  cases op with
  | sourceAdded header source =>
      rw [collectStep, bind_ok_iff] at run
      rcases run with ⟨records, bound, run⟩
      rw [pure_ok_iff] at run
      subst run
      rw [← prunes.sourcesById] at bound
      rw [collectStep, bind_of_ok bound]
      exact ⟨_, rfl, { prunes with sourcesById := rfl }⟩
  | evidenceAdded header evidence =>
      rw [collectStep, bind_ok_iff] at run
      rcases run with ⟨records, bound, run⟩
      rw [pure_ok_iff] at run
      subst run
      rcases prunes.evidence.bind bound with ⟨also, keeps⟩
      rw [collectStep, bind_of_ok also]
      exact ⟨_, rfl, { prunes with evidence := keeps }⟩
  | claimAdded header claim =>
      rw [collectStep, bind_ok_iff] at run
      rcases run with ⟨records, bound, run⟩
      rw [pure_ok_iff] at run
      subst run
      rcases prunes.claims.bind bound with ⟨also, keeps⟩
      rw [collectStep, bind_of_ok also]
      exact ⟨_, rfl, { prunes with claims := keeps }⟩
  | claimRetracted retraction =>
      injection run with run
      subst run
      exact ⟨_, rfl, { prunes with
        retractionsByTarget := congrArg (appendRetraction · _ _) prunes.retractionsByTarget
        retractionsByTargetRef :=
          congrArg (appendRetraction · _ _) prunes.retractionsByTargetRef }⟩
  | decisionAdded header decision =>
      rw [collectStep, bind_ok_iff] at run
      rcases run with ⟨records, bound, run⟩
      rw [pure_ok_iff] at run
      subst run
      rw [← prunes.decisionsById] at bound
      rw [collectStep, bind_of_ok bound]
      exact ⟨_, rfl, { prunes with decisionsById := rfl }⟩
  | derivationAdded header derivation =>
      rw [collectStep, bind_ok_iff] at run
      rcases run with ⟨records, bound, run⟩
      rw [pure_ok_iff] at run
      subst run
      rw [← prunes.derivationsById] at bound
      rw [collectStep, bind_of_ok bound]
      exact ⟨_, rfl, { prunes with derivationsById := rfl }⟩
  | resolutionAdded header resolution =>
      rw [collectStep, bind_ok_iff] at run
      rcases run with ⟨records, bound, run⟩
      rw [pure_ok_iff] at run
      subst run
      rw [← prunes.resolutionsById] at bound
      rw [collectStep, bind_of_ok bound]
      exact ⟨_, rfl, { prunes with resolutionsById := rfl }⟩
  | conflictLifecycleEventAdded header event =>
      rw [collectStep, bind_ok_iff] at run
      rcases run with ⟨records, bound, run⟩
      rw [pure_ok_iff] at run
      subst run
      rw [← prunes.lifecycleEventsById] at bound
      rw [collectStep, bind_of_ok bound]
      exact ⟨_, rfl, { prunes with lifecycleEventsById := rfl }⟩

/-- An equal operation in the place of one that is left out. -/
theorem collectStep_respelled {other : Op} (prunes : wide.Prunes isClaim isEvidence narrow)
    (left : op.MayBeLeft isClaim isEvidence) (equal : pyEq op other = true)
    (run : collectStep registry wide op = .ok next) :
    ∃ narrowNext, collectStep registry narrow other = .ok narrowNext ∧
      next.Prunes isClaim isEvidence narrowNext := by
  have same := payload_of_equal equal
  cases op with
  | evidenceAdded header evidence =>
      rw [collectStep, bind_ok_iff] at run
      rcases run with ⟨records, bound, run⟩
      rw [pure_ok_iff] at run
      subst run
      cases other with
      | evidenceAdded _ spelled =>
          have alike : pyEq evidence spelled = true :=
            pyEq_iff.mpr (Op.PayloadKey.evidence.inj same)
          have sameId : evidence.evidenceId = spelled.evidenceId :=
            congrArg (fun fields => fields.1) (pyEq_iff.mp alike)
          rcases prunes.evidence.bind_respelled left alike bound with ⟨also, keeps⟩
          rw [sameId] at also keeps
          rw [collectStep, bind_of_ok also]
          exact ⟨_, rfl, { prunes with evidence := keeps }⟩
      | _ => cases same
  | claimAdded header claim =>
      rw [collectStep, bind_ok_iff] at run
      rcases run with ⟨records, bound, run⟩
      rw [pure_ok_iff] at run
      subst run
      cases other with
      | claimAdded _ spelled =>
          have alike : pyEq claim spelled = true := pyEq_iff.mpr (Op.PayloadKey.claim.inj same)
          have sameId : claim.claimId = spelled.claimId :=
            congrArg (fun fields => fields.1.1) (pyEq_iff.mp alike)
          rcases prunes.claims.bind_respelled left alike bound with ⟨also, keeps⟩
          rw [sameId] at also keeps
          rw [collectStep, bind_of_ok also]
          exact ⟨_, rfl, { prunes with claims := keeps }⟩
      | _ => cases same
  | claimRetracted retraction =>
      rw [retraction_of_equal (pyEq_symm equal)]
      exact collectStep_retained prunes run
  | sourceAdded header source => cases left
  | decisionAdded header decision => cases left
  | derivationAdded header derivation => cases left
  | resolutionAdded header resolution => cases left
  | conflictLifecycleEventAdded header event => cases left

/-- Of the operations that may be left out, some are missing and others stand in another
spelling. -/
theorem collect_respelled {ops : List Op} {pick : Op → Option Op}
    (picks : ∀ op ∈ ops, pick op = some op ∨
      op.MayBeLeft isClaim isEvidence ∧ ∀ other, pick op = some other → pyEq op other = true)
    {collected : Collected}
    (run : ops.foldlM (collectStep registry) .empty = .ok collected) :
    ∃ pruned, (ops.filterMap pick).foldlM (collectStep registry) .empty = .ok pruned ∧
      collected.Prunes isClaim isEvidence pruned := by
  refine foldlM_invariant (fun done state => ∃ pruned,
    (done.filterMap pick).foldlM (collectStep registry) .empty = .ok pruned ∧
      state.Prunes isClaim isEvidence pruned) ops _ _ run
    ⟨_, rfl, Collected.prunes_empty _ _⟩ ?_
  intro done op state next holds listed stepped
  rcases holds with ⟨pruned, reached, prunes⟩
  rw [List.filterMap_append, List.foldlM_append, bind_of_ok reached]
  cases picked : pick op with
  | none =>
      rw [List.filterMap_cons_none picked, List.filterMap_nil]
      rcases picks op listed with kept | ⟨leaves, _⟩
      · rw [picked] at kept
        cases kept
      · exact ⟨pruned, rfl, collectStep_dropped prunes leaves stepped⟩
  | some other =>
      rw [List.filterMap_cons_some picked, List.filterMap_nil, List.foldlM_cons]
      have entered : ∃ prunedNext, collectStep registry pruned other = .ok prunedNext ∧
          next.Prunes isClaim isEvidence prunedNext := by
        rcases picks op listed with kept | ⟨leaves, alike⟩
        · rw [picked, Option.some.injEq] at kept
          rw [kept]
          exact collectStep_retained prunes stepped
        · exact collectStep_respelled prunes leaves (alike other picked) stepped
      rcases entered with ⟨prunedNext, step, after⟩
      rw [bind_of_ok step]
      exact ⟨prunedNext, rfl, after⟩

/-- Leaving out operations that may be left out. -/
theorem collect_pruned {ops : List Op} {keep : Op → Bool}
    (left : ∀ op ∈ ops, keep op = false → op.MayBeLeft isClaim isEvidence)
    {collected : Collected}
    (run : ops.foldlM (collectStep registry) .empty = .ok collected) :
    ∃ pruned, (ops.filter keep).foldlM (collectStep registry) .empty = .ok pruned ∧
      collected.Prunes isClaim isEvidence pruned := by
  rw [← List.filterMap_eq_filter]
  refine collect_respelled (fun op listed => ?_) run
  by_cases kept : keep op = true
  · exact Or.inl (by simp [Option.guard, kept])
  · refine Or.inr ⟨left op listed (Bool.not_eq_true _ ▸ kept), ?_⟩
    intro other picked
    simp [Option.guard, kept] at picked

end Collecting

end Statefuse
