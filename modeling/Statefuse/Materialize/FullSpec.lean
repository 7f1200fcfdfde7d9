import Statefuse.Materialize.Common

/-!
# Full materialization represents the log

The pass over the log fills its tables with exactly the records of the log, and
everything that is computed from them is what `Represents` asks for.  Materialization
succeeds exactly on good contents (`materialize_represents`, `materialize_exists`).
-/

namespace Statefuse

open Foundation

section Binding

variable {α : Type} [PyEq α] {records : Dict String α} {key : α → String} {member : α → Prop}

theorem bindRecord_ok_iff (lists : Lists records key member) (record : α) (name : String)
    (structural : ∀ other, member other → pyEq other record = true → other = record)
    (next : Dict String α) :
    bindRecord records (key record) record name = .ok next ↔
      (∀ other, member other → key other = key record → other = record) ∧
        next = records.insert (key record) record := by
  unfold bindRecord
  cases found : records[key record]? with
  | none =>
      have new := lists.get_none.mp found
      simp only [Except.ok.injEq]
      constructor
      · intro same
        exact ⟨fun other listed equal => absurd equal (new other listed), same.symm⟩
      · rintro ⟨_, same⟩
        exact same.symm
  | some existing =>
      obtain ⟨listed, same⟩ := (lists _ _).mp found
      by_cases equal : pyEq existing record = true
      · simp only [if_pos equal, Except.ok.injEq]
        have identical := structural existing listed equal
        constructor
        · intro inserted
          refine ⟨?_, inserted.symm⟩
          intro other otherListed otherSame
          rw [lists.eq_of_key otherListed listed (otherSame.trans same.symm), identical]
        · rintro ⟨_, inserted⟩
          exact inserted.symm
      · simp only [if_neg equal]
        constructor
        · intro impossible
          cases impossible
        · rintro ⟨compatible, _⟩
          rw [compatible existing listed same] at equal
          exact absurd (pyEq_refl record) equal

/-- Binding a record succeeds when it is compatible, and the table lists it. -/
theorem bindRecord_lists (lists : Lists records key member) {record : α} {name : String}
    (structural : ∀ other, member other → pyEq other record = true → other = record)
    {next : Dict String α} (run : bindRecord records (key record) record name = .ok next) :
    Lists next key (fun other => member other ∨ other = record) := by
  obtain ⟨compatible, same⟩ := (bindRecord_ok_iff lists record name structural next).mp run
  rw [same]
  exact lists.insert record compatible

theorem bindRecord_exists (lists : Lists records key member) {record : α} (name : String)
    (structural : ∀ other, member other → pyEq other record = true → other = record)
    (compatible : ∀ other, member other → key other = key record → other = record) :
    ∃ next, bindRecord records (key record) record name = .ok next :=
  ⟨_, (bindRecord_ok_iff lists record name structural _).mpr ⟨compatible, rfl⟩⟩

end Binding

private theorem mem_foldl_inserts {keys : List String} {items : String → List String}
    {set : PySet String} {value : String} :
    value ∈ keys.foldl (fun set key =>
      (items key).foldl (fun set item => set.insert item) set) set ↔
      value ∈ set ∨ ∃ key ∈ keys, value ∈ items key := by
  induction keys generalizing set with
  | nil => simp
  | cons head tail inductionHypothesis =>
      rw [List.foldl_cons, inductionHypothesis, PySet.mem_foldl_insert]
      simp only [List.mem_cons, exists_eq_or_imp, or_assoc]

/-- The reverse index of the records of a table. -/
private theorem listed_reverseIndex {α : Type} {table : Dict String α} {key : α → String}
    {member : α → Prop} (lists : Lists table key member) (keys : α → List String)
    (value : α → String) :
    SortedGroups id (listed (reverseIndex keys value (Dict.values table)))
      (fun wanted found => ∃ record, member record ∧ wanted ∈ keys record ∧
        found = value record) := by
  refine (Indexes.reverseIndex keys value (Dict.values table)).listed.congr ?_
  intro wanted found
  simp only [lists.mem_values]

variable [Runtime]

/-! ## The pass over the log -/

/-- The tables of the pass hold exactly the given contents. -/
structure Collected.Holds (collected : Collected) (registry : PredicateRegistry)
    (contents : Contents) : Prop where
  records : collected.toRecords.Holds contents
  claimRefs : Projects collected.claimRefsById (·.claimId) contents.claim
    (fun claim claimRef => registry.claimRefForClaim claim = claimRef)
  claimIdsByRef : Indexes collected.claimIdsByRef (fun claimRef claimId =>
    ∃ claim, contents.claim claim ∧ registry.claimRefForClaim claim = claimRef ∧
      claim.claimId = claimId)
  retractionsByTarget : Groups ClaimRetracted.order collected.retractionsByTarget
    (contents.retractedUnder (·.targetClaimId))
  retractionsByTargetRef : Groups ClaimRetracted.order collected.retractionsByTargetRef
    (contents.retractedUnder (·.targetClaimRef))
  retractionsBySuperseder : Groups ClaimRetracted.order collected.retractionsBySuperseder
    (contents.retractedUnder (·.supersedesClaimId))
  retractionsBySupersederRef : Groups ClaimRetracted.order collected.retractionsBySupersederRef
    (contents.retractedUnder (·.supersedesClaimRef))

theorem Records.holds_empty : Records.Holds ⟨∅, ∅, ∅, ∅, ∅, ∅, ∅⟩ .empty :=
  ⟨Lists.empty, Lists.empty, Lists.empty, Lists.empty, Lists.empty, Lists.empty, Lists.empty⟩

theorem Collected.holds_empty (registry : PredicateRegistry) :
    Collected.empty.Holds registry .empty where
  records := Records.holds_empty
  claimRefs := Projects.empty
  claimIdsByRef := Indexes.empty.congr (by simp [Contents.empty])
  retractionsByTarget := Groups.empty.congr (by simp [Contents.retractedUnder, Contents.empty])
  retractionsByTargetRef := Groups.empty.congr (by simp [Contents.retractedUnder, Contents.empty])
  retractionsBySuperseder := Groups.empty.congr (by simp [Contents.retractedUnder, Contents.empty])
  retractionsBySupersederRef :=
    Groups.empty.congr (by simp [Contents.retractedUnder, Contents.empty])

/-- A new retraction in the table of one of its targets. -/
theorem appendRetraction_groups {contents : Contents} {retraction : ClaimRetracted}
    {dict : Dict String (List ClaimRetracted)} (field : ClaimRetracted → Option String)
    (distinct : Distinct (fun record : ClaimRetracted => record.opId)
      (contents.add (.claimRetracted retraction)).retraction)
    (new : ¬contents.retraction retraction)
    (grouped : Groups ClaimRetracted.order dict (contents.retractedUnder field)) :
    Groups ClaimRetracted.order (appendRetraction dict (field retraction) retraction)
      ((contents.add (.claimRetracted retraction)).retractedUnder field) := by
  unfold appendRetraction
  cases target : truthy (field retraction) with
  | none =>
      refine grouped.congr ?_
      intro key record
      simp only [Contents.retractedUnder, Contents.add]
      constructor
      · rintro ⟨listed, same⟩
        exact ⟨Or.inl listed, same⟩
      · rintro ⟨listed | equal, same⟩
        · exact ⟨listed, same⟩
        · rw [equal, target] at same
          cases same
  | some wanted =>
      have apart : ∀ other, contents.retractedUnder field wanted other →
          other.order ≠ retraction.order := by
        rintro other ⟨listed, _⟩ same
        have ids : other.opId = retraction.opId := congrArg (fun order => (ofLex order).2) same
        rw [distinct other retraction (Or.inl listed) (Or.inr rfl) ids] at listed
        exact new listed
      refine (grouped.appendTo wanted retraction apart).congr ?_
      intro key record
      simp only [Contents.retractedUnder, Contents.add]
      constructor
      · rintro (⟨listed, same⟩ | ⟨same, equal⟩)
        · exact ⟨Or.inl listed, same⟩
        · rw [equal, same]
          exact ⟨Or.inr rfl, target⟩
      · rintro ⟨listed | equal, same⟩
        · exact Or.inl ⟨listed, same⟩
        · rw [equal, target, Option.some.injEq] at same
          exact Or.inr ⟨same.symm, equal⟩

/-- One operation of the pass adds its record. -/
theorem collectStep_holds {registry : PredicateRegistry} {contents : Contents}
    {collected next : Collected} {op : Op} (holds : collected.Holds registry contents)
    (plain : (contents.add op).Plain)
    (new : ∀ retraction, op = .claimRetracted retraction → ¬contents.retraction retraction)
    (run : collectStep registry collected op = .ok next) :
    next.Holds registry (contents.add op) := by
  cases op with
  | sourceAdded header record =>
      rw [collectStep, bind_ok_iff] at run
      obtain ⟨table, bound, same⟩ := run
      rw [pure_ok_iff] at same
      rw [← same]
      have lists := bindRecord_lists holds.records.sources
        (fun other listed => plain.source other record (Or.inl listed) (Or.inr rfl)) bound
      exact { holds with records := { holds.records with sources := lists } }
  | evidenceAdded header record =>
      rw [collectStep, bind_ok_iff] at run
      obtain ⟨table, bound, same⟩ := run
      rw [pure_ok_iff] at same
      rw [← same]
      have lists := bindRecord_lists holds.records.evidence
        (fun other listed => plain.evidence other record (Or.inl listed) (Or.inr rfl)) bound
      exact { holds with records := { holds.records with evidence := lists } }
  | claimAdded header record =>
      rw [collectStep, bind_ok_iff] at run
      obtain ⟨table, bound, same⟩ := run
      rw [pure_ok_iff] at same
      rw [← same]
      have structural : ∀ other, contents.claim other → pyEq other record = true →
          other = record :=
        fun other listed => plain.claim other record (Or.inl listed) (Or.inr rfl)
      have compatible := ((bindRecord_ok_iff holds.records.claims record _ structural _).mp
        bound).1
      refine ⟨⟨holds.records.sources, holds.records.evidence,
        bindRecord_lists holds.records.claims structural bound, holds.records.decisions,
        holds.records.derivations, holds.records.resolutions, holds.records.events⟩, ?_, ?_,
        holds.retractionsByTarget, holds.retractionsByTargetRef, holds.retractionsBySuperseder,
        holds.retractionsBySupersederRef⟩
      · exact holds.claimRefs.insert record _ rfl (fun _ equal => equal.symm) compatible
      · refine (holds.claimIdsByRef.addTo (registry.claimRefForClaim record)
          record.claimId).congr ?_
        intro claimRef claimId
        constructor
        · rintro (⟨claim, listed, sameRef, sameId⟩ | ⟨sameRef, sameId⟩)
          · exact ⟨claim, Or.inl listed, sameRef, sameId⟩
          · exact ⟨record, Or.inr rfl, sameRef.symm, sameId.symm⟩
        · rintro ⟨claim, listed | equal, sameRef, sameId⟩
          · exact Or.inl ⟨claim, listed, sameRef, sameId⟩
          · rw [equal] at sameRef sameId
            exact Or.inr ⟨sameRef.symm, sameId.symm⟩
  | claimRetracted retraction =>
      injection run with run
      rw [← run]
      have fresh := new retraction rfl
      exact ⟨⟨holds.records.sources, holds.records.evidence, holds.records.claims,
        holds.records.decisions, holds.records.derivations, holds.records.resolutions,
        holds.records.events⟩, holds.claimRefs, holds.claimIdsByRef,
        appendRetraction_groups (·.targetClaimId) plain.retraction fresh
          holds.retractionsByTarget,
        appendRetraction_groups (·.targetClaimRef) plain.retraction fresh
          holds.retractionsByTargetRef,
        appendRetraction_groups (·.supersedesClaimId) plain.retraction fresh
          holds.retractionsBySuperseder,
        appendRetraction_groups (·.supersedesClaimRef) plain.retraction fresh
          holds.retractionsBySupersederRef⟩
  | decisionAdded header record =>
      rw [collectStep, bind_ok_iff] at run
      obtain ⟨table, bound, same⟩ := run
      rw [pure_ok_iff] at same
      rw [← same]
      have lists := bindRecord_lists holds.records.decisions
        (fun other listed => plain.decision other record (Or.inl listed) (Or.inr rfl)) bound
      exact { holds with records := { holds.records with decisions := lists } }
  | derivationAdded header record =>
      rw [collectStep, bind_ok_iff] at run
      obtain ⟨table, bound, same⟩ := run
      rw [pure_ok_iff] at same
      rw [← same]
      have lists := bindRecord_lists holds.records.derivations
        (fun other listed => plain.derivation other record (Or.inl listed) (Or.inr rfl)) bound
      exact { holds with records := { holds.records with derivations := lists } }
  | resolutionAdded header record =>
      rw [collectStep, bind_ok_iff] at run
      obtain ⟨table, bound, same⟩ := run
      rw [pure_ok_iff] at same
      rw [← same]
      have lists := bindRecord_lists holds.records.resolutions
        (fun other listed => plain.resolution other record (Or.inl listed) (Or.inr rfl)) bound
      exact { holds with records := { holds.records with resolutions := lists } }
  | conflictLifecycleEventAdded header record =>
      rw [collectStep, bind_ok_iff] at run
      obtain ⟨table, bound, same⟩ := run
      rw [pure_ok_iff] at same
      rw [← same]
      have lists := bindRecord_lists holds.records.events
        (fun other listed => plain.event other record (Or.inl listed) (Or.inr rfl)) bound
      exact { holds with records := { holds.records with events := lists } }

/-- An operation whose record is compatible with the others can be collected. -/
theorem collectStep_exists {registry : PredicateRegistry} {contents : Contents}
    {collected : Collected} {op : Op} (holds : collected.Holds registry contents)
    (plain : (contents.add op).Plain) (consistent : (contents.add op).Consistent) :
    ∃ next, collectStep registry collected op = .ok next := by
  cases op with
  | sourceAdded header record =>
      obtain ⟨table, bound⟩ := bindRecord_exists holds.records.sources "source_id"
        (fun other listed => plain.source other record (Or.inl listed) (Or.inr rfl))
        (fun other listed => consistent.source other record (Or.inl listed) (Or.inr rfl))
      rw [collectStep, bind_of_ok bound]
      exact ⟨_, rfl⟩
  | evidenceAdded header record =>
      obtain ⟨table, bound⟩ := bindRecord_exists holds.records.evidence "evidence_id"
        (fun other listed => plain.evidence other record (Or.inl listed) (Or.inr rfl))
        (fun other listed => consistent.evidence other record (Or.inl listed) (Or.inr rfl))
      rw [collectStep, bind_of_ok bound]
      exact ⟨_, rfl⟩
  | claimAdded header record =>
      obtain ⟨table, bound⟩ := bindRecord_exists holds.records.claims "claim_id"
        (fun other listed => plain.claim other record (Or.inl listed) (Or.inr rfl))
        (fun other listed => consistent.claim other record (Or.inl listed) (Or.inr rfl))
      rw [collectStep, bind_of_ok bound]
      exact ⟨_, rfl⟩
  | claimRetracted retraction => exact ⟨_, rfl⟩
  | decisionAdded header record =>
      obtain ⟨table, bound⟩ := bindRecord_exists holds.records.decisions "decision_id"
        (fun other listed => plain.decision other record (Or.inl listed) (Or.inr rfl))
        (fun other listed => consistent.decision other record (Or.inl listed) (Or.inr rfl))
      rw [collectStep, bind_of_ok bound]
      exact ⟨_, rfl⟩
  | derivationAdded header record =>
      obtain ⟨table, bound⟩ := bindRecord_exists holds.records.derivations "derivation_id"
        (fun other listed => plain.derivation other record (Or.inl listed) (Or.inr rfl))
        (fun other listed => consistent.derivation other record (Or.inl listed) (Or.inr rfl))
      rw [collectStep, bind_of_ok bound]
      exact ⟨_, rfl⟩
  | resolutionAdded header record =>
      obtain ⟨table, bound⟩ := bindRecord_exists holds.records.resolutions "resolution_id"
        (fun other listed => plain.resolution other record (Or.inl listed) (Or.inr rfl))
        (fun other listed => consistent.resolution other record (Or.inl listed) (Or.inr rfl))
      rw [collectStep, bind_of_ok bound]
      exact ⟨_, rfl⟩
  | conflictLifecycleEventAdded header record =>
      obtain ⟨table, bound⟩ := bindRecord_exists holds.records.events "event_id"
        (fun other listed => plain.event other record (Or.inl listed) (Or.inr rfl))
        (fun other listed => consistent.event other record (Or.inl listed) (Or.inr rfl))
      rw [collectStep, bind_of_ok bound]
      exact ⟨_, rfl⟩

section Pass

variable {registry : PredicateRegistry} {ops : List Op} {collected : Collected}

/-- What is known about the operation at one place of the pass. -/
private theorem place_in_pass {done rest : List Op} {op : Op} (distinct : ops.Nodup)
    (split : ops = done ++ op :: rest) :
    ((Contents.of (· ∈ done)).add op).Within (.of (· ∈ ops)) ∧
      ∀ retraction, op = .claimRetracted retraction →
        ¬(Contents.of (· ∈ done)).retraction retraction := by
  constructor
  · rw [← Contents.of_append]
    apply Contents.within_of
    intro other listed
    rw [split]
    rcases List.mem_append.mp listed with before | last
    · exact List.mem_append_left _ before
    · rw [List.mem_singleton.mp last]
      simp
  · intro retraction same listed
    rw [split] at distinct
    have before : op ∈ done := by
      rw [same]
      exact listed
    exact (List.nodup_append.mp distinct).2.2 op before op List.mem_cons_self rfl

private theorem of_nil : Contents.of (· ∈ ([] : List Op)) = .empty := by
  rw [← Contents.of_empty]
  simp

/-- What the steps of the pass keep holds of the whole pass. -/
theorem collect_invariant (invariant : Contents → Collected → Prop) (distinct : ops.Nodup)
    (initially : invariant .empty .empty)
    (preserved : ∀ contents op collected next, (contents.add op).Within (.of (· ∈ ops)) →
      (∀ retraction, op = .claimRetracted retraction → ¬contents.retraction retraction) →
      invariant contents collected → collectStep registry collected op = .ok next →
      invariant (contents.add op) next)
    (run : ops.foldlM (collectStep registry) .empty = .ok collected) :
    invariant (.of (· ∈ ops)) collected := by
  apply foldlM_invariant_split (fun done (state : Collected) =>
    invariant (.of (· ∈ done)) state) ops _ _ run
  · rw [of_nil]
    exact initially
  · intro done op rest state next split holds stepped
    obtain ⟨within, new⟩ := place_in_pass distinct split
    rw [Contents.of_append]
    exact preserved _ op state next within new holds stepped

/-- The pass succeeds when every step does. -/
theorem exists_collect (invariant : Contents → Collected → Prop) (distinct : ops.Nodup)
    (initially : invariant .empty .empty)
    (each : ∀ contents op collected, (contents.add op).Within (.of (· ∈ ops)) →
      (∀ retraction, op = .claimRetracted retraction → ¬contents.retraction retraction) →
      invariant contents collected →
      ∃ next, collectStep registry collected op = .ok next ∧ invariant (contents.add op) next) :
    ∃ collected, ops.foldlM (collectStep registry) .empty = .ok collected := by
  obtain ⟨collected, looped, _⟩ := exists_foldlM_invariant (fun done (state : Collected) =>
    invariant (.of (· ∈ done)) state) ops .empty
    (by
      rw [of_nil]
      exact initially)
    (by
      intro done op rest state split holds
      obtain ⟨within, new⟩ := place_in_pass distinct split
      rw [Contents.of_append]
      exact each _ op state within new holds)
  exact ⟨collected, looped⟩

/-- The pass collects the records of the operations. -/
theorem collect_holds (distinct : ops.Nodup) (plain : (Contents.of (· ∈ ops)).Plain)
    (run : ops.foldlM (collectStep registry) .empty = .ok collected) :
    collected.Holds registry (.of (· ∈ ops)) :=
  collect_invariant (fun contents state => state.Holds registry contents) distinct
    (Collected.holds_empty registry)
    (fun _ _ _ _ within new holds stepped =>
      collectStep_holds holds (plain.mono within) new stepped) run

/-- The pass succeeds when no identifier is bound to two records. -/
theorem collect_exists (registry : PredicateRegistry) (distinct : ops.Nodup)
    (plain : (Contents.of (· ∈ ops)).Plain)
    (consistent : (Contents.of (· ∈ ops)).Consistent) :
    ∃ collected, ops.foldlM (collectStep registry) .empty = .ok collected := by
  refine exists_collect (fun contents state => state.Holds registry contents) distinct
    (Collected.holds_empty registry) ?_
  intro contents op collected within new holds
  have plainHere := plain.mono within
  obtain ⟨next, stepped⟩ := collectStep_exists holds plainHere (consistent.mono within)
  exact ⟨next, stepped, collectStep_holds holds plainHere new stepped⟩

end Pass

/-! ## Active claims -/

section Claims

variable {registry : PredicateRegistry} {contents : Contents} {collected : Collected}

/-- The inactive ids are those of the retracted claims, by id or by reference. -/
theorem mem_inactiveIds_of
    (claimIds : Indexes collected.claimIdsByRef (fun claimRef claimId =>
      ∃ claim, contents.claim claim ∧ registry.claimRefForClaim claim = claimRef ∧
        claim.claimId = claimId))
    (byTarget : Groups ClaimRetracted.order collected.retractionsByTarget
      (contents.retractedUnder (·.targetClaimId)))
    (byTargetRef : Groups ClaimRetracted.order collected.retractionsByTargetRef
      (contents.retractedUnder (·.targetClaimRef))) (claimId : String) :
    claimId ∈ inactiveIds collected ↔ contents.inactive registry claimId := by
  have targets : ∀ {dict : Dict String (List ClaimRetracted)}
      {field : ClaimRetracted → Option String},
      Groups ClaimRetracted.order dict (contents.retractedUnder field) → ∀ target : String,
      target ∈ dict.keys ↔ ∃ retraction, contents.retractedUnder field target retraction := by
    intro dict field grouped target
    rw [Dict.mem_keys]
    constructor
    · rintro ⟨items, found⟩
      obtain ⟨retraction, member⟩ :=
        List.exists_mem_of_ne_nil items (grouped.nonempty target items found)
      exact ⟨retraction, (grouped.exact target retraction).mp ⟨items, found, member⟩⟩
    · rintro ⟨retraction, related⟩
      obtain ⟨items, found, _⟩ := (grouped.exact target retraction).mpr related
      exact ⟨items, found⟩
  unfold inactiveIds
  rw [mem_foldl_inserts, PySet.mem_ofList, targets byTarget]
  apply or_congr Iff.rfl
  constructor
  · rintro ⟨claimRef, listed, member⟩
    obtain ⟨retraction, retracted, target⟩ := (targets byTargetRef claimRef).mp listed
    rw [PySet.mem_toList, claimIds.mem_getD] at member
    obtain ⟨claim, isClaim, sameRef, sameId⟩ := member
    exact ⟨retraction, claim, retracted, isClaim, by rw [sameRef]; exact target, sameId⟩
  · rintro ⟨retraction, claim, retracted, isClaim, target, sameId⟩
    refine ⟨registry.claimRefForClaim claim,
      (targets byTargetRef _).mpr ⟨retraction, retracted, target⟩, ?_⟩
    rw [PySet.mem_toList, claimIds.mem_getD]
    exact ⟨claim, isClaim, rfl, sameId⟩

/-- The inactive ids that the pass computes. -/
theorem mem_inactiveIds (holds : collected.Holds registry contents) (claimId : String) :
    claimId ∈ inactiveIds collected ↔ contents.inactive registry claimId :=
  mem_inactiveIds_of holds.claimIdsByRef holds.retractionsByTarget holds.retractionsByTargetRef
    claimId

/-- Without an instant and a context every claim applies. -/
theorem partitionClaims_eq (collected : Collected) (inactive : PySet String) :
    partitionClaims collected inactive none ∅ =
      .ok ((Dict.values collected.claimsById).filter (fun claim => claim.claimId ∉ inactive),
        ∅) := by
  have applies : ∀ claim : Claim, claimApplies claim none ∅ = .ok true := by
    intro claim
    rw [claimApplies, contextExcludes]
    simp
  have general : ∀ (claims kept : List Claim),
      claims.foldlM (fun (state : List Claim × PySet String) claim =>
        if claim.claimId ∈ inactive then return state
        else do
          let applies ← claimApplies claim none ∅
          if applies then return (state.1 ++ [claim], state.2)
          else return (state.1, state.2.insert claim.claimId)) (kept, ∅) =
        (.ok (kept ++ claims.filter (fun claim => claim.claimId ∉ inactive), ∅) :
          Result (List Claim × PySet String)) := by
    intro claims
    induction claims with
    | nil =>
        intro kept
        simp [pure, Except.pure]
    | cons head tail inductionHypothesis =>
        intro kept
        rw [List.foldlM_cons]
        by_cases gone : head.claimId ∈ inactive
        · rw [if_pos gone, List.filter_cons_of_neg (by simp [gone])]
          exact inductionHypothesis kept
        · rw [if_neg gone, applies head, List.filter_cons_of_pos (by simp [gone])]
          have later := inductionHypothesis (kept ++ [head])
          rw [List.append_assoc, List.singleton_append] at later
          exact later
  have all := general (Dict.values collected.claimsById) []
  rw [List.nil_append] at all
  exact all

/-- The active claims under their keys. -/
theorem activeClaims_grouped (holds : collected.Holds registry contents) :
    SortedGroups Claim.claimId
      (sortGroups Claim.claimId (groupBy Claim.key ((Dict.values collected.claimsById).filter
        (fun claim => claim.claimId ∉ inactiveIds collected))))
      (fun key claim => contents.active registry claim ∧ claim.key = key) := by
  have distinct := (holds.records.claims.values_distinct.filter
    (fun claim => decide (claim.claimId ∉ inactiveIds collected))).imp
      (fun {first second} below => ne_of_lt below)
  refine (groups_groupBy Claim.key distinct).sortGroups.congr ?_
  intro key claim
  rw [List.mem_filter, holds.records.claims.mem_values, decide_eq_true_eq,
    mem_inactiveIds holds]
  exact Iff.rfl

end Claims

/-! ## Conflicts -/

section Conflicts

variable {context : ConflictDetectionContext} {member : Claim → Prop}

/-- The finding about a key, as far as it can be computed. -/
def reported (context : ConflictDetectionContext) (key : ClaimKey) : Option ConflictSet :=
  match context.finding key with
  | .ok found => found
  | .error _ => none

/-- The direct detector reports the findings about all keys. -/
theorem directConflicts_ok (grouped : context.Groups member)
    (readable : ∀ claim, member claim → Readable claim) :
    ∃ direct, directConflicts context = .ok direct ∧
      direct.Pairwise (fun first second => first.key ≠ second.key) ∧
      ∀ conflict, conflict ∈ direct ↔ ∃ key, context.finding key = .ok (some conflict) := by
  have computed : ∀ key, context.finding key = .ok (reported context key) := by
    intro key
    obtain ⟨found, isFound⟩ :=
      finding_exists grouped key (fun claim isMember _ => readable claim isMember)
    rw [reported, isFound]
  have each : ∀ entry ∈ context.activeClaimsByKey.toList,
      directConflictFor context entry.1 entry.2 = .ok (reported context entry.1) := by
    intro entry listed
    have sorted := active_sorted grouped entry.1
    have members := mem_active grouped entry.1
    have bound : context.activeClaimsByKey[entry.1]?.getD [] = entry.2 := by
      rw [(Dict.mem_toList _ entry.1 entry.2).mp listed, Option.getD_some]
    rw [bound] at sorted members
    have isFound := computed entry.1
    rw [ConflictDetectionContext.finding, bound] at isFound
    rw [← isFound]
    exact directConflictFor_eq sorted
      (fun claim found => readable claim ((members claim).mp found).1)
  have all : context.activeClaimsByKey.toList.mapM (fun entry =>
      directConflictFor context entry.1 entry.2) =
      .ok (context.activeClaimsByKey.toList.map fun entry => reported context entry.1) :=
    mapM_eq_map _ each
  refine ⟨context.activeClaimsByKey.toList.filterMap fun entry => reported context entry.1,
    ?_, ?_, ?_⟩
  · rw [directConflicts, bind_of_ok all, List.reduceOption, List.filterMap_map]
    rfl
  · rw [List.pairwise_filterMap]
    refine (Dict.toList_sorted _).imp ?_
    intro first second below conflict isFound other otherFound same
    have firstKey := (finding_direct grouped ((computed first.1).trans (congrArg _ isFound))).1
    have secondKey :=
      (finding_direct grouped ((computed second.1).trans (congrArg _ otherFound))).1
    rw [firstKey, secondKey] at same
    exact ne_of_lt below same
  · intro conflict
    rw [List.mem_filterMap]
    constructor
    · rintro ⟨entry, _, isFound⟩
      exact ⟨entry.1, (computed entry.1).trans (congrArg _ isFound)⟩
    · rintro ⟨key, isFound⟩
      have present : key ∈ context.activeClaimsByKey := by
        by_contra absent
        rw [finding_absent absent] at isFound
        cases isFound
      obtain ⟨claims, bound⟩ := (Dict.mem_iff _ key).mp present
      refine ⟨(key, claims), (Dict.mem_toList _ key claims).mpr bound, ?_⟩
      rw [reported, isFound]

/-- A finding passes the checks on reported conflicts. -/
private theorem acceptConflict_finding (collisionFree : CollisionFree)
    (grouped : context.Groups member)
    (claimsById : Lists context.claimsById Claim.claimId member)
    {key : ClaimKey} {conflict : ConflictSet}
    (found : context.finding key = .ok (some conflict)) {accepted : AcceptedConflicts}
    {done : ConflictSet → Prop} (holds : accepted.Holds done)
    (findings : ∀ other, done other → ∃ otherKey, context.finding otherKey = .ok (some other))
    (new : ¬done conflict) :
    ∃ next, acceptConflict context accepted conflict = .ok next ∧
      next.Holds (fun other => done other ∨ other = conflict) := by
  obtain ⟨candidates, witnesses, among, isFinding⟩ := finding_spec grouped found
  have missing : missingCandidates context conflict = [] := by
    rw [missingCandidates, sortBy_eq_nil, List.map_eq_nil_iff, List.filter_eq_nil_iff]
    intro claim listed
    rw [isFinding.candidates, mem_sortBy] at listed
    rw [claimsById.get_key (among claim listed).1]
    simp [pyEq_refl]
  have canonicalRef : conflict.conflictRef = deriveConflictRef conflict.key conflict.conflictType
      conflict.keys conflict.detectorId := by
    rw [isFinding.anchor, isFinding.conflictType, isFinding.keys, isFinding.detectorId]
    exact isFinding.conflictRef
  have canonicalId : conflict.conflictId = deriveConflictId conflict.key
      (conflict.candidates.map Claim.claimId) conflict.conflictType conflict.keys
      conflict.detectorId := by
    rw [isFinding.anchor, isFinding.conflictType, isFinding.keys, isFinding.detectorId]
    exact isFinding.conflictId
  have newId : accepted.byId[conflict.conflictId]? = none := by
    apply holds.byId.get_none.mpr
    intro other listed same
    obtain ⟨otherKey, otherFound⟩ := findings other listed
    rw [finding_of_id collisionFree grouped otherFound found same] at listed
    exact new listed
  have newRef : accepted.refs[conflict.conflictRef]? = none := by
    rw [Option.eq_none_iff_forall_ne_some]
    intro conflictId bound
    obtain ⟨other, listed, same, _⟩ := (holds.refs _ _).mp bound
    obtain ⟨otherKey, otherFound⟩ := findings other listed
    rw [finding_of_ref collisionFree grouped otherFound found same] at listed
    exact new listed
  have step : acceptConflict context accepted conflict =
      .ok ⟨accepted.byId.insert conflict.conflictId conflict,
        accepted.refs.insert conflict.conflictRef conflict.conflictId⟩ := by
    simp only [acceptConflict, missing, newId, newRef]
    rw [if_neg (by simp), if_neg]
    rw [not_or, not_not, not_not]
    exact ⟨canonicalRef, canonicalId⟩
  refine ⟨_, step, ?_⟩
  rcases acceptConflict_ok holds step with same | extended
  · have inserted := congrArg (fun accepted : AcceptedConflicts =>
      accepted.byId[conflict.conflictId]?) same
    simp only [Dict.get_insert_self, newId] at inserted
    cases inserted
  · exact extended

/-- Without custom detectors the conflicts are the findings, in the order of their ids. -/
theorem runConflictDetectors_direct (collisionFree : CollisionFree)
    (grouped : context.Groups member)
    (claimsById : Lists context.claimsById Claim.claimId member)
    (readable : ∀ claim, member claim → Readable claim) :
    ∃ conflicts, runConflictDetectors context [] = .ok conflicts ∧
      conflicts.Pairwise (fun first second => first.conflictId < second.conflictId) ∧
      ∀ conflict, conflict ∈ conflicts ↔ ∃ key, context.finding key = .ok (some conflict) := by
  obtain ⟨direct, detected, apart, members⟩ := directConflicts_ok grouped readable
  obtain ⟨accepted, looped, holds⟩ := exists_foldlM_invariant
    (fun done (accepted : AcceptedConflicts) => accepted.Holds (· ∈ done))
    direct ⟨∅, ∅⟩ (AcceptedConflicts.holds_empty.congr (by simp)) (by
      intro done conflict rest state split holds
      have listed : ∀ other ∈ done, other ∈ direct := by
        intro other before
        rw [split]
        exact List.mem_append_left _ before
      obtain ⟨key, found⟩ := (members conflict).mp (by rw [split]; simp)
      obtain ⟨next, stepped, extended⟩ := acceptConflict_finding collisionFree grouped
        claimsById found holds (fun other before => (members other).mp (listed other before)) (by
          intro before
          rw [split] at apart
          exact (List.pairwise_append.mp apart).2.2 conflict before conflict List.mem_cons_self rfl)
      exact ⟨next, stepped, extended.congr (by simp)⟩)
  refine ⟨Dict.values accepted.byId, ?_, holds.byId.values_distinct, ?_⟩
  · have none : ([] : List ConflictDetector).mapM (fun detector => detector context) = .ok [] := rfl
    rw [runConflictDetectors, bind_of_ok detected, bind_of_ok none, List.flatten_nil,
      List.append_nil, bind_of_ok looped]
    rfl
  · intro conflict
    rw [holds.byId.mem_values, members]

/-- The tables of the findings. -/
theorem conflict_tables (collisionFree : CollisionFree) (grouped : context.Groups member)
    {conflicts : List ConflictSet}
    (sorted : conflicts.Pairwise (fun first second => first.conflictId < second.conflictId))
    (findings : ∀ conflict, conflict ∈ conflicts ↔
      ∃ key, context.finding key = .ok (some conflict)) :
    Lists (Dict.ofItems (fun conflict : ConflictSet => conflict.conflictId) conflicts)
        (·.conflictId) (fun conflict => ∃ key, context.finding key = .ok (some conflict)) ∧
      Lists (Dict.ofItems (fun conflict : ConflictSet => conflict.conflictRef) conflicts)
        (·.conflictRef) (fun conflict => ∃ key, context.finding key = .ok (some conflict)) ∧
      conflicts = Dict.values
        (Dict.ofItems (fun conflict : ConflictSet => conflict.conflictId) conflicts) ∧
      Maps (groupConflictsByKey conflicts) (fun key items => ∃ conflict,
        context.finding key = .ok (some conflict) ∧ items = [conflict]) ∧
      Maps (directConflictsByKey conflicts)
        (fun key conflict => context.finding key = .ok (some conflict)) := by
  have byId : Lists (Dict.ofItems (fun conflict : ConflictSet => conflict.conflictId) conflicts)
      (·.conflictId) (· ∈ conflicts) := Lists.ofItems (sorted.imp (fun below => ne_of_lt below))
  have refs : conflicts.Pairwise (fun first second => first.conflictRef ≠ second.conflictRef) := by
    refine sorted.imp_of_mem ?_
    intro first second firstListed secondListed below same
    obtain ⟨key, found⟩ := (findings first).mp firstListed
    obtain ⟨otherKey, otherFound⟩ := (findings second).mp secondListed
    rw [finding_of_ref collisionFree grouped found otherFound same] at below
    exact lt_irrefl _ below
  have keys : conflicts.Pairwise (fun first second => first.key ≠ second.key) := by
    refine sorted.imp_of_mem ?_
    intro first second firstListed secondListed below same
    obtain ⟨key, found⟩ := (findings first).mp firstListed
    obtain ⟨otherKey, otherFound⟩ := (findings second).mp secondListed
    rw [(finding_direct grouped found).1, (finding_direct grouped otherFound).1] at same
    rw [finding_eq found otherFound same] at below
    exact lt_irrefl _ below
  have ownKey : ∀ (key : ClaimKey) (conflict : ConflictSet),
      (conflict ∈ conflicts ∧ conflict.key = key) ↔
        context.finding key = .ok (some conflict) := by
    intro key conflict
    constructor
    · rintro ⟨listed, same⟩
      obtain ⟨place, found⟩ := (findings conflict).mp listed
      rw [← same, (finding_direct grouped found).1]
      exact found
    · intro found
      exact ⟨(findings conflict).mpr ⟨key, found⟩, (finding_direct grouped found).1⟩
  refine ⟨byId.congr findings, (Lists.ofItems refs).congr findings, ?_, ?_, ?_⟩
  · apply eq_of_strictly_sorted sorted byId.values_distinct
    intro conflict
    rw [byId.mem_values]
  · have plainGroups : groupConflictsByKey conflicts =
        sortGroups (·.conflictId)
          (groupBy (fun conflict : ConflictSet => conflict.key) conflicts) := by
      have general : ∀ (rest : List ConflictSet) (groups : Dict ClaimKey (List ConflictSet)),
          (∀ conflict ∈ rest, conflict ∈ conflicts) →
          rest.foldl (fun groups conflict =>
            conflict.keys.foldl (fun groups key => appendTo groups key conflict) groups) groups =
          rest.foldl (fun groups conflict => appendTo groups conflict.key conflict) groups := by
        intro rest
        induction rest with
        | nil =>
            intro groups _
            rfl
        | cons head tail inductionHypothesis =>
            intro groups listed
            obtain ⟨key, found⟩ := (findings head).mp (listed head List.mem_cons_self)
            obtain ⟨anchor, ownKeys, _⟩ := finding_direct grouped found
            rw [List.foldl_cons, List.foldl_cons, ownKeys, anchor]
            exact inductionHypothesis _
              (fun conflict later => listed conflict (List.mem_cons_of_mem _ later))
      rw [groupConflictsByKey, groupBy, general conflicts ∅ (fun _ listed => listed)]
    rw [plainGroups]
    have groupedByKey := (groups_groupBy (fun conflict : ConflictSet => conflict.key)
      (sorted.imp (fun {first second} below => ne_of_lt below))).sortGroups
    refine ((groupedByKey.congr ownKey).maps_single ?_)
    intro key first second firstFound secondFound
    exact finding_eq firstFound secondFound rfl
  · have all : conflicts.filter (fun conflict =>
        conflict.conflictType = directConflictType ∧ isDirectFor conflict.key conflict) =
          conflicts := by
      rw [List.filter_eq_self]
      intro conflict listed
      obtain ⟨key, found⟩ := (findings conflict).mp listed
      obtain ⟨anchor, ownKeys, conflictType, detectorId⟩ := finding_direct grouped found
      simp [isDirectFor, anchor, ownKeys, conflictType, detectorId]
    rw [directConflictsByKey, all]
    exact Maps.congr (Lists.ofItems keys) ownKey

end Conflicts

private theorem buildIndexes_ok {active : Dict ClaimKey (List Claim)}
    {registry : PredicateRegistry} {direct : Dict ClaimKey ConflictSet}
    {good : ClaimKey → DirectConflictIndex → Prop}
    (each : ∀ (key : ClaimKey) (claims : List Claim), active[key]? = some claims →
      ∃ index, buildDirectConflictIndex claims registry direct[key]? = .ok index ∧
        good key index) :
    ∃ indexes, buildIndexes active registry direct = .ok indexes ∧
      (∀ key : ClaimKey, key ∈ indexes ↔ key ∈ active) ∧
      ∀ (key : ClaimKey) (index : DirectConflictIndex), indexes[key]? = some index →
        good key index := by
  have bound : ∀ entry ∈ active.toList, active[entry.1]? = some entry.2 :=
    fun entry listed => (Dict.mem_toList active entry.1 entry.2).mp listed
  have loop : ∃ indexes, buildIndexes active registry direct = .ok indexes ∧
      (∀ key : ClaimKey, key ∈ indexes ↔ ∃ claims, (key, claims) ∈ active.toList) ∧
      ∀ (key : ClaimKey) (index : DirectConflictIndex), indexes[key]? = some index →
        good key index := by
    apply exists_foldlM_invariant (fun done (indexes : Dict ClaimKey DirectConflictIndex) =>
      (∀ key : ClaimKey, key ∈ indexes ↔ ∃ claims, (key, claims) ∈ done) ∧
      ∀ (key : ClaimKey) (index : DirectConflictIndex), indexes[key]? = some index →
        good key index)
    · exact ⟨by simp, by simp⟩
    · intro done entry rest indexes split holds
      obtain ⟨index, built, isGood⟩ := each entry.1 entry.2 (bound entry (by rw [split]; simp))
      refine ⟨indexes.insert entry.1 index, ?_, ?_, ?_⟩
      · rw [bind_of_ok built]
        rfl
      · intro key
        rw [Dict.mem_iff, Dict.get_insert]
        by_cases same : entry.1 = key
        · subst same
          simp only [if_true, Option.some.injEq, exists_eq', true_iff]
          exact ⟨entry.2, by simp⟩
        · rw [if_neg same, ← Dict.mem_iff, holds.1 key]
          constructor
          · rintro ⟨claims, listed⟩
            exact ⟨claims, List.mem_append_left _ listed⟩
          · rintro ⟨claims, listed⟩
            rcases List.mem_append.mp listed with before | last
            · exact ⟨claims, before⟩
            · rw [← List.mem_singleton.mp last] at same
              exact absurd rfl same
      · intro key found located
        rw [Dict.get_insert] at located
        by_cases same : entry.1 = key
        · rw [if_pos same, Option.some.injEq] at located
          rw [← same, ← located]
          exact isGood
        · rw [if_neg same] at located
          exact holds.2 key found located
  obtain ⟨indexes, looped, present, all⟩ := loop
  refine ⟨indexes, looped, ?_, all⟩
  intro key
  rw [present key, Dict.mem_iff]
  exact exists_congr fun claims => Dict.mem_toList active key claims

theorem readable_of_buildIndexes {active : Dict ClaimKey (List Claim)}
    {registry : PredicateRegistry} {direct : Dict ClaimKey ConflictSet}
    {indexes : Dict ClaimKey DirectConflictIndex} {related : ClaimKey → Claim → Prop}
    (grouped : SortedGroups Claim.claimId active related)
    (run : buildIndexes active registry direct = .ok indexes) (key : ClaimKey) (claim : Claim)
    (isActive : related key claim) : Readable claim := by
  have invariant := foldlM_invariant (fun done (_ : Dict ClaimKey DirectConflictIndex) =>
    ∀ entry ∈ done, ∀ claim ∈ entry.2, Readable claim) _ _ _ run (by simp) (by
      intro done entry indexes next holds listed stepped other member
      rcases List.mem_append.mp member with before | last
      · exact holds other before
      · rw [bind_ok_iff] at stepped
        obtain ⟨index, built, _⟩ := stepped
        rw [List.mem_singleton.mp last]
        exact readable_of_buildDirectConflictIndex
          ((grouped.sorted entry.1 entry.2 ((Dict.mem_toList active _ _).mp listed)).imp
            (fun below => ne_of_lt below)) built)
  obtain ⟨claims, found, member⟩ := (grouped.exact key claim).mpr isActive
  exact invariant (key, claims) ((Dict.mem_toList active key claims).mpr found) claim member

/-! ## The whole -/

section Whole

variable {registry : PredicateRegistry} {contents : Contents} {collected : Collected}

private theorem groupResolutionHistory_spec (holds : collected.Holds registry contents) :
    SortedGroups ResolutionRecord.order (groupResolutionHistory collected.resolutionsById).1
        (fun conflictRef resolution => contents.resolution resolution ∧
          resolution.conflictRef = conflictRef) ∧
      SortedGroups ResolutionRecord.order (groupResolutionHistory collected.resolutionsById).2
        (fun lane resolution => contents.resolution resolution ∧ resolution.lane = lane) := by
  have lists := holds.records.resolutions
  have distinct : (Dict.values collected.resolutionsById).Pairwise
      (fun first second => first.order ≠ second.order) :=
    lists.values_distinct.imp (fun {first second} below same =>
      ne_of_lt below (congrArg Prod.snd same))
  constructor
  · refine (groups_groupBy _ distinct).sortGroups.congr ?_
    intro conflictRef resolution
    rw [lists.mem_values]
  · refine (groups_groupBy _ distinct).sortGroups.congr ?_
    intro lane resolution
    rw [lists.mem_values]

private theorem groupLifecycleHistory_spec (holds : collected.Holds registry contents) :
    SortedGroups ConflictLifecycleEvent.order
        (groupLifecycleHistory collected.lifecycleEventsById).1
        (fun conflictRef event => contents.event event ∧ event.conflictRef = conflictRef) ∧
      SortedGroups ConflictLifecycleEvent.order
        (groupLifecycleHistory collected.lifecycleEventsById).2
        (fun lane event => contents.event event ∧ event.lane = lane) := by
  have lists := holds.records.events
  have distinct : (Dict.values collected.lifecycleEventsById).Pairwise
      (fun first second => first.order ≠ second.order) :=
    lists.values_distinct.imp (fun {first second} below same =>
      ne_of_lt below (congrArg Prod.snd same))
  constructor
  · refine (groups_groupBy _ distinct).sortGroups.congr ?_
    intro conflictRef event
    rw [lists.mem_values]
  · refine (groups_groupBy _ distinct).sortGroups.congr ?_
    intro lane event
    rw [lists.mem_values]

/-- The active claims of the collected records, as the detectors see them. -/
theorem detection_grouped {active : Dict ClaimKey (List Claim)} {member : Claim → Prop}
    (grouped : SortedGroups Claim.claimId active (fun key claim => member claim ∧ claim.key = key))
    (distinct : Distinct (fun claim : Claim => claim.claimId) member)
    (registry : PredicateRegistry) (evidenceById : Dict String Evidence)
    (sourcesById : Dict String Source) (derivationsById : Dict String Derivation)
    (activeDecisions : List Decision) :
    (detectionContext registry active evidenceById sourcesById derivationsById
        activeDecisions).Groups member ∧
      Lists (detectionContext registry active evidenceById sourcesById derivationsById
        activeDecisions).claimsById Claim.claimId member := by
  refine ⟨grouped, ?_⟩
  have members : ∀ claim, claim ∈ (Dict.values active).flatten ↔ member claim := by
    intro claim
    rw [List.mem_flatten]
    constructor
    · rintro ⟨claims, listed, inside⟩
      obtain ⟨key, found⟩ := (Dict.mem_values active claims).mp listed
      exact ((grouped.exact key claim).mp ⟨claims, found, inside⟩).1
    · intro isActive
      obtain ⟨claims, found, inside⟩ := (grouped.exact claim.key claim).mpr ⟨isActive, rfl⟩
      exact ⟨claims, (Dict.mem_values active claims).mpr ⟨claim.key, found⟩, inside⟩
  have apart : (Dict.values active).flatten.Pairwise
      (fun first second => first.claimId ≠ second.claimId) := by
    rw [List.pairwise_flatten]
    constructor
    · intro claims listed
      obtain ⟨key, found⟩ := (Dict.mem_values active claims).mp listed
      exact (grouped.sorted key claims found).imp (fun below => ne_of_lt below)
    · rw [Dict.values, List.pairwise_map]
      refine active.toList_sorted.imp_of_mem ?_
      intro first second firstListed secondListed below claim inside other otherInside same
      have firstFound := (Dict.mem_toList active _ _).mp firstListed
      have secondFound := (Dict.mem_toList active _ _).mp secondListed
      obtain ⟨isActive, ownKey⟩ := (grouped.exact first.1 claim).mp ⟨_, firstFound, inside⟩
      obtain ⟨otherActive, otherKey⟩ :=
        (grouped.exact second.1 other).mp ⟨_, secondFound, otherInside⟩
      have equal := distinct claim other isActive otherActive same
      rw [← ownKey, ← otherKey, equal] at below
      exact lt_irrefl _ below
  exact (Lists.ofItems apart).congr members

variable {log : OpLog}

theorem OpLog.mem_iterOps (log : OpLog) (op : Op) :
    op ∈ log.iterOps ↔ log.ops[op.opId]? = some op := by
  have keyed : Keyed log.ops Op.opId := log.keyed
  rw [iterOps, Dict.mem_values]
  constructor
  · rintro ⟨opId, found⟩
    rw [keyed opId op found]
    exact found
  · intro found
    exact ⟨op.opId, found⟩

/-- Operations are listed in the order of their ids. -/
theorem OpLog.iterOps_sorted (log : OpLog) :
    log.iterOps.Pairwise fun first second => first.opId < second.opId := by
  have keyed : Keyed log.ops Op.opId := log.keyed
  exact keyed.lists.values_distinct

theorem OpLog.iterOps_nodup (log : OpLog) : log.iterOps.Nodup :=
  log.iterOps_sorted.imp (fun below same => ne_of_lt below (congrArg Op.opId same))

theorem OpLog.mem_insert {op : Op} (fresh : log.ops[op.opId]? = none) (other : Op) :
    other ∈ (log.insert op).iterOps ↔ other ∈ log.iterOps ∨ other = op := by
  rw [OpLog.mem_iterOps, OpLog.mem_iterOps, OpLog.insert, Dict.get_insert]
  by_cases same : op.opId = other.opId
  · rw [if_pos same, ← same, fresh]
    simp [eq_comm]
  · rw [if_neg same]
    refine (or_iff_left ?_).symm
    intro equal
    exact same (congrArg Op.opId equal).symm

theorem OpLog.add_fresh {op : Op} (fresh : log.ops[op.opId]? = none) :
    (log.add op).map Prod.fst = .ok (log.insert op) := by
  rw [OpLog.add, fresh]
  rfl

/-- The index that is built for a key is the index of its active claims. -/
theorem buildIndexes_indexFor {context : ConflictDetectionContext}
    {direct : Dict ClaimKey ConflictSet} {member : Claim → Prop}
    (grouped : context.Groups member) (readable : ∀ claim, member claim → Readable claim)
    (findings : Maps direct (fun key conflict => context.finding key = .ok (some conflict))) :
    ∃ indexes, buildIndexes context.activeClaimsByKey context.predicateRegistry direct =
        .ok indexes ∧
      (∀ key : ClaimKey, key ∈ indexes ↔ key ∈ context.activeClaimsByKey) ∧
      ∀ (key : ClaimKey) (index : DirectConflictIndex), indexes[key]? = some index →
        IndexFor context.predicateRegistry key (fun claim => member claim ∧ claim.key = key)
          index := by
  apply buildIndexes_ok
  intro key claims found
  have members := mem_active grouped key
  have sorted := active_sorted grouped key
  rw [found, Option.getD_some] at members sorted
  obtain ⟨report, reportFound⟩ := finding_exists grouped key
    (fun claim isMember _ => readable claim isMember)
  have reportIs : direct[key]? = report := by
    cases report with
    | none =>
        rw [findings.get_none]
        intro conflict isFinding
        rw [reportFound] at isFinding
        cases isFinding
    | some conflict => exact (findings key conflict).mpr reportFound
  rw [ConflictDetectionContext.finding, found, Option.getD_some] at reportFound
  obtain ⟨index, built, indexed⟩ := buildDirectConflictIndex_ok sorted
    (fun claim listed => ((members claim).mp listed).2)
    (fun claim listed => readable claim ((members claim).mp listed).1) reportFound
  rw [reportIs]
  exact ⟨index, built, indexed.congr members⟩

/-- The direct conflicts of readable claims, and their indexes, can be computed. -/
theorem conflicts_of_active (collisionFree : CollisionFree) {active : Dict ClaimKey (List Claim)}
    {member : Claim → Prop}
    (grouped : SortedGroups Claim.claimId active (fun key claim => member claim ∧ claim.key = key))
    (distinct : Distinct (fun claim : Claim => claim.claimId) member)
    (readable : ∀ claim, member claim → Readable claim)
    (registry : PredicateRegistry) (evidenceById : Dict String Evidence)
    (sourcesById : Dict String Source) (derivationsById : Dict String Derivation)
    (activeDecisions : List Decision) :
    ∃ conflicts indexes, runConflictDetectors (detectionContext registry active evidenceById
        sourcesById derivationsById activeDecisions) [] = .ok conflicts ∧
      buildIndexes active registry (directConflictsByKey conflicts) = .ok indexes := by
  obtain ⟨contextGrouped, contextClaims⟩ := detection_grouped grouped distinct registry
    evidenceById sourcesById derivationsById activeDecisions
  obtain ⟨conflicts, detected, conflictsSorted, findings⟩ :=
    runConflictDetectors_direct collisionFree contextGrouped contextClaims readable
  obtain ⟨_, _, _, _, direct⟩ :=
    conflict_tables collisionFree contextGrouped conflictsSorted findings
  obtain ⟨indexes, built, _, _⟩ := buildIndexes_indexFor contextGrouped readable direct
  exact ⟨conflicts, indexes, detected, built⟩

/-- What materialization computes represents the log. -/
theorem materialize_represents (collisionFree : CollisionFree)
    (plain : (Contents.of (· ∈ log.iterOps)).Plain) {state : MemoryState}
    (run : materialize log registry [] none ∅ = .ok state) :
    Represents registry (.of (· ∈ log.iterOps)) state ∧
      (Contents.of (· ∈ log.iterOps)).Good registry := by
  obtain ⟨_, collected, collects, active, partitioned, decisions, sorts, conflicts, detected,
    indexes, built, lifecycle, folds, same⟩ := materialize_ok_iff.mp run
  have holds := collect_holds log.iterOps_nodup plain collects
  have consistent := holds.records.consistent
  rw [partitionClaims_eq] at partitioned
  injection partitioned with partitioned
  subst partitioned
  have grouped := activeClaims_grouped holds
  have readable : ∀ claim, (Contents.of (· ∈ log.iterOps)).active registry claim →
      Readable claim :=
    fun claim isActive => readable_of_buildIndexes grouped built claim.key claim ⟨isActive, rfl⟩
  obtain ⟨contextGrouped, contextClaims⟩ :=
    detection_grouped grouped (fun first second firstActive secondActive =>
      consistent.claim first second firstActive.1 secondActive.1) registry collected.evidenceById
      collected.sourcesById collected.derivationsById decisions
  obtain ⟨conflicts', detected', conflictsSorted, findings⟩ :=
    runConflictDetectors_direct collisionFree contextGrouped contextClaims readable
  rw [detected] at detected'
  injection detected' with sameConflicts
  subst sameConflicts
  obtain ⟨byId, byRef, listed, byKey, direct⟩ :=
    conflict_tables collisionFree contextGrouped conflictsSorted findings
  obtain ⟨indexes', built', present, indexed⟩ :=
    buildIndexes_indexFor contextGrouped readable direct
  have sameIndexes : (Except.ok indexes : Result _) = .ok indexes' := built.symm.trans built'
  injection sameIndexes with sameIndexes
  subst sameIndexes
  obtain ⟨decisionsListed, decisionsSorted⟩ := decisions_sorted holds.records.decisions sorts
  obtain ⟨resolutionsByRef, resolutionsByLane⟩ := groupResolutionHistory_spec holds
  obtain ⟨eventsByRef, eventsByLane⟩ := groupLifecycleHistory_spec holds
  refine ⟨?_, consistent, ?_, readable⟩
  · subst same
    exact {
      sameRegistry := rfl
      sources := holds.records.sources
      evidence := holds.records.evidence
      claims := holds.records.claims
      derivations := holds.records.derivations
      resolutions := holds.records.resolutions
      events := holds.records.events
      decisions := decisionsListed
      decisionsSorted := decisionsSorted
      claimRefs := holds.claimRefs
      claimIdsByRef := holds.claimIdsByRef.listed
      retractionsByTarget := holds.retractionsByTarget.sortGroups
      retractionsByTargetRef := holds.retractionsByTargetRef.sortGroups
      retractionsBySuperseder := holds.retractionsBySuperseder.sortGroups
      retractionsBySupersederRef := holds.retractionsBySupersederRef.sortGroups
      inactive := mem_inactiveIds holds
      inapplicable := rfl
      active := grouped
      resolutionsByRef := resolutionsByRef
      resolutionsByLane := resolutionsByLane
      eventsByRef := eventsByRef
      eventsByLane := eventsByLane
      claimIdsByEvidence := listed_reverseIndex holds.records.claims _ _
      claimIdsByDerivation := listed_reverseIndex holds.records.claims _ _
      evidenceIdsBySource := listed_reverseIndex holds.records.evidence _ _
      resolutionIdsByClaim := listed_reverseIndex holds.records.resolutions _ _
      conflictsByKey := byKey
      conflictsById := byId
      conflictsByRef := byRef
      conflicts := listed
      indexed := present
      indexes := indexed
      lifecycle := foldLifecycle_lookup folds }
  · intro decision isDecision
    exact timed_of_sortDecisions sorts decision
      ((holds.records.decisions.mem_values decision).mpr isDecision)

/-- Good contents can be materialized. -/
theorem materialize_exists (collisionFree : CollisionFree)
    (plain : (Contents.of (· ∈ log.iterOps)).Plain)
    (good : (Contents.of (· ∈ log.iterOps)).Good registry) :
    ∃ state, materialize log registry [] none ∅ = .ok state := by
  obtain ⟨collected, collects⟩ :=
    collect_exists registry log.iterOps_nodup plain good.consistent
  have holds := collect_holds log.iterOps_nodup plain collects
  have grouped := activeClaims_grouped holds
  obtain ⟨decisions, sorts⟩ := sortDecisions_exists
    (fun decision listed => good.timed decision
      ((holds.records.decisions.mem_values decision).mp listed))
  obtain ⟨conflicts, indexes, detected, built⟩ := conflicts_of_active collisionFree grouped
    (fun first second firstActive secondActive =>
      good.consistent.claim first second firstActive.1 secondActive.1)
    good.readable registry collected.evidenceById collected.sourcesById collected.derivationsById
    decisions
  obtain ⟨lifecycle, folds⟩ := @foldLifecycle_ok _ collected.resolutionsById
    (groupResolutionHistory collected.resolutionsById).2
    (groupLifecycleHistory collected.lifecycleEventsById).2
    (Dict.ofItems (·.conflictRef) conflicts) none
    (fun lane => foldLane_none_exists _ _ _)
  exact ⟨_, materialize_ok_iff.mpr ⟨rfl, collected, collects, _, partitionClaims_eq _ _, decisions,
    sorts, conflicts, detected, indexes, built, lifecycle, folds, rfl⟩⟩

end Whole

end Statefuse
