import Statefuse.Materialize.Accounting

/-!
# Tombstones

A retraction outlives what it retracts: it names claims by their id or by the reference
that the registry computes, and it counts for a claim whether the claim has arrived
before it or not.  `Working.Tracks` is what the first loop of a step knows about the
records that have been delivered, whatever their order; full materialization starts it.

Records of one claim id may differ in the text of a number and so in their reference.
Where all of them are retracted or none is (`Contents.Uniform`), the active claims
depend on the delivered records only.
-/

namespace Statefuse

open Foundation

variable [Runtime]

/-- The retraction names the claim, by its id or by its reference.  An empty id names no
claim. -/
def ClaimRetracted.Names (registry : PredicateRegistry) (retraction : ClaimRetracted)
    (claim : Claim) : Prop :=
  (claim.claimId ≠ "" ∧ retraction.targetClaimId = some claim.claimId) ∨
    retraction.targetClaimRef = some (registry.claimRefForClaim claim)

omit [Runtime] in
private theorem truthy_eq_some {bound : Option String} {text : String} :
    truthy bound = some text ↔ text ≠ "" ∧ bound = some text := by
  rw [truthy, Option.filter_eq_some_iff, decide_eq_true_eq, and_comm]

theorem ClaimRetracted.names_iff (registry : PredicateRegistry) (retraction : ClaimRetracted)
    (claim : Claim) :
    retraction.Names registry claim ↔ truthy retraction.targetClaimId = some claim.claimId ∨
      truthy retraction.targetClaimRef = some (registry.claimRefForClaim claim) := by
  rw [Names, truthy_eq_some, truthy_eq_some]
  have present : registry.claimRefForClaim claim ≠ "" := claimRefFromPayload_ne_empty _
  simp only [present, ne_eq, not_false_eq_true, true_and]

namespace Contents

variable {contents : Contents} {registry : PredicateRegistry} {claim : Claim}

/-- Some retraction names the claim. -/
def Retracts (contents : Contents) (registry : PredicateRegistry) (claim : Claim) : Prop :=
  ∃ retraction, contents.retraction retraction ∧ retraction.Names registry claim

/-- The records of one claim id are retracted together. -/
def Uniform (contents : Contents) (registry : PredicateRegistry) : Prop :=
  ∀ first second, contents.claim first → contents.claim second →
    first.claimId = second.claimId →
    (contents.Retracts registry first ↔ contents.Retracts registry second)

/-- An equal claim is known and not retracted. -/
def Survives (contents : Contents) (registry : PredicateRegistry) (claim : Claim) : Prop :=
  ∃ known, contents.claim known ∧ pyEq known claim = true ∧ ¬contents.Retracts registry known

/-- The id of a retracted claim is inactive. -/
theorem inactive_of_retracts (isClaim : contents.claim claim)
    (retracts : contents.Retracts registry claim) : contents.inactive registry claim.claimId := by
  rcases retracts with ⟨retraction, isRetraction, names⟩
  rcases (ClaimRetracted.names_iff _ _ _).mp names with byId | byRef
  · exact Or.inl ⟨retraction, isRetraction, byId⟩
  · exact Or.inr ⟨retraction, claim, isRetraction, isClaim, byRef, rfl⟩

/-- An inactive id is the id of retracted claims, if of any. -/
theorem retracts_of_inactive (isClaim : contents.claim claim)
    (inactive : contents.inactive registry claim.claimId) :
    ∃ known, contents.claim known ∧ known.claimId = claim.claimId ∧
      contents.Retracts registry known := by
  rcases inactive with ⟨retraction, isRetraction, byId⟩ |
    ⟨retraction, known, isRetraction, isKnown, byRef, sameId⟩
  · exact ⟨claim, isClaim, rfl, retraction, isRetraction,
      (ClaimRetracted.names_iff _ _ _).mpr (Or.inl byId)⟩
  · exact ⟨known, isKnown, sameId, retraction, isRetraction,
      (ClaimRetracted.names_iff _ _ _).mpr (Or.inr byRef)⟩

theorem inactive_iff_retracts (uniform : contents.Uniform registry)
    (isClaim : contents.claim claim) :
    contents.inactive registry claim.claimId ↔ contents.Retracts registry claim := by
  constructor
  · intro inactive
    rcases retracts_of_inactive isClaim inactive with ⟨known, isKnown, sameId, retracts⟩
    exact (uniform known claim isKnown isClaim sameId).mp retracts
  · exact inactive_of_retracts isClaim

theorem inactive_mono {whole : Contents} (within : contents.Within whole) {claimId : String}
    (inactive : contents.inactive registry claimId) : whole.inactive registry claimId := by
  rcases inactive with ⟨retraction, isRetraction, byId⟩ |
    ⟨retraction, known, isRetraction, isKnown, byRef, sameId⟩
  · exact Or.inl ⟨retraction, within.retraction _ isRetraction, byId⟩
  · exact Or.inr ⟨retraction, known, within.retraction _ isRetraction, within.claim _ isKnown,
      byRef, sameId⟩

end Contents

/-- An equal claim is active. -/
def MemoryState.IsActive (state : MemoryState) (claim : Claim) : Prop :=
  ∃ known ∈ state.activeClaimsByKey[claim.key]?.getD [], pyEq known claim = true

private theorem same_of_equal {first second : Claim} (equal : pyEq first second = true) :
    first.claimId = second.claimId ∧ first.key = second.key :=
  ⟨congrArg (fun fields => fields.1.1) (pyEq_iff.mp equal),
    congrArg (fun fields => fields.1.2.1) (pyEq_iff.mp equal)⟩

/-- Active claims that are the bound ones with an id that is not inactive survive, and no
others do. -/
private theorem active_iff_survives {contents : Contents} {registry : PredicateRegistry}
    {claimsById : Dict String Claim} {inactiveIds : PySet String}
    {active : Dict ClaimKey (List Claim)} (uniform : contents.Uniform registry)
    (gathers : Gathers claimsById Claim.claimId contents.claim)
    (exact : ∀ (key : ClaimKey) (claim : Claim), claim ∈ active[key]?.getD [] ↔
      (claimsById[claim.claimId]? = some claim ∧ claim.claimId ∉ inactiveIds) ∧ claim.key = key)
    (gone : ∀ (claimId : String) (claim : Claim), claimsById[claimId]? = some claim →
      (claimId ∈ inactiveIds ↔ contents.Retracts registry claim)) (claim : Claim) :
    (∃ known ∈ active[claim.key]?.getD [], pyEq known claim = true) ↔
      contents.Survives registry claim := by
  constructor
  · rintro ⟨known, listed, equal⟩
    rcases (exact claim.key known).mp listed with ⟨⟨bound, present⟩, _⟩
    exact ⟨known, (gathers.stored _ _ bound).1, equal, fun retracts =>
      present ((gone _ _ bound).mpr retracts)⟩
  · rintro ⟨known, isKnown, equal, kept⟩
    rcases gathers.present known isKnown with ⟨held, found, heldEqual⟩
    have heldClaim := (gathers.stored _ _ found).1
    rcases same_of_equal heldEqual with ⟨sameId, sameKey⟩
    have both := pyEq_trans heldEqual equal
    refine ⟨held, (exact claim.key held).mpr ⟨⟨?_, ?_⟩, (same_of_equal both).2⟩, both⟩
    · rw [sameId]
      exact found
    · rw [sameId, gone _ _ found, uniform held known heldClaim isKnown sameId]
      exact kept

/-- The active claims of a log that is materialized in full. -/
theorem isActive_iff_survives {log : OpLog} {registry : PredicateRegistry} {state : MemoryState}
    (run : materialize log registry [] none ∅ = .ok state)
    (uniform : (Contents.of (· ∈ log.iterOps)).Uniform registry) (claim : Claim) :
    state.IsActive claim ↔ (Contents.of (· ∈ log.iterOps)).Survives registry claim := by
  rcases materialize_ok_iff.mp run with ⟨_, collected, collects, active, partitioned, decisions, _,
    conflicts, _, indexes, _, lifecycle, _, same⟩
  have gathers := collect_gathers collects
  rw [partitionClaims_eq, Except.ok.injEq] at partitioned
  subst partitioned
  subst same
  refine @active_iff_survives _ _ _ _ (inactiveIds collected) _ uniform gathers.claims ?_ ?_
    claim
  · intro key claim
    have grouped := filter_grouped gathers.claims.keyed
      (fun claim => decide (claim.claimId ∉ inactiveIds collected))
    refine (grouped.mem_getD key claim).trans ?_
    rw [decide_eq_true_eq]
  · intro claimId claim found
    have stored := gathers.claims.stored _ _ found
    refine (gathers.mem_inactive claimId).trans ?_
    rw [← stored.2]
    exact Contents.inactive_iff_retracts uniform stored.1

/-! ## Entering records -/

/-- The tables hold the records up to equality. -/
structure Records.Gathers (records : Records) (contents : Contents) : Prop where
  sources : Statefuse.Gathers records.sourcesById (·.sourceId) contents.source
  evidence : Statefuse.Gathers records.evidenceById (·.evidenceId) contents.evidence
  claims : Statefuse.Gathers records.claimsById (·.claimId) contents.claim
  decisions : Statefuse.Gathers records.decisionsById (·.decisionId) contents.decision
  derivations : Statefuse.Gathers records.derivationsById (·.derivationId) contents.derivation
  resolutions : Statefuse.Gathers records.resolutionsById (·.resolutionId) contents.resolution
  events : Statefuse.Gathers records.lifecycleEventsById (·.eventId) contents.event

section Insert

variable {α : Type} [PyEq α] {records table : Dict String α} {key : α → String}
  {member : α → Prop} {record : α} {name : String} {inserted : Bool}

omit [Runtime] in
/-- An equal record is bound already, or the identifier is new. -/
private theorem insertImmutable_cases
    (run : insertImmutable records (key record) record name = .ok (table, inserted)) :
    (inserted = false ∧ table = records ∧
      ∃ existing, records[key record]? = some existing ∧ pyEq existing record = true) ∨
    (inserted = true ∧ table = records.insert (key record) record ∧
      records[key record]? = none) := by
  unfold insertImmutable at run
  cases found : records[key record]? with
  | none =>
      rw [found] at run
      injection run with run
      injection run with sameTable isInserted
      exact Or.inr ⟨isInserted.symm, sameTable.symm, rfl⟩
  | some existing =>
      rw [found] at run
      simp only at run
      split at run
      · rename_i equal
        injection run with run
        injection run with sameTable notInserted
        exact Or.inl ⟨notInserted.symm, sameTable.symm, existing, rfl, equal⟩
      · cases run

omit [Runtime] in
theorem Gathers.enter (gathers : Gathers records key member)
    (run : insertImmutable records (key record) record name = .ok (table, inserted)) :
    Gathers table key (fun other => member other ∨ other = record) := by
  rcases insertImmutable_cases run with
    ⟨_, sameTable, existing, found, equal⟩ | ⟨_, sameTable, absent⟩
  · rw [sameTable]
    constructor
    · intro wanted other bound
      rcases gathers.stored wanted other bound with ⟨listed, here⟩
      exact ⟨Or.inl listed, here⟩
    · rintro other (listed | isNew)
      · exact gathers.present other listed
      · rw [isNew]
        exact ⟨existing, found, equal⟩
  · refine @Gathers.bind _ _ _ _ _ _ _ name gathers ?_
    rw [sameTable, bindRecord, absent]

omit [Runtime] in
theorem Gathers.enter_exists (gathers : Gathers records key member)
    (equated : ∀ other, member other → key other = key record → pyEq other record = true) :
    ∃ result, insertImmutable records (key record) record name = .ok result := by
  unfold insertImmutable
  cases found : records[key record]? with
  | none => exact ⟨_, rfl⟩
  | some existing =>
      rcases gathers.stored _ existing found with ⟨listed, here⟩
      exact ⟨_, if_pos (equated existing listed here)⟩

end Insert

namespace Working

/-- What the first loop knows after the operations whose records are the contents: the
ids of a reference have a claim with it, and the inactive ids are those of retracted
claims. -/
structure Tracks (working : Working) (registry : PredicateRegistry) (contents : Contents) :
    Prop where
  records : working.toRecords.Gathers contents
  refs : ∀ claimRef claimId : String, claimId ∈ working.claimIdsByRef[claimRef]?.getD ∅ →
    ∃ claim, contents.claim claim ∧ registry.claimRefForClaim claim = claimRef ∧
      claim.claimId = claimId
  ownRef : ∀ (claimId : String) (claim : Claim), working.claimsById[claimId]? = some claim →
    claimId ∈ working.claimIdsByRef[registry.claimRefForClaim claim]?.getD ∅
  target : ∀ claimId : String, claimId ∈ working.retractionsByTarget ↔
    ∃ retraction, contents.retraction retraction ∧
      truthy retraction.targetClaimId = some claimId
  targetRef : ∀ claimRef : String, claimRef ∈ working.retractionsByTargetRef ↔
    ∃ retraction, contents.retraction retraction ∧
      truthy retraction.targetClaimRef = some claimRef
  sound : ∀ claimId ∈ working.inactiveClaimIds, contents.inactive registry claimId
  complete : ∀ (claimId : String) (claim : Claim), working.claimsById[claimId]? = some claim →
    contents.Retracts registry claim → claimId ∈ working.inactiveClaimIds
  active : ∀ (key : ClaimKey) (claim : Claim), claim ∈ working.activeClaimsByKey[key]?.getD [] ↔
    (working.claimsById[claim.claimId]? = some claim ∧
      claim.claimId ∉ working.inactiveClaimIds) ∧ claim.key = key

variable {working next : Working} {registry : PredicateRegistry} {contents : Contents}

omit [Runtime] in
theorem mem_addTo {index : Dict String (PySet String)} {key value : String}
    (wanted other : String) :
    other ∈ (addTo index key value)[wanted]?.getD ∅ ↔
      other ∈ index[wanted]?.getD ∅ ∨ (wanted = key ∧ other = value) := by
  rw [addTo, Dict.get_insert]
  by_cases here : key = wanted
  · subst here
    rw [if_pos rfl, Option.getD_some, PySet.mem_insert, or_comm, eq_comm]
    simp
  · rw [if_neg here]
    simp [Ne.symm here]

/-- What the first loop asks about a claim that has just arrived. -/
private def isRetracted (working : Working) (registry : PredicateRegistry) (claim : Claim) : Bool :=
  working.retractionsByTarget.contains claim.claimId ||
    working.retractionsByTargetRef.contains (registry.claimRefForClaim claim)

private theorem isRetracted_iff (tracks : working.Tracks registry contents) (claim : Claim) :
    working.isRetracted registry claim = true ↔ contents.Retracts registry claim := by
  rw [isRetracted, Bool.or_eq_true, Std.ExtTreeMap.contains_iff_mem,
    Std.ExtTreeMap.contains_iff_mem, tracks.target, tracks.targetRef]
  simp only [Contents.Retracts, ClaimRetracted.names_iff, ← exists_or, ← and_or_left]

/-- A claim that has just arrived and is not retracted is not inactive. -/
private theorem not_inactive_of_new (tracks : working.Tracks registry contents) {claim : Claim}
    (absent : working.claimsById[claim.claimId]? = none)
    (kept : ¬contents.Retracts registry claim) : claim.claimId ∉ working.inactiveClaimIds := by
  intro gone
  rcases tracks.sound _ gone with ⟨retraction, isRetraction, byId⟩ |
    ⟨_, known, _, isKnown, _, sameId⟩
  · exact kept ⟨retraction, isRetraction, (ClaimRetracted.names_iff _ _ _).mpr (Or.inl byId)⟩
  · rcases tracks.records.claims.present known isKnown with ⟨held, found, _⟩
    rw [sameId, absent] at found
    cases found

private theorem active_addClaim (tracks : working.Tracks registry contents) {claim : Claim}
    (absent : working.claimsById[claim.claimId]? = none) (key : ClaimKey) (other : Claim) :
    other ∈ (if working.isRetracted registry claim then working.activeClaimsByKey
        else working.activeClaimsByKey.insert claim.key
          (working.activeClaimsByKey[claim.key]?.getD [] ++ [claim]))[key]?.getD [] ↔
      ((working.claimsById.insert claim.claimId claim)[other.claimId]? = some other ∧
        other.claimId ∉ (if working.isRetracted registry claim then
          working.inactiveClaimIds.insert claim.claimId else working.inactiveClaimIds)) ∧
        other.key = key := by
  rw [Dict.get_insert]
  by_cases same : claim.claimId = other.claimId
  · have unlisted : ∀ place : ClaimKey, other ∉ working.activeClaimsByKey[place]?.getD [] := by
      intro place listed
      have bound := ((tracks.active place other).mp listed).1.1
      rw [← same, absent] at bound
      cases bound
    rw [if_pos same, Option.some.injEq, ← same]
    by_cases retracted : working.isRetracted registry claim = true
    · rw [if_pos retracted, if_pos retracted, PySet.mem_insert]
      exact iff_of_false (unlisted key) (fun holds => holds.1.2 (Or.inl rfl))
    · rw [if_neg retracted, if_neg retracted, mem_append_active]
      have present := not_inactive_of_new tracks absent
        (fun retracts => retracted ((isRetracted_iff tracks claim).mpr retracts))
      constructor
      · rintro (listed | ⟨equal, sameKey⟩)
        · exact absurd listed (unlisted key)
        · rw [equal]
          exact ⟨⟨rfl, present⟩, sameKey⟩
      · rintro ⟨⟨equal, _⟩, sameKey⟩
        rw [equal]
        exact Or.inr ⟨rfl, sameKey⟩
  · have kept : other ∈ (if working.isRetracted registry claim then working.activeClaimsByKey
        else working.activeClaimsByKey.insert claim.key
          (working.activeClaimsByKey[claim.key]?.getD [] ++ [claim]))[key]?.getD [] ↔
        other ∈ working.activeClaimsByKey[key]?.getD [] := by
      split
      · exact Iff.rfl
      · rw [mem_append_active]
        refine or_iff_left ?_
        rintro ⟨equal, _⟩
        exact same (congrArg Claim.claimId equal).symm
    have gone : other.claimId ∈ (if working.isRetracted registry claim then
          working.inactiveClaimIds.insert claim.claimId else working.inactiveClaimIds) ↔
        other.claimId ∈ working.inactiveClaimIds := by
      split
      · rw [PySet.mem_insert]
        exact or_iff_right same
      · exact Iff.rfl
    rw [kept, gone, if_neg same]
    exact tracks.active key other

private theorem applyClaim_tracks {header : OpHeader} {claim : Claim}
    (tracks : working.Tracks registry contents)
    (run : applyClaim registry working claim = .ok next) :
    next.Tracks registry (contents.add (.claimAdded header claim)) := by
  have grown := Contents.within_add contents (.claimAdded header claim)
  rw [applyClaim, bind_ok_iff] at run
  rcases run with ⟨⟨table, inserted⟩, entered, run⟩
  have claims := tracks.records.claims.enter entered
  rcases insertImmutable_cases entered with
    ⟨notInserted, sameTable, _⟩ | ⟨isInserted, sameTable, absent⟩
  · subst notInserted sameTable
    injection run with run
    rw [← run]
    exact {
      records := { tracks.records with claims := claims }
      refs := by
        intro claimRef claimId listed
        rcases tracks.refs claimRef claimId listed with ⟨known, isKnown, sameRef, sameId⟩
        exact ⟨known, Or.inl isKnown, sameRef, sameId⟩
      ownRef := tracks.ownRef
      target := tracks.target
      targetRef := tracks.targetRef
      sound := fun claimId gone => Contents.inactive_mono grown (tracks.sound claimId gone)
      complete := tracks.complete
      active := tracks.active }
  · subst isInserted sameTable
    injection run with run
    rw [← run]
    exact {
      records := { tracks.records with claims := claims }
      refs := by
        intro claimRef claimId listed
        rcases (mem_addTo claimRef claimId).mp listed with old | ⟨sameRef, sameId⟩
        · rcases tracks.refs claimRef claimId old with ⟨known, isKnown, sameRef, sameId⟩
          exact ⟨known, Or.inl isKnown, sameRef, sameId⟩
        · exact ⟨claim, Or.inr rfl, sameRef.symm, sameId.symm⟩
      ownRef := by
        intro claimId other found
        apply (mem_addTo _ claimId).mpr
        rw [Dict.get_insert] at found
        split at found
        · rename_i here
          injection found with found
          rw [← found, here]
          exact Or.inr ⟨rfl, rfl⟩
        · exact Or.inl (tracks.ownRef claimId other found)
      target := tracks.target
      targetRef := tracks.targetRef
      sound := by
        intro claimId gone
        change claimId ∈ (if working.isRetracted registry claim then
          working.inactiveClaimIds.insert claim.claimId else working.inactiveClaimIds) at gone
        split at gone
        · rename_i retracted
          rcases (PySet.mem_insert _ _ _).mp gone with here | old
          · rw [← here]
            exact Contents.inactive_of_retracts (Or.inr rfl)
              ((isRetracted_iff tracks claim).mp retracted)
          · exact Contents.inactive_mono grown (tracks.sound claimId old)
        · exact Contents.inactive_mono grown (tracks.sound claimId gone)
      complete := by
        intro claimId other found retracts
        change claimId ∈ (if working.isRetracted registry claim then
          working.inactiveClaimIds.insert claim.claimId else working.inactiveClaimIds)
        rw [Dict.get_insert] at found
        split at found
        · rename_i here
          injection found with found
          rw [← found] at retracts
          rw [if_pos ((isRetracted_iff tracks claim).mpr retracts), PySet.mem_insert]
          exact Or.inl here
        · have old := tracks.complete claimId other found retracts
          split
          · exact (PySet.mem_insert _ _ _).mpr (Or.inr old)
          · exact old
      active := active_addClaim tracks absent }

private theorem retractionTargets_named {retraction : ClaimRetracted} (claimId : String) :
    claimId ∈ working.retractionTargets retraction ↔
      truthy retraction.targetClaimId = some claimId ∨
        ∃ claimRef, truthy retraction.targetClaimRef = some claimRef ∧
          claimId ∈ working.claimIdsByRef[claimRef]?.getD ∅ := by
  unfold retractionTargets
  cases truthy retraction.targetClaimRef with
  | none => cases truthy retraction.targetClaimId <;> simp
  | some claimRef => cases truthy retraction.targetClaimId <;> simp

omit [Runtime] in
/-- A retraction is filed under its target, if it has one. -/
private theorem mem_appendSortedRetraction {retractions : Dict String (List ClaimRetracted)}
    {target : Option String} {retraction : ClaimRetracted} (key : String) :
    key ∈ appendSortedRetraction retractions target retraction ↔
      key ∈ retractions ∨ truthy target = some key := by
  have inserted : ∀ (wanted : String) (items : List ClaimRetracted),
      key ∈ retractions.insert wanted items ↔ key ∈ retractions ∨ some wanted = some key := by
    intro wanted items
    rw [Dict.mem_iff, Dict.mem_iff, Dict.get_insert, Option.some.injEq]
    by_cases here : wanted = key
    · rw [if_pos here]
      exact iff_of_true ⟨items, rfl⟩ (Or.inr here)
    · rw [if_neg here]
      exact (or_iff_left here).symm
  unfold appendSortedRetraction
  cases truthy target with
  | none => simp
  | some wanted =>
      dsimp only
      split
      · exact inserted wanted _
      · exact inserted wanted _

/-- The ids that are inactive once a retraction is entered. -/
theorem mem_applyRetraction_inactive {retraction : ClaimRetracted} (claimId : String) :
    claimId ∈ (working.applyRetraction retraction).inactiveClaimIds ↔
      claimId ∈ working.inactiveClaimIds ∨ truthy retraction.targetClaimId = some claimId ∨
        ((∃ claimRef, truthy retraction.targetClaimRef = some claimRef ∧
          claimId ∈ working.claimIdsByRef[claimRef]?.getD ∅) ∧
          ∃ claim, working.claimsById[claimId]? = some claim) := by
  have spec := @deactivate_all _ (working.recordRetraction retraction)
    ((working.recordRetraction retraction).retractionTargets retraction).toList
  unfold applyRetraction
  rw [spec.inactive, mem_recorded_inactive, PySet.mem_toList, retractionTargets_named]
  change (_ ∨ (_ ∨ ∃ claimRef, _ ∧ claimId ∈ working.claimIdsByRef[claimRef]?.getD ∅) ∧
    ∃ claim, working.claimsById[claimId]? = some claim) ↔ _
  tauto

/-- A retraction counts for the claims it finds, and for those that come later. -/
theorem applyRetraction_tracks {retraction : ClaimRetracted}
    (tracks : working.Tracks registry contents) :
    (working.applyRetraction retraction).Tracks registry
      (contents.add (.claimRetracted retraction)) := by
  have grown := Contents.within_add contents (.claimRetracted retraction)
  have filed : ∀ (field : ClaimRetracted → Option String) (key : String),
      ((∃ record, contents.retraction record ∧ truthy (field record) = some key) ∨
        truthy (field retraction) = some key) ↔
      ∃ record, (contents.retraction record ∨ record = retraction) ∧
        truthy (field record) = some key := by
    intro field key
    simp only [or_and_right, exists_or, exists_eq_left]
  have inactive := @mem_applyRetraction_inactive _ working retraction
  have targets := @retractionTargets_named _ (working.recordRetraction retraction) retraction
  have spec := @deactivate_all _ (working.recordRetraction retraction)
    ((working.recordRetraction retraction).retractionTargets retraction).toList
  unfold applyRetraction at inactive ⊢
  dsimp only at inactive ⊢
  generalize ((working.recordRetraction retraction).retractionTargets retraction).toList.foldl
    deactivate (working.recordRetraction retraction) = next at spec inactive
  -- Only the inactive ids and the active claims are other than after recording.
  have active := spec.active
  rw [spec.eq]
  exact {
    records := { tracks.records with }
    refs := tracks.refs
    ownRef := tracks.ownRef
    target := fun key => (mem_appendSortedRetraction key).trans
      ((or_congr_left (tracks.target key)).trans (filed (·.targetClaimId) key))
    targetRef := fun key => (mem_appendSortedRetraction key).trans
      ((or_congr_left (tracks.targetRef key)).trans (filed (·.targetClaimRef) key))
    sound := by
      intro claimId gone
      rcases (inactive claimId).mp gone with old | byId | ⟨⟨claimRef, byRef, listed⟩, _⟩
      · exact Contents.inactive_mono grown (tracks.sound claimId old)
      · exact Or.inl ⟨retraction, Or.inr rfl, byId⟩
      · rcases tracks.refs claimRef claimId listed with ⟨claim, isClaim, sameRef, sameId⟩
        rw [← sameRef] at byRef
        exact Or.inr ⟨retraction, claim, Or.inr rfl, isClaim, byRef, sameId⟩
    complete := by
      intro claimId claim found retracts
      apply (inactive claimId).mpr
      have sameId := (tracks.records.claims.stored claimId claim found).2
      rcases retracts with ⟨record, known | isNew, names⟩
      · exact Or.inl (tracks.complete claimId claim found ⟨record, known, names⟩)
      · rw [isNew] at names
        rcases (ClaimRetracted.names_iff _ _ _).mp names with byId | byRef
        · rw [← sameId]
          exact Or.inr (Or.inl byId)
        · exact Or.inr (Or.inr ⟨⟨_, byRef, tracks.ownRef claimId claim found⟩, claim, found⟩)
    active := by
      intro key claim
      refine (active key claim).trans ?_
      rw [inactive, PySet.mem_toList, targets]
      change claim ∈ working.activeClaimsByKey[key]?.getD [] ∧ ¬((_ ∨ ∃ claimRef, _ ∧
        claim.claimId ∈ working.claimIdsByRef[claimRef]?.getD ∅) ∧
        ∃ known, working.claimsById[claim.claimId]? = some known ∧ known.key = key) ↔
        (working.claimsById[claim.claimId]? = some claim ∧ _) ∧ _
      rw [tracks.active]
      constructor
      · rintro ⟨⟨⟨bound, present⟩, sameKey⟩, untargeted⟩
        refine ⟨⟨bound, ?_⟩, sameKey⟩
        rintro (old | byId | ⟨byRef, _⟩)
        · exact present old
        · exact untargeted ⟨Or.inl byId, claim, bound, sameKey⟩
        · exact untargeted ⟨Or.inr byRef, claim, bound, sameKey⟩
      · rintro ⟨⟨bound, kept⟩, sameKey⟩
        refine ⟨⟨⟨bound, fun old => kept (Or.inl old)⟩, sameKey⟩, ?_⟩
        rintro ⟨byId | byRef, _⟩
        · exact kept (Or.inr (Or.inl byId))
        · exact kept (Or.inr (Or.inr ⟨byRef, claim, bound⟩)) }

theorem applyOp_tracks {op : Op} (tracks : working.Tracks registry contents)
    (run : applyOp registry working op = .ok next) :
    next.Tracks registry (contents.add op) := by
  cases op with
  | claimAdded header claim => exact applyClaim_tracks tracks run
  | claimRetracted retraction =>
      injection run with run
      rw [← run]
      exact applyRetraction_tracks tracks
  | sourceAdded header source =>
      rw [applyOp, applySource, bind_ok_iff] at run
      rcases run with ⟨⟨table, inserted⟩, entered, run⟩
      have sources := tracks.records.sources.enter entered
      cases inserted with
      | false =>
          injection run with run
          rw [← run]
          exact { tracks with records := { tracks.records with sources := sources } }
      | true =>
          injection run with run
          rcases @markClaimKeys_all _ { working with sourcesById := table }
            (working.evidenceIdsBySourceId[source.sourceId]?.getD ∅).toList with ⟨keys, marked, _⟩
          rw [← run]
          dsimp only
          rw [marked]
          exact { tracks with records := { tracks.records with sources := sources } }
  | evidenceAdded header evidence =>
      rw [applyOp, applyEvidence, bind_ok_iff] at run
      rcases run with ⟨⟨table, inserted⟩, entered, run⟩
      have entry := tracks.records.evidence.enter entered
      cases inserted with
      | false =>
          injection run with run
          rw [← run]
          exact { tracks with records := { tracks.records with evidence := entry } }
      | true =>
          injection run with run
          rw [← run]
          exact { tracks with records := { tracks.records with evidence := entry } }
  | decisionAdded header decision =>
      rw [applyOp, applyDecision, bind_ok_iff] at run
      rcases run with ⟨⟨table, inserted⟩, entered, run⟩
      have decisions := tracks.records.decisions.enter entered
      injection run with run
      rw [← run]
      exact { tracks with records := { tracks.records with decisions := decisions } }
  | derivationAdded header derivation =>
      rw [applyOp, applyDerivation, bind_ok_iff] at run
      rcases run with ⟨⟨table, inserted⟩, entered, run⟩
      have derivations := tracks.records.derivations.enter entered
      cases inserted with
      | false =>
          injection run with run
          rw [← run]
          exact { tracks with records := { tracks.records with derivations := derivations } }
      | true =>
          injection run with run
          rw [← run]
          exact { tracks with records := { tracks.records with derivations := derivations } }
  | resolutionAdded header resolution =>
      rw [applyOp, applyResolution, bind_ok_iff] at run
      rcases run with ⟨⟨table, inserted⟩, entered, run⟩
      have resolutions := tracks.records.resolutions.enter entered
      cases inserted with
      | false =>
          injection run with run
          rw [← run]
          exact { tracks with records := { tracks.records with resolutions := resolutions } }
      | true =>
          injection run with run
          rw [← run]
          exact { tracks with records := { tracks.records with resolutions := resolutions } }
  | conflictLifecycleEventAdded header event =>
      rw [applyOp, applyEvent, bind_ok_iff] at run
      rcases run with ⟨⟨table, inserted⟩, entered, run⟩
      have events := tracks.records.events.enter entered
      cases inserted with
      | false =>
          injection run with run
          rw [← run]
          exact { tracks with records := { tracks.records with events := events } }
      | true =>
          injection run with run
          rw [← run]
          exact { tracks with records := { tracks.records with events := events } }

/-- An operation whose record is equal to those with its identifier can be entered. -/
theorem applyOp_enters {op : Op} (tracks : working.Tracks registry contents)
    (compatible : (contents.add op).Compatible) :
    ∃ next, applyOp registry working op = .ok next := by
  cases op with
  | claimRetracted retraction => exact ⟨_, rfl⟩
  | sourceAdded header source =>
      rcases @Gathers.enter_exists _ _ _ _ _ _ "source_id" tracks.records.sources
        (fun other listed => compatible.source other source (Or.inl listed) (Or.inr rfl)) with
        ⟨⟨table, inserted⟩, entered⟩
      rw [applyOp, applySource, bind_of_ok entered]
      cases inserted <;> exact ⟨_, rfl⟩
  | evidenceAdded header evidence =>
      rcases @Gathers.enter_exists _ _ _ _ _ _ "evidence_id" tracks.records.evidence
        (fun other listed => compatible.evidence other evidence (Or.inl listed) (Or.inr rfl)) with
        ⟨⟨table, inserted⟩, entered⟩
      rw [applyOp, applyEvidence, bind_of_ok entered]
      cases inserted <;> exact ⟨_, rfl⟩
  | claimAdded header claim =>
      rcases @Gathers.enter_exists _ _ _ _ _ _ "claim_id" tracks.records.claims
        (fun other listed => compatible.claim other claim (Or.inl listed) (Or.inr rfl)) with
        ⟨⟨table, inserted⟩, entered⟩
      rw [applyOp, applyClaim, bind_of_ok entered]
      cases inserted <;> exact ⟨_, rfl⟩
  | decisionAdded header decision =>
      rcases @Gathers.enter_exists _ _ _ _ _ _ "decision_id" tracks.records.decisions
        (fun other listed => compatible.decision other decision (Or.inl listed) (Or.inr rfl)) with
        ⟨⟨table, inserted⟩, entered⟩
      rw [applyOp, applyDecision, bind_of_ok entered]
      exact ⟨_, rfl⟩
  | derivationAdded header derivation =>
      rcases @Gathers.enter_exists _ _ _ _ _ _ "derivation_id" tracks.records.derivations
        (fun other listed => compatible.derivation other derivation (Or.inl listed) (Or.inr rfl))
        with ⟨⟨table, inserted⟩, entered⟩
      rw [applyOp, applyDerivation, bind_of_ok entered]
      cases inserted <;> exact ⟨_, rfl⟩
  | resolutionAdded header resolution =>
      rcases @Gathers.enter_exists _ _ _ _ _ _ "resolution_id" tracks.records.resolutions
        (fun other listed => compatible.resolution other resolution (Or.inl listed) (Or.inr rfl))
        with ⟨⟨table, inserted⟩, entered⟩
      rw [applyOp, applyResolution, bind_of_ok entered]
      cases inserted <;> exact ⟨_, rfl⟩
  | conflictLifecycleEventAdded header event =>
      rcases @Gathers.enter_exists _ _ _ _ _ _ "event_id" tracks.records.events
        (fun other listed => compatible.event other event (Or.inl listed) (Or.inr rfl)) with
        ⟨⟨table, inserted⟩, entered⟩
      rw [applyOp, applyEvent, bind_of_ok entered]
      cases inserted <;> exact ⟨_, rfl⟩

/-- Operations that bind no identifier to unequal records can be entered in any order. -/
theorem enter_tracks {ops : List Op} (tracks : working.Tracks registry contents)
    (compatible : (ops.foldl Contents.add contents).Compatible) :
    ∃ next, ops.foldlM (applyOp registry) working = .ok next ∧
      next.Tracks registry (ops.foldl Contents.add contents) := by
  induction ops generalizing working contents with
  | nil => exact ⟨working, rfl, tracks⟩
  | cons head tail inductionHypothesis =>
      rcases applyOp_enters tracks (compatible.mono (Contents.within_addAll tail)) with
        ⟨entered, stepped⟩
      rcases inductionHypothesis (applyOp_tracks tracks stepped) compatible with
        ⟨next, run, after⟩
      refine ⟨next, ?_, after⟩
      rw [List.foldlM_cons, bind_of_ok stepped]
      exact run

/-- Full materialization is where the loop starts. -/
theorem ofState_tracks {log : OpLog} {state : MemoryState}
    (run : materialize log registry [] none ∅ = .ok state) :
    (ofState state).Tracks registry (.of (· ∈ log.iterOps)) := by
  rcases materialize_ok_iff.mp run with ⟨_, collected, collects, active, partitioned, decisions,
    sorts, conflicts, _, indexes, _, lifecycle, _, same⟩
  have gathers := collect_gathers collects
  rw [partitionClaims_eq, Except.ok.injEq] at partitioned
  subst partitioned
  subst same
  have sameDecisions : Dict.ofItems (·.decisionId) decisions = collected.decisionsById := by
    have permuted := sortDecisions_perm sorts
    have lists := gathers.decisions.keyed.lists
    have apart : decisions.Pairwise (fun first second => first.decisionId ≠ second.decisionId) :=
      permuted.symm.pairwise (lists.values_distinct.imp (fun below => ne_of_lt below))
        (fun different => different.symm)
    exact (Lists.ofItems apart).unique (lists.congr (fun decision => permuted.mem_iff.symm))
  have refs := gathers.claimIdsByRef.listed.unlisted
  exact {
    records := {
      sources := gathers.sources
      evidence := gathers.evidence
      claims := gathers.claims
      decisions := by
        change Gathers (Dict.ofItems (·.decisionId) decisions) _ _
        rw [sameDecisions]
        exact gathers.decisions
      derivations := gathers.derivations
      resolutions := gathers.resolutions
      events := gathers.events }
    refs := fun claimRef claimId listed => (refs.mem_getD claimRef claimId).mp listed
    ownRef := by
      intro claimId claim found
      rcases gathers.claims.stored claimId claim found with ⟨isClaim, sameId⟩
      exact (refs.mem_getD _ claimId).mpr ⟨claim, isClaim, rfl, sameId⟩
    target := gathers.retractionsByTarget.sortGroups.isSome_iff
    targetRef := gathers.retractionsByTargetRef.sortGroups.isSome_iff
    sound := fun claimId gone => (gathers.mem_inactive claimId).mp gone
    complete := by
      intro claimId claim found retracts
      rcases gathers.claims.stored claimId claim found with ⟨isClaim, sameId⟩
      apply (gathers.mem_inactive claimId).mpr
      rw [← sameId]
      exact Contents.inactive_of_retracts isClaim retracts
    active := by
      intro key claim
      have grouped := filter_grouped gathers.claims.keyed
        (fun claim => decide (claim.claimId ∉ inactiveIds collected))
      refine (grouped.mem_getD key claim).trans ?_
      rw [decide_eq_true_eq]
      exact Iff.rfl }

/-- After full materialization the ids of a reference are those of all claims with it. -/
theorem ofState_refs {log : OpLog} {state : MemoryState}
    (run : materialize log registry [] none ∅ = .ok state) (claimRef claimId : String) :
    claimId ∈ (ofState state).claimIdsByRef[claimRef]?.getD ∅ ↔
      ∃ claim, (Contents.of (· ∈ log.iterOps)).claim claim ∧
        registry.claimRefForClaim claim = claimRef ∧ claim.claimId = claimId := by
  rcases materialize_ok_iff.mp run with ⟨_, collected, collects, active, _, decisions, _, conflicts,
    _, indexes, _, lifecycle, _, same⟩
  have gathers := collect_gathers collects
  subst same
  exact gathers.claimIdsByRef.listed.unlisted.mem_getD claimRef claimId

/-- After full materialization the inactive ids are those of retracted claims. -/
theorem ofState_inactive {log : OpLog} {state : MemoryState}
    (run : materialize log registry [] none ∅ = .ok state) (claimId : String) :
    claimId ∈ (ofState state).inactiveClaimIds ↔
      (Contents.of (· ∈ log.iterOps)).inactive registry claimId := by
  rcases materialize_ok_iff.mp run with ⟨_, collected, collects, active, _, decisions, _, conflicts,
    _, indexes, _, lifecycle, _, same⟩
  have gathers := collect_gathers collects
  subst same
  exact gathers.mem_inactive claimId

/-- The active claims once all operations are entered. -/
theorem Tracks.isActive_iff (tracks : working.Tracks registry contents)
    (uniform : contents.Uniform registry) (claim : Claim) :
    (∃ known ∈ working.activeClaimsByKey[claim.key]?.getD [], pyEq known claim = true) ↔
      contents.Survives registry claim := by
  apply active_iff_survives uniform tracks.records.claims tracks.active
  intro claimId known found
  have stored := tracks.records.claims.stored claimId known found
  constructor
  · intro gone
    have inactive := tracks.sound claimId gone
    rw [← stored.2] at inactive
    exact (Contents.inactive_iff_retracts uniform stored.1).mp inactive
  · exact tracks.complete claimId known found

end Working

end Statefuse
