import Statefuse.Conflict.FindingSpec
import Statefuse.Materialize.Incremental
import Statefuse.Materialize.LifecycleSpec

/-!
# What a set of operations says

`Contents` is the meaning of a set of operations: the records they carry, whatever the
order in which they arrive.  `Represents` says what the state of given contents is.
It determines the state (`Represents.unique`), so two ways of computing a state agree
as soon as each is shown to represent the same contents.
-/

namespace Statefuse

open Foundation

variable [Runtime]

/-- The records that some operations carry. -/
structure Contents where
  source : Source → Prop
  evidence : Evidence → Prop
  claim : Claim → Prop
  retraction : ClaimRetracted → Prop
  decision : Decision → Prop
  derivation : Derivation → Prop
  resolution : ResolutionRecord → Prop
  event : ConflictLifecycleEvent → Prop

namespace Contents

/-- The contents of a set of operations. -/
def of (delivered : Op → Prop) : Contents where
  source record := ∃ header, delivered (.sourceAdded header record)
  evidence record := ∃ header, delivered (.evidenceAdded header record)
  claim record := ∃ header, delivered (.claimAdded header record)
  retraction record := delivered (.claimRetracted record)
  decision record := ∃ header, delivered (.decisionAdded header record)
  derivation record := ∃ header, delivered (.derivationAdded header record)
  resolution record := ∃ header, delivered (.resolutionAdded header record)
  event record := ∃ header, delivered (.conflictLifecycleEventAdded header record)

/-- One more operation. -/
def add (contents : Contents) : Op → Contents
  | .sourceAdded _ source =>
      { contents with source := fun record => contents.source record ∨ record = source }
  | .evidenceAdded _ evidence =>
      { contents with evidence := fun record => contents.evidence record ∨ record = evidence }
  | .claimAdded _ claim =>
      { contents with claim := fun record => contents.claim record ∨ record = claim }
  | .claimRetracted retraction =>
      { contents with
        retraction := fun record => contents.retraction record ∨ record = retraction }
  | .decisionAdded _ decision =>
      { contents with decision := fun record => contents.decision record ∨ record = decision }
  | .derivationAdded _ derivation =>
      { contents with
        derivation := fun record => contents.derivation record ∨ record = derivation }
  | .resolutionAdded _ resolution =>
      { contents with
        resolution := fun record => contents.resolution record ∨ record = resolution }
  | .conflictLifecycleEventAdded _ event =>
      { contents with event := fun record => contents.event record ∨ record = event }

def empty : Contents :=
  ⟨fun _ => False, fun _ => False, fun _ => False, fun _ => False, fun _ => False,
    fun _ => False, fun _ => False, fun _ => False⟩

theorem of_empty : of (fun _ => False) = empty := by
  simp [of, empty]

/-- Delivering one more operation adds its record. -/
theorem of_add (delivered : Op → Prop) (op : Op) :
    of (fun other => delivered other ∨ other = op) = (of delivered).add op := by
  cases op <;> simp [of, add, exists_or]

/-- Delivering several operations adds their records. -/
theorem of_addAll (delivered : Op → Prop) (ops : List Op) :
    ops.foldl add (of delivered) = of (fun op => delivered op ∨ op ∈ ops) := by
  induction ops generalizing delivered with
  | nil => simp
  | cons head tail inductionHypothesis =>
      rw [List.foldl_cons, ← of_add, inductionHypothesis]
      congr 1
      funext op
      rw [List.mem_cons, or_assoc]

/-- The contents of a list of operations. -/
theorem of_append (before : List Op) (op : Op) :
    of (· ∈ before ++ [op]) = (of (· ∈ before)).add op := by
  rw [← of_add]
  congr 1
  funext other
  simp

/-- A claim of these contents is retracted, by id or by reference. -/
def inactive (contents : Contents) (registry : PredicateRegistry) (claimId : String) : Prop :=
  (∃ retraction, contents.retraction retraction ∧
    truthy retraction.targetClaimId = some claimId) ∨
  ∃ retraction claim, contents.retraction retraction ∧ contents.claim claim ∧
    truthy retraction.targetClaimRef = some (registry.claimRefForClaim claim) ∧
    claim.claimId = claimId

def active (contents : Contents) (registry : PredicateRegistry) (claim : Claim) : Prop :=
  contents.claim claim ∧ ¬contents.inactive registry claim.claimId

/-- The retractions with a given target. -/
def retractedUnder (contents : Contents) (field : ClaimRetracted → Option String)
    (target : String) (retraction : ClaimRetracted) : Prop :=
  contents.retraction retraction ∧ truthy (field retraction) = some target

end Contents

/-- Records with one identifier are one record. -/
def Distinct {α : Type} (key : α → String) (member : α → Prop) : Prop :=
  ∀ first second, member first → member second → key first = key second → first = second

/-- Records that `==` identifies are one record. -/
def Structural {α : Type} [PyEq α] (member : α → Prop) : Prop :=
  ∀ first second, member first → member second → pyEq first second = true → first = second

namespace Contents

/-- No identifier is bound to two records. -/
structure Consistent (contents : Contents) : Prop where
  source : Distinct (·.sourceId) contents.source
  evidence : Distinct (·.evidenceId) contents.evidence
  claim : Distinct (·.claimId) contents.claim
  decision : Distinct (·.decisionId) contents.decision
  derivation : Distinct (·.derivationId) contents.derivation
  resolution : Distinct (·.resolutionId) contents.resolution
  event : Distinct (·.eventId) contents.event

/-- Records are compared structurally, and no two retractions share an operation id. -/
structure Plain (contents : Contents) : Prop where
  source : Structural contents.source
  evidence : Structural contents.evidence
  claim : Structural contents.claim
  decision : Structural contents.decision
  derivation : Structural contents.derivation
  resolution : Structural contents.resolution
  event : Structural contents.event
  retraction : Distinct (fun retraction : ClaimRetracted => retraction.opId) contents.retraction

/-- The contents that can be materialized. -/
structure Good (contents : Contents) (registry : PredicateRegistry) : Prop where
  consistent : contents.Consistent
  timed : ∀ decision, contents.decision decision → ∃ time, decisionTime decision = .ok time
  readable : ∀ claim, contents.active registry claim → Readable claim

end Contents

theorem Contents.good_empty (registry : PredicateRegistry) : Contents.empty.Good registry where
  consistent := {
    source := fun _ _ impossible => impossible.elim
    evidence := fun _ _ impossible => impossible.elim
    claim := fun _ _ impossible => impossible.elim
    decision := fun _ _ impossible => impossible.elim
    derivation := fun _ _ impossible => impossible.elim
    resolution := fun _ _ impossible => impossible.elim
    event := fun _ _ impossible => impossible.elim }
  timed := fun _ impossible => impossible.elim
  readable := fun _ impossible => impossible.1.elim

/-! ## Fewer operations -/

/-- The records of some contents are among those of others. -/
structure Contents.Within (contents whole : Contents) : Prop where
  source : ∀ record, contents.source record → whole.source record
  evidence : ∀ record, contents.evidence record → whole.evidence record
  claim : ∀ record, contents.claim record → whole.claim record
  retraction : ∀ record, contents.retraction record → whole.retraction record
  decision : ∀ record, contents.decision record → whole.decision record
  derivation : ∀ record, contents.derivation record → whole.derivation record
  resolution : ∀ record, contents.resolution record → whole.resolution record
  event : ∀ record, contents.event record → whole.event record

namespace Contents

variable {contents whole : Contents}

theorem within_of {fewer more : Op → Prop} (among : ∀ op, fewer op → more op) :
    (of fewer).Within (of more) where
  source := fun _ ⟨header, delivered⟩ => ⟨header, among _ delivered⟩
  evidence := fun _ ⟨header, delivered⟩ => ⟨header, among _ delivered⟩
  claim := fun _ ⟨header, delivered⟩ => ⟨header, among _ delivered⟩
  retraction := fun _ delivered => among _ delivered
  decision := fun _ ⟨header, delivered⟩ => ⟨header, among _ delivered⟩
  derivation := fun _ ⟨header, delivered⟩ => ⟨header, among _ delivered⟩
  resolution := fun _ ⟨header, delivered⟩ => ⟨header, among _ delivered⟩
  event := fun _ ⟨header, delivered⟩ => ⟨header, among _ delivered⟩

theorem within_self (contents : Contents) : contents.Within contents :=
  ⟨fun _ => id, fun _ => id, fun _ => id, fun _ => id, fun _ => id, fun _ => id, fun _ => id,
    fun _ => id⟩

theorem Within.trans {third : Contents} (first : contents.Within whole)
    (second : whole.Within third) : contents.Within third where
  source := fun record known => second.source record (first.source record known)
  evidence := fun record known => second.evidence record (first.evidence record known)
  claim := fun record known => second.claim record (first.claim record known)
  retraction := fun record known => second.retraction record (first.retraction record known)
  decision := fun record known => second.decision record (first.decision record known)
  derivation := fun record known => second.derivation record (first.derivation record known)
  resolution := fun record known => second.resolution record (first.resolution record known)
  event := fun record known => second.event record (first.event record known)

theorem within_add (contents : Contents) (op : Op) : contents.Within (contents.add op) := by
  cases op with
  | sourceAdded header record => exact { within_self contents with source := fun _ => Or.inl }
  | evidenceAdded header record => exact { within_self contents with evidence := fun _ => Or.inl }
  | claimAdded header record => exact { within_self contents with claim := fun _ => Or.inl }
  | claimRetracted record => exact { within_self contents with retraction := fun _ => Or.inl }
  | decisionAdded header record => exact { within_self contents with decision := fun _ => Or.inl }
  | derivationAdded header record =>
      exact { within_self contents with derivation := fun _ => Or.inl }
  | resolutionAdded header record =>
      exact { within_self contents with resolution := fun _ => Or.inl }
  | conflictLifecycleEventAdded header record =>
      exact { within_self contents with event := fun _ => Or.inl }

theorem within_addAll (ops : List Op) : contents.Within (ops.foldl add contents) := by
  induction ops generalizing contents with
  | nil => exact within_self contents
  | cons head tail inductionHypothesis => exact (within_add contents head).trans inductionHypothesis

omit [Runtime] in
private theorem distinct_mono {α : Type} {key : α → String} {fewer more : α → Prop}
    (distinct : Distinct key more) (among : ∀ record, fewer record → more record) :
    Distinct key fewer :=
  fun first second left right => distinct first second (among first left) (among second right)

omit [Runtime] in
private theorem structural_mono {α : Type} [PyEq α] {fewer more : α → Prop}
    (structural : Structural more) (among : ∀ record, fewer record → more record) :
    Structural fewer :=
  fun first second left right => structural first second (among first left) (among second right)

theorem Consistent.mono (consistent : whole.Consistent) (within : contents.Within whole) :
    contents.Consistent where
  source := distinct_mono consistent.source within.source
  evidence := distinct_mono consistent.evidence within.evidence
  claim := distinct_mono consistent.claim within.claim
  decision := distinct_mono consistent.decision within.decision
  derivation := distinct_mono consistent.derivation within.derivation
  resolution := distinct_mono consistent.resolution within.resolution
  event := distinct_mono consistent.event within.event

theorem Plain.mono (plain : whole.Plain) (within : contents.Within whole) : contents.Plain where
  source := structural_mono plain.source within.source
  evidence := structural_mono plain.evidence within.evidence
  claim := structural_mono plain.claim within.claim
  decision := structural_mono plain.decision within.decision
  derivation := structural_mono plain.derivation within.derivation
  resolution := structural_mono plain.resolution within.resolution
  event := structural_mono plain.event within.event
  retraction := distinct_mono plain.retraction within.retraction

end Contents

/-- The tables hold exactly the records of the contents. -/
structure Records.Holds (records : Records) (contents : Contents) : Prop where
  sources : Lists records.sourcesById (·.sourceId) contents.source
  evidence : Lists records.evidenceById (·.evidenceId) contents.evidence
  claims : Lists records.claimsById (·.claimId) contents.claim
  decisions : Lists records.decisionsById (·.decisionId) contents.decision
  derivations : Lists records.derivationsById (·.derivationId) contents.derivation
  resolutions : Lists records.resolutionsById (·.resolutionId) contents.resolution
  events : Lists records.lifecycleEventsById (·.eventId) contents.event

theorem Records.Holds.consistent {records : Records} {contents : Contents}
    (holds : records.Holds contents) : contents.Consistent where
  source := fun _ _ first second same => holds.sources.eq_of_key first second same
  evidence := fun _ _ first second same => holds.evidence.eq_of_key first second same
  claim := fun _ _ first second same => holds.claims.eq_of_key first second same
  decision := fun _ _ first second same => holds.decisions.eq_of_key first second same
  derivation := fun _ _ first second same => holds.derivations.eq_of_key first second same
  resolution := fun _ _ first second same => holds.resolutions.eq_of_key first second same
  event := fun _ _ first second same => holds.events.eq_of_key first second same

/-! ## The state of given contents -/

/-- What the detectors see in a state. -/
def MemoryState.context (state : MemoryState) : ConflictDetectionContext :=
  detectionContext state.predicateRegistry state.activeClaimsByKey state.evidenceById
    state.sourcesById state.derivationsById state.activeDecisions

/-- The report about the active claims of a key. -/
def ConflictDetectionContext.finding (context : ConflictDetectionContext) (key : ClaimKey) :
    Result (Option ConflictSet) :=
  findingOf context key (context.activeClaimsByKey[key]?.getD [])

/-- The report about a key of a state. -/
def MemoryState.finding (state : MemoryState) (key : ClaimKey) : Result (Option ConflictSet) :=
  state.context.finding key

def MemoryState.lifecycle (state : MemoryState) : LifecycleFold :=
  ⟨state.activeResolutionsByConflictRefAndScope, state.effectiveResolutionsByConflictRefAndScope,
    state.lifecycleStatusByConflictRefAndScope⟩

/-- The state of given contents, without detectors, instant and context. -/
structure Represents (registry : PredicateRegistry) (contents : Contents) (state : MemoryState) :
    Prop where
  sameRegistry : state.predicateRegistry = registry
  sources : Lists state.sourcesById (·.sourceId) contents.source
  evidence : Lists state.evidenceById (·.evidenceId) contents.evidence
  claims : Lists state.claimsById (·.claimId) contents.claim
  derivations : Lists state.derivationsById (·.derivationId) contents.derivation
  resolutions : Lists state.resolutionsById (·.resolutionId) contents.resolution
  events : Lists state.lifecycleEventsById (·.eventId) contents.event
  decisions : Lists (Dict.ofItems Decision.decisionId state.activeDecisions) (·.decisionId)
    contents.decision
  decisionsSorted : sortDecisions (Dict.values (Dict.ofItems Decision.decisionId
    state.activeDecisions)) = .ok state.activeDecisions
  claimRefs : Projects state.claimRefsById (·.claimId) contents.claim
    (fun claim claimRef => registry.claimRefForClaim claim = claimRef)
  claimIdsByRef : SortedGroups id state.claimIdsByRef (fun claimRef claimId =>
    ∃ claim, contents.claim claim ∧ registry.claimRefForClaim claim = claimRef ∧
      claim.claimId = claimId)
  retractionsByTarget : SortedGroups ClaimRetracted.order state.retractionsByTarget
    (contents.retractedUnder (·.targetClaimId))
  retractionsByTargetRef : SortedGroups ClaimRetracted.order state.retractionsByTargetRef
    (contents.retractedUnder (·.targetClaimRef))
  retractionsBySuperseder : SortedGroups ClaimRetracted.order state.retractionsBySuperseder
    (contents.retractedUnder (·.supersedesClaimId))
  retractionsBySupersederRef : SortedGroups ClaimRetracted.order state.retractionsBySupersederRef
    (contents.retractedUnder (·.supersedesClaimRef))
  inactive : ∀ claimId, claimId ∈ state.inactiveClaimIds ↔ contents.inactive registry claimId
  inapplicable : state.inapplicableClaimIds = ∅
  active : SortedGroups Claim.claimId state.activeClaimsByKey
    (fun key claim => contents.active registry claim ∧ claim.key = key)
  resolutionsByRef : SortedGroups ResolutionRecord.order state.resolutionsByConflictRef
    (fun conflictRef resolution => contents.resolution resolution ∧
      resolution.conflictRef = conflictRef)
  resolutionsByLane : SortedGroups ResolutionRecord.order state.resolutionsByConflictRefAndScope
    (fun lane resolution => contents.resolution resolution ∧ resolution.lane = lane)
  eventsByRef : SortedGroups ConflictLifecycleEvent.order state.lifecycleHistoryByConflictRef
    (fun conflictRef event => contents.event event ∧ event.conflictRef = conflictRef)
  eventsByLane : SortedGroups ConflictLifecycleEvent.order
    state.lifecycleHistoryByConflictRefAndScope
    (fun lane event => contents.event event ∧ event.lane = lane)
  claimIdsByEvidence : SortedGroups id state.claimIdsByEvidenceId (fun evidenceId claimId =>
    ∃ claim, contents.claim claim ∧ evidenceId ∈ claim.evidenceIds ∧ claimId = claim.claimId)
  claimIdsByDerivation : SortedGroups id state.claimIdsByDerivationId
    (fun derivationId claimId => ∃ claim, contents.claim claim ∧
      derivationId ∈ claim.derivationId.toList ∧ claimId = claim.claimId)
  evidenceIdsBySource : SortedGroups id state.evidenceIdsBySourceId (fun sourceId evidenceId =>
    ∃ evidence, contents.evidence evidence ∧ sourceId ∈ evidence.sourceId.toList ∧
      evidenceId = evidence.evidenceId)
  resolutionIdsByClaim : SortedGroups id state.resolutionIdsByClaimId
    (fun claimId resolutionId => ∃ resolution, contents.resolution resolution ∧
      claimId ∈ resolution.claimIds ∧ resolutionId = resolution.resolutionId)
  conflictsByKey : Maps state.conflictsByKey (fun key conflicts => ∃ conflict,
    state.finding key = .ok (some conflict) ∧ conflicts = [conflict])
  conflictsById : Lists state.conflictsById (·.conflictId)
    (fun conflict => ∃ key, state.finding key = .ok (some conflict))
  conflictsByRef : Lists state.conflictsByRef (·.conflictRef)
    (fun conflict => ∃ key, state.finding key = .ok (some conflict))
  conflicts : state.conflicts = Dict.values state.conflictsById
  indexed : ∀ key : ClaimKey, key ∈ state.directConflictIndexes ↔ key ∈ state.activeClaimsByKey
  indexes : ∀ (key : ClaimKey) (index : DirectConflictIndex),
    state.directConflictIndexes[key]? = some index →
    IndexFor registry key (fun claim => contents.active registry claim ∧ claim.key = key) index
  lifecycle : ∀ lane : Lane, ∃ folded,
    foldLane state.resolutionsById (state.resolutionsByConflictRefAndScope[lane]?.getD [])
      (state.lifecycleHistoryByConflictRefAndScope[lane]?.getD []) none = .ok folded ∧
    state.lifecycle.view lane = folded.finalView state.conflictsByRef[lane.conflictRef]? lane

namespace Represents

variable {registry : PredicateRegistry} {contents : Contents} {state other : MemoryState}

/-- The contents determine the state. -/
theorem unique (first : Represents registry contents state)
    (second : Represents registry contents other) : state = other := by
  have sources := first.sources.unique second.sources
  have evidence := first.evidence.unique second.evidence
  have claims := first.claims.unique second.claims
  have derivations := first.derivations.unique second.derivations
  have resolutions := first.resolutions.unique second.resolutions
  have events := first.events.unique second.events
  have decisions : state.activeDecisions = other.activeDecisions := by
    have sorted := first.decisionsSorted
    rw [first.decisions.unique second.decisions, second.decisionsSorted] at sorted
    injection sorted with sorted
    exact sorted.symm
  have active := first.active.unique second.active
  have sameRegistry : state.predicateRegistry = other.predicateRegistry :=
    first.sameRegistry.trans second.sameRegistry.symm
  have context : state.context = other.context := by
    rw [MemoryState.context, MemoryState.context, sameRegistry, active, evidence, sources,
      derivations, decisions]
  have finding : state.finding = other.finding := by
    funext key
    rw [MemoryState.finding, MemoryState.finding, context]
  have secondByKey := second.conflictsByKey
  have secondById := second.conflictsById
  have secondByRef := second.conflictsByRef
  rw [← finding] at secondByKey secondById secondByRef
  have conflictsByKey := first.conflictsByKey.unique secondByKey
  have conflictsById := first.conflictsById.unique secondById
  have conflictsByRef := first.conflictsByRef.unique secondByRef
  have resolutionsByLane := first.resolutionsByLane.unique second.resolutionsByLane
  have eventsByLane := first.eventsByLane.unique second.eventsByLane
  have indexes : state.directConflictIndexes = other.directConflictIndexes := by
    apply Dict.ext
    intro key
    have present := first.indexed key
    rw [active, ← second.indexed key, Dict.mem_iff, Dict.mem_iff] at present
    cases left : state.directConflictIndexes[key]? with
    | none =>
        cases right : other.directConflictIndexes[key]? with
        | none => rfl
        | some index =>
            obtain ⟨found, impossible⟩ := present.mpr ⟨index, right⟩
            rw [left] at impossible
            cases impossible
    | some index =>
        obtain ⟨found, right⟩ := present.mp ⟨index, left⟩
        rw [right, (first.indexes key index left).unique (second.indexes key found right)]
  have lifecycle : state.lifecycle = other.lifecycle := by
    apply LifecycleFold.ext_view
    intro lane
    obtain ⟨folded, run, viewed⟩ := first.lifecycle lane
    obtain ⟨otherFolded, otherRun, otherViewed⟩ := second.lifecycle lane
    rw [resolutions, resolutionsByLane, eventsByLane, otherRun] at run
    injection run with run
    rw [viewed, otherViewed, conflictsByRef, run]
  have claimRefs := Maps.unique first.claimRefs second.claimRefs
  have claimIdsByRef := first.claimIdsByRef.unique second.claimIdsByRef
  have target := first.retractionsByTarget.unique second.retractionsByTarget
  have targetRef := first.retractionsByTargetRef.unique second.retractionsByTargetRef
  have superseder := first.retractionsBySuperseder.unique second.retractionsBySuperseder
  have supersederRef := first.retractionsBySupersederRef.unique second.retractionsBySupersederRef
  have inactive : state.inactiveClaimIds = other.inactiveClaimIds :=
    PySet.ext (fun claimId => (first.inactive claimId).trans (second.inactive claimId).symm)
  have inapplicable := first.inapplicable.trans second.inapplicable.symm
  have resolutionsByRef := first.resolutionsByRef.unique second.resolutionsByRef
  have eventsByRef := first.eventsByRef.unique second.eventsByRef
  have byEvidence := first.claimIdsByEvidence.unique second.claimIdsByEvidence
  have byDerivation := first.claimIdsByDerivation.unique second.claimIdsByDerivation
  have bySource := first.evidenceIdsBySource.unique second.evidenceIdsBySource
  have byClaim := first.resolutionIdsByClaim.unique second.resolutionIdsByClaim
  have conflicts : state.conflicts = other.conflicts := by
    rw [first.conflicts, second.conflicts, conflictsById]
  have activeResolutions := congrArg LifecycleFold.active lifecycle
  have effective := congrArg LifecycleFold.effective lifecycle
  have statuses := congrArg LifecycleFold.statuses lifecycle
  cases state
  cases other
  simp only [MemoryState.lifecycle] at activeResolutions effective statuses
  simp only at *
  simp only [MemoryState.mk.injEq]
  exact ⟨evidence, active, decisions, conflicts, claims, claimRefs, claimIdsByRef, target,
    targetRef, superseder, supersederRef, inactive, sources, derivations, resolutions, events,
    resolutionsByRef, resolutionsByLane, eventsByRef, eventsByLane, effective, activeResolutions,
    statuses, conflictsById, conflictsByRef, conflictsByKey, inapplicable, byEvidence,
    byDerivation, bySource, byClaim, indexes, sameRegistry⟩

end Represents

end Statefuse
