import Statefuse.Model.Claim

/-!
# Derivations, resolutions, lifecycle events and decisions

The checks of a constructor are one function here, `check`, in the order and with
the messages of the source; a record stores the proof that they passed.
-/

namespace Statefuse

open Foundation

set_option synthInstance.maxSize 1024

/-- Raise a `ValueError` when a condition fails. -/
def require (condition : Bool) (message : String) : Result Unit :=
  if condition then .ok () else valueError message

@[simp] theorem require_ok_iff {condition : Bool} {message : String} :
    require condition message = .ok () ↔ condition = true := by
  unfold require valueError
  split <;> simp_all

structure DerivationFields where
  derivationId : String
  ruleId : String
  inputClaimIds : List String
  outputClaimIds : List String
  engine : String
  explanation : String
  timestamp : String
  confidence : Option PyNumber
  metadata : JSONObject
  deriving DecidableEq

def DerivationFields.check (fields : DerivationFields) : Result Unit := do
  require (fields.derivationId ≠ "" ∧ fields.ruleId ≠ "" ∧ fields.engine ≠ "" ∧
    fields.timestamp ≠ "") "Derivation identifiers, rule, engine, and timestamp are required."
  require (∀ confidence ∈ fields.confidence, InUnit confidence)
    "Derivation.confidence must be between 0 and 1."

structure Derivation extends DerivationFields where
  checked : toDerivationFields.check = .ok ()
  deriving DecidableEq

namespace Derivation

instance : PyEq Derivation where
  Key := (String × String × List String × List String) × (String × String × String × Option ℚ) ×
    Json ℚ
  decidableKey := inferInstance
  key derivation :=
    ((derivation.derivationId, derivation.ruleId, derivation.inputClaimIds,
        derivation.outputClaimIds),
      (derivation.engine, derivation.explanation, derivation.timestamp,
        derivation.confidence.map PyNumber.value),
      PyEq.key derivation.metadata)

def create (fields : DerivationFields) : Result Derivation :=
  match checked : fields.check with
  | .ok () => .ok ⟨fields, checked⟩
  | .error failure => .error failure

def toDict (derivation : Derivation) : JSONObject :=
  objectOf [("derivation_id", .str derivation.derivationId), ("rule_id", .str derivation.ruleId),
    ("input_claim_ids", strList derivation.inputClaimIds),
    ("output_claim_ids", strList derivation.outputClaimIds), ("engine", .str derivation.engine),
    ("explanation", .str derivation.explanation), ("timestamp", .str derivation.timestamp),
    ("confidence", (derivation.confidence.map JsonValue.number).getD .null),
    ("metadata", .obj derivation.metadata)]

end Derivation

/-! ## Resolutions and lifecycle events -/

inductive ResolutionOutcome where
  | select | replace | preserve | merge | abstain
  deriving DecidableEq

namespace ResolutionOutcome

def text : ResolutionOutcome → String
  | select => "select"
  | replace => "replace"
  | preserve => "preserve"
  | merge => "merge"
  | abstain => "abstain"

def ofText : String → Option ResolutionOutcome
  | "select" => some select
  | "replace" => some replace
  | "preserve" => some preserve
  | "merge" => some merge
  | "abstain" => some abstain
  | _ => none

@[simp] theorem ofText_text (outcome : ResolutionOutcome) : ofText outcome.text = some outcome := by
  cases outcome <;> rfl

theorem text_injective : Function.Injective text := by
  intro first second same
  have read := ofText_text first
  rw [same, ofText_text] at read
  injection read with read
  exact read.symm

/-- An unknown outcome is refused. -/
def read (outcomeText : String) : Result ResolutionOutcome :=
  match ofText outcomeText with
  | some outcome => .ok outcome
  | none => valueError ("Unknown resolution outcome: " ++ outcomeText)

theorem read_ok_iff {outcomeText : String} {outcome : ResolutionOutcome} :
    read outcomeText = .ok outcome ↔ ofText outcomeText = some outcome := by
  cases known : ofText outcomeText <;> simp [read, known, valueError]

end ResolutionOutcome

inductive LifecycleStatus where
  | opened | deferred | resolved | reopened | invalidated
  deriving DecidableEq

namespace LifecycleStatus

def text : LifecycleStatus → String
  | opened => "open"
  | deferred => "deferred"
  | resolved => "resolved"
  | reopened => "reopened"
  | invalidated => "invalidated"

def ofText : String → Option LifecycleStatus
  | "open" => some opened
  | "deferred" => some deferred
  | "resolved" => some resolved
  | "reopened" => some reopened
  | "invalidated" => some invalidated
  | _ => none

@[simp] theorem ofText_text (status : LifecycleStatus) : ofText status.text = some status := by
  cases status <;> rfl

theorem text_injective : Function.Injective text := by
  intro first second same
  have read := ofText_text first
  rw [same, ofText_text] at read
  injection read with read
  exact read.symm

/-- An unknown status is refused. -/
def read (statusText : String) : Result LifecycleStatus :=
  match ofText statusText with
  | some status => .ok status
  | none => valueError ("Unknown conflict lifecycle status: " ++ statusText)

theorem read_ok_iff {statusText : String} {status : LifecycleStatus} :
    read statusText = .ok status ↔ ofText statusText = some status := by
  cases known : ofText statusText <;> simp [read, known, valueError]

end LifecycleStatus

structure ResolutionFields where
  resolutionId : String
  conflictRef : String
  observedConflictId : String
  selectedClaimIds : List String
  rejectedClaimIds : List String
  retainedClaimIds : List String
  resolutionType : String
  reason : String
  evidenceIds : List String
  actorId : String
  timestamp : String
  scope : Option String
  validFrom : Option String
  validUntil : Option String
  metadata : JSONObject
  deriving DecidableEq

namespace ResolutionFields

/-- The constructor sorts the three groups of claim ids. -/
def sorted (fields : ResolutionFields) : ResolutionFields :=
  { fields with
    selectedClaimIds := sortBy id fields.selectedClaimIds
    rejectedClaimIds := sortBy id fields.rejectedClaimIds
    retainedClaimIds := sortBy id fields.retainedClaimIds }

/-- No claim id is in two of the groups. -/
def Disjoint (fields : ResolutionFields) : Prop :=
  (∀ claimId ∈ fields.selectedClaimIds,
    claimId ∉ fields.rejectedClaimIds ∧ claimId ∉ fields.retainedClaimIds) ∧
  ∀ claimId ∈ fields.rejectedClaimIds, claimId ∉ fields.retainedClaimIds

instance (fields : ResolutionFields) : Decidable fields.Disjoint :=
  inferInstanceAs (Decidable (_ ∧ _))

private theorem disjoint_sorted (fields : ResolutionFields) :
    fields.sorted.Disjoint ↔ fields.Disjoint := by
  simp [Disjoint, sorted]

theorem sorted_sorted (fields : ResolutionFields) : fields.sorted.sorted = fields.sorted := by
  simp only [sorted, sortBy_of_pairwise (sortBy_pairwise _ _)]

end ResolutionFields

section Timed

variable [Runtime]

namespace Derivation

def readConfidence (value : JSONObject) : Result (Option PyNumber) :=
  let item := getOrNull value "confidence"
  if item.isNull then .ok none else (pyFloat item).map (some ∘ PyNumber.float)

def fromDict (value : JSONObject) : Result Derivation := do
  let inputClaimIds ← stringItems (getOrNull value "input_claim_ids")
    "Derivation.input_claim_ids must be a list of strings."
  let outputClaimIds ← stringItems (getOrNull value "output_claim_ids")
    "Derivation.output_claim_ids must be a list of strings."
  let metadata ← mappingOrEmpty value "metadata" "Derivation.metadata must be a mapping."
  let derivationId ← requiredString value "derivation_id"
  let ruleId ← requiredString value "rule_id"
  let engine ← requiredString value "engine"
  let explanation ← requiredString value "explanation"
  let timestamp ← requiredString value "timestamp"
  let confidence ← readConfidence value
  create ⟨derivationId, ruleId, inputClaimIds, outputClaimIds, engine, explanation, timestamp,
    confidence, metadata⟩

end Derivation

namespace ResolutionFields

/-- The checks of the constructor; an outcome that passes is one of the known ones. -/
def check (fields : ResolutionFields) (outcomeText : String) : Result ResolutionOutcome := do
  require fields.selectedClaimIds.Nodup
    "ResolutionRecord.selected_claim_ids must not contain duplicates."
  require fields.rejectedClaimIds.Nodup
    "ResolutionRecord.rejected_claim_ids must not contain duplicates."
  require fields.retainedClaimIds.Nodup
    "ResolutionRecord.retained_claim_ids must not contain duplicates."
  require fields.Disjoint "ResolutionRecord claim ID sets must not overlap."
  require (fields.resolutionId ≠ "" ∧ fields.conflictRef ≠ "" ∧ fields.observedConflictId ≠ "")
    "ResolutionRecord identifiers must be present."
  require (fields.actorId ≠ "" ∧ fields.reason ≠ "" ∧ fields.resolutionType ≠ "")
    "ResolutionRecord actor_id, reason, and resolution_type are required."
  require (fields.timestamp ≠ "") "ResolutionRecord.timestamp is required."
  let outcome ← ResolutionOutcome.read outcomeText
  require (¬((outcome = .preserve ∨ outcome = .abstain) ∧
      (fields.selectedClaimIds ≠ [] ∨ fields.rejectedClaimIds ≠ [])))
    ("Resolution outcome '" ++ outcomeText ++ "' cannot select or reject claims.")
  require (outcome = .merge → fields.selectedClaimIds.length = 1)
    "Resolution outcome 'merge' requires one merged claim."
  let _ ← parseUtcIso fields.timestamp
  ValidityInterval.checkOrder fields.validFrom fields.validUntil
  return outcome

/-- What the checks establish. -/
structure Valid (fields : ResolutionFields) (outcome : ResolutionOutcome) : Prop where
  selectedDistinct : fields.selectedClaimIds.Nodup
  rejectedDistinct : fields.rejectedClaimIds.Nodup
  retainedDistinct : fields.retainedClaimIds.Nodup
  disjoint : fields.Disjoint
  identifiersPresent :
    fields.resolutionId ≠ "" ∧ fields.conflictRef ≠ "" ∧ fields.observedConflictId ≠ ""
  authorityPresent : fields.actorId ≠ "" ∧ fields.reason ≠ "" ∧ fields.resolutionType ≠ ""
  timestampPresent : fields.timestamp ≠ ""
  leavesOpen : outcome = .preserve ∨ outcome = .abstain →
    fields.selectedClaimIds = [] ∧ fields.rejectedClaimIds = []
  mergesOne : outcome = .merge → fields.selectedClaimIds.length = 1
  timestampParses : ∃ instant, parseUtcIso fields.timestamp = .ok instant
  intervalOrdered : IntervalOrdered fields.validFrom fields.validUntil

theorem check_ok_iff {fields : ResolutionFields} {outcomeText : String}
    {outcome : ResolutionOutcome} :
    fields.check outcomeText = .ok outcome ↔
      ResolutionOutcome.ofText outcomeText = some outcome ∧ fields.Valid outcome := by
  unfold check
  simp only [bind_ok_iff, pure_ok_iff, Unique.exists_iff, PUnit.default_eq_unit, require_ok_iff,
    decide_eq_true_eq, ResolutionOutcome.read_ok_iff, ValidityInterval.checkOrder_ok_iff]
  constructor
  · rintro ⟨selectedDistinct, rejectedDistinct, retainedDistinct, disjoint, identifiers, authority,
      timestamp, known, read, open_, mergesOne, ⟨instant, parsed, ordered, same⟩⟩
    subst same
    refine ⟨read, selectedDistinct, rejectedDistinct, retainedDistinct, disjoint, identifiers,
      authority, timestamp, ?_, mergesOne, ⟨instant, parsed⟩, ordered⟩
    intro leaves
    by_contra classified
    exact open_ ⟨leaves, by
      by_cases selected : fields.selectedClaimIds = []
      · exact Or.inr (fun rejected => classified ⟨selected, rejected⟩)
      · exact Or.inl selected⟩
  · rintro ⟨read, valid⟩
    obtain ⟨instant, parsed⟩ := valid.timestampParses
    refine ⟨valid.selectedDistinct, valid.rejectedDistinct, valid.retainedDistinct, valid.disjoint,
      valid.identifiersPresent, valid.authorityPresent, valid.timestampPresent, outcome, read, ?_,
      valid.mergesOne, instant, parsed, valid.intervalOrdered, rfl⟩
    rintro ⟨leaves, classified⟩
    obtain ⟨selected, rejected⟩ := valid.leavesOpen leaves
    rcases classified with some | some
    · exact some selected
    · exact some rejected

/-- Sorting the groups does not change what the checks establish. -/
theorem Valid.sorted {fields : ResolutionFields} {outcome : ResolutionOutcome}
    (valid : fields.Valid outcome) : fields.sorted.Valid outcome where
  selectedDistinct := sortBy_nodup valid.selectedDistinct
  rejectedDistinct := sortBy_nodup valid.rejectedDistinct
  retainedDistinct := sortBy_nodup valid.retainedDistinct
  disjoint := (disjoint_sorted fields).mpr valid.disjoint
  identifiersPresent := valid.identifiersPresent
  authorityPresent := valid.authorityPresent
  timestampPresent := valid.timestampPresent
  leavesOpen leaves :=
    ⟨sortBy_eq_nil.mpr (valid.leavesOpen leaves).1, sortBy_eq_nil.mpr (valid.leavesOpen leaves).2⟩
  mergesOne merges :=
    (sortBy_perm id fields.selectedClaimIds).length_eq.trans (valid.mergesOne merges)
  timestampParses := valid.timestampParses
  intervalOrdered := valid.intervalOrdered

end ResolutionFields

structure ResolutionRecord extends ResolutionFields where
  outcome : ResolutionOutcome
  valid : toResolutionFields.Valid outcome
  ordered : toResolutionFields.sorted = toResolutionFields
  deriving DecidableEq

namespace ResolutionRecord

instance : PyEq ResolutionRecord where
  Key := (String × String × String × List String × List String × List String) ×
    (String × String × List String × String × String) ×
    (Option String × Option String × Option String × Json ℚ × ResolutionOutcome)
  decidableKey := inferInstance
  key resolution :=
    ((resolution.resolutionId, resolution.conflictRef, resolution.observedConflictId,
        resolution.selectedClaimIds, resolution.rejectedClaimIds, resolution.retainedClaimIds),
      (resolution.resolutionType, resolution.reason, resolution.evidenceIds, resolution.actorId,
        resolution.timestamp),
      (resolution.scope, resolution.validFrom, resolution.validUntil,
        PyEq.key resolution.metadata, resolution.outcome))

theorem checked (resolution : ResolutionRecord) :
    resolution.toResolutionFields.check resolution.outcome.text = .ok resolution.outcome :=
  ResolutionFields.check_ok_iff.mpr ⟨ResolutionOutcome.ofText_text _, resolution.valid⟩

def create (fields : ResolutionFields) (outcomeText : String) : Result ResolutionRecord :=
  match checked : fields.check outcomeText with
  | .ok outcome =>
      .ok ⟨fields.sorted, outcome, (ResolutionFields.check_ok_iff.mp checked).2.sorted,
        fields.sorted_sorted⟩
  | .error failure => .error failure

def toDict (resolution : ResolutionRecord) : JSONObject :=
  withField (withField (withField (withField
    (objectOf [("resolution_id", .str resolution.resolutionId),
      ("conflict_ref", .str resolution.conflictRef),
      ("observed_conflict_id", .str resolution.observedConflictId),
      ("selected_claim_ids", strList resolution.selectedClaimIds),
      ("rejected_claim_ids", strList resolution.rejectedClaimIds),
      ("retained_claim_ids", strList resolution.retainedClaimIds),
      ("resolution_type", .str resolution.resolutionType), ("reason", .str resolution.reason),
      ("evidence_ids", strList resolution.evidenceIds), ("actor_id", .str resolution.actorId),
      ("timestamp", .str resolution.timestamp), ("metadata", .obj resolution.metadata)])
    "scope" (resolution.scope.map .str)) "valid_from" (resolution.validFrom.map .str))
    "valid_until" (resolution.validUntil.map .str))
    "outcome" (if resolution.outcome ≠ .select then some (.str resolution.outcome.text) else none)

/-- One of the lists of ids. -/
def readClaimIds (value : JSONObject) (key : String) : Result (List String) :=
  stringItems (getOrNull value key) ("ResolutionRecord." ++ key ++ " must be a list of strings.")

def fromDict (value : JSONObject) : Result ResolutionRecord := do
  let metadata ← mappingOrEmpty value "metadata" "ResolutionRecord.metadata must be a mapping."
  let resolutionId ← requiredString value "resolution_id"
  let conflictRef ← requiredString value "conflict_ref"
  let observedConflictId ← requiredString value "observed_conflict_id"
  let selectedClaimIds ← readClaimIds value "selected_claim_ids"
  let rejectedClaimIds ← readClaimIds value "rejected_claim_ids"
  let retainedClaimIds ← readClaimIds value "retained_claim_ids"
  let resolutionType ← requiredString value "resolution_type"
  let reason ← requiredString value "reason"
  let evidenceIds ← readClaimIds value "evidence_ids"
  let actorId ← requiredString value "actor_id"
  let timestamp ← requiredString value "timestamp"
  let scope ← optionalString value "scope"
  let validFrom ← optionalString value "valid_from"
  let validUntil ← optionalString value "valid_until"
  create ⟨resolutionId, conflictRef, observedConflictId, selectedClaimIds, rejectedClaimIds,
    retainedClaimIds, resolutionType, reason, evidenceIds, actorId, timestamp, scope, validFrom,
    validUntil, metadata⟩ ((value["outcome"]?.map pyStr).getD "select")

end ResolutionRecord

structure LifecycleEventFields where
  eventId : String
  conflictRef : String
  observedConflictId : String
  timestamp : String
  reason : String
  actorId : Option String
  scope : Option String
  resolutionId : Option String
  metadata : JSONObject
  deriving DecidableEq

namespace LifecycleEventFields

/-- The checks of the constructor; a status that passes is one of the known ones. -/
def check (fields : LifecycleEventFields) (statusText : String) : Result LifecycleStatus := do
  require (fields.eventId ≠ "" ∧ fields.conflictRef ≠ "" ∧ fields.observedConflictId ≠ "")
    "ConflictLifecycleEvent identifiers must be present."
  let status ← LifecycleStatus.read statusText
  require (fields.reason ≠ "") "ConflictLifecycleEvent.reason is required."
  require (fields.timestamp ≠ "") "ConflictLifecycleEvent timestamp and reason are required."
  let _ ← parseUtcIso fields.timestamp
  return status

/-- What the checks establish. -/
structure Valid (fields : LifecycleEventFields) : Prop where
  identifiersPresent :
    fields.eventId ≠ "" ∧ fields.conflictRef ≠ "" ∧ fields.observedConflictId ≠ ""
  reasonPresent : fields.reason ≠ ""
  timestampPresent : fields.timestamp ≠ ""
  timestampParses : ∃ instant, parseUtcIso fields.timestamp = .ok instant

theorem check_ok_iff {fields : LifecycleEventFields} {statusText : String}
    {status : LifecycleStatus} :
    fields.check statusText = .ok status ↔
      LifecycleStatus.ofText statusText = some status ∧ fields.Valid := by
  unfold check
  simp only [bind_ok_iff, pure_ok_iff, Unique.exists_iff, PUnit.default_eq_unit, require_ok_iff,
    decide_eq_true_eq, LifecycleStatus.read_ok_iff]
  constructor
  · rintro ⟨identifiers, known, read, reason, timestamp, instant, parsed, same⟩
    subst same
    exact ⟨read, identifiers, reason, timestamp, instant, parsed⟩
  · rintro ⟨read, valid⟩
    obtain ⟨instant, parsed⟩ := valid.timestampParses
    exact ⟨valid.identifiersPresent, status, read, valid.reasonPresent, valid.timestampPresent,
      instant, parsed, rfl⟩

end LifecycleEventFields

structure ConflictLifecycleEvent extends LifecycleEventFields where
  status : LifecycleStatus
  valid : toLifecycleEventFields.Valid
  deriving DecidableEq

namespace ConflictLifecycleEvent

instance : PyEq ConflictLifecycleEvent where
  Key := (String × String × String × LifecycleStatus × String × String) ×
    (Option String × Option String × Option String × Json ℚ)
  decidableKey := inferInstance
  key event :=
    ((event.eventId, event.conflictRef, event.observedConflictId, event.status, event.timestamp,
        event.reason),
      (event.actorId, event.scope, event.resolutionId, PyEq.key event.metadata))

theorem checked (event : ConflictLifecycleEvent) :
    event.toLifecycleEventFields.check event.status.text = .ok event.status :=
  LifecycleEventFields.check_ok_iff.mpr ⟨LifecycleStatus.ofText_text _, event.valid⟩

def create (fields : LifecycleEventFields) (statusText : String) : Result ConflictLifecycleEvent :=
  match checked : fields.check statusText with
  | .ok status => .ok ⟨fields, status, (LifecycleEventFields.check_ok_iff.mp checked).2⟩
  | .error failure => .error failure

def toDict (event : ConflictLifecycleEvent) : JSONObject :=
  withField (withField (withField
    (objectOf [("event_id", .str event.eventId), ("conflict_ref", .str event.conflictRef),
      ("observed_conflict_id", .str event.observedConflictId), ("status", .str event.status.text),
      ("timestamp", .str event.timestamp), ("reason", .str event.reason),
      ("metadata", .obj event.metadata)])
    "actor_id" (event.actorId.map .str)) "scope" (event.scope.map .str))
    "resolution_id" (event.resolutionId.map .str)

def fromDict (value : JSONObject) : Result ConflictLifecycleEvent := do
  let metadata ← mappingOrEmpty value "metadata"
    "ConflictLifecycleEvent.metadata must be a mapping."
  let eventId ← requiredString value "event_id"
  let conflictRef ← requiredString value "conflict_ref"
  let observedConflictId ← requiredString value "observed_conflict_id"
  let status ← requiredString value "status"
  let timestamp ← requiredString value "timestamp"
  let reason ← requiredString value "reason"
  let actorId ← optionalString value "actor_id"
  let scope ← optionalString value "scope"
  let resolutionId ← optionalString value "resolution_id"
  create ⟨eventId, conflictRef, observedConflictId, timestamp, reason, actorId, scope,
    resolutionId, metadata⟩ status

end ConflictLifecycleEvent

structure Decision where
  decisionId : String
  scope : String
  payload : JSONObject
  timestamp : String
  deriving DecidableEq

namespace Decision

instance : PyEq Decision where
  Key := String × String × Json ℚ × String
  decidableKey := inferInstance
  key decision :=
    (decision.decisionId, decision.scope, PyEq.key decision.payload, decision.timestamp)

def toDict (decision : Decision) : JSONObject :=
  objectOf [("decision_id", .str decision.decisionId), ("scope", .str decision.scope),
    ("payload", .obj decision.payload), ("timestamp", .str decision.timestamp)]

def fromDict (value : JSONObject) : Result Decision := do
  let payload ← mappingOrEmpty value "payload" "Decision.payload must be a mapping."
  let decisionId ← getItem value "decision_id"
  let scope ← getItem value "scope"
  return ⟨pyStr decisionId, pyStr scope, payload, (value["timestamp"]?.map pyStr).getD ""⟩

end Decision

end Timed

end Statefuse
