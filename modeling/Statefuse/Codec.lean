import Statefuse.Ops

/-!
# Reading back what was written

Every record is read back from its dictionary.  The confidences come back as floats, so a
claim or a derivation is read back as an equal record that need not be the same one; all
other records are read back unchanged.  An operation therefore survives any number of
passages through its dictionary or its JSON text up to equality (`Op.round_trip`), and
after the first passage it does not change any more (`Op.decoded_decoded`).
-/

namespace Statefuse

open Foundation

/-- The last of the fields with a name counts. -/
theorem get_objectOf (fields : List (String × JSONValue)) (key : String) :
    (objectOf fields)[key]? = fields.reverse.lookup key := by
  have general : ∀ (rest : List (String × JSONValue)) (start : JSONObject),
      (rest.foldl (fun members field => members.insert field.1 field.2) start)[key]? =
        (rest.reverse.lookup key <|> start[key]?) := by
    intro rest
    induction rest with
    | nil =>
        intro start
        rfl
    | cons head tail inductionHypothesis =>
        intro start
        rw [List.foldl_cons, inductionHypothesis, List.reverse_cons, List.lookup_append,
          Dict.get_insert]
        cases tail.reverse.lookup key with
        | some value => rfl
        | none =>
            by_cases same : head.1 = key
            · simp [same, List.lookup]
            · have different : (key == head.1) = false := by simp [Ne.symm same]
              simp [same, List.lookup, different]
  rw [objectOf, general]
  simp

section Reading

variable {value members : JSONObject} {key message text : String}

theorem requiredString_of_get (found : value[key]? = some (.str text)) :
    requiredString value key = .ok text := by
  simp [requiredString, getOrNull, found]

theorem optionalString_of_get {text : Option String}
    (found : value[key]? = some (optionalStr text)) : optionalString value key = .ok text := by
  unfold optionalString getOrNull
  rw [found]
  cases text <;> rfl

/-- A field that is written only when it has a value. -/
theorem optionalString_of_field {text : Option String}
    (found : value[key]? = text.map .str) : optionalString value key = .ok text := by
  unfold optionalString getOrNull
  rw [found]
  cases text <;> rfl

theorem mappingOrEmpty_of_get (found : value[key]? = some (.obj members)) :
    mappingOrEmpty value key message = .ok members := by
  simp [mappingOrEmpty, found]

theorem getItem_of_get {item : JSONValue} (found : value[key]? = some item) :
    getItem value key = .ok item := by
  simp [getItem, found]

theorem stringItems_strList (items : List String) (message : String) :
    stringItems (strList items) message = .ok items := by
  have texts : (items.map JsonValue.str).mapM (JsonValue.asStr? (N := PyNumber)) = some items := by
    induction items with
    | nil => rfl
    | cons head tail inductionHypothesis =>
        rw [List.map_cons, List.mapM_cons, inductionHypothesis]
        simp
  simp only [stringItems, strList, JsonValue.asArr_arr, texts]

theorem strList_injective {first second : List String} (same : strList first = strList second) :
    first = second := by
  have read := stringItems_strList first ""
  rw [same, stringItems_strList] at read
  injection read with read
  exact read.symm

theorem listOfStr_of_get {items : List String} (found : value[key]? = some (strList items)) :
    listOfStr value key = .ok items := by
  rw [listOfStr, found]
  exact stringItems_strList items _

theorem stringItems_of_get {items : List String} (found : value[key]? = some (strList items)) :
    stringItems (getOrNull value key) message = .ok items := by
  rw [getOrNull, found]
  exact stringItems_strList items _

end Reading

/-! ## Records without numbers of their own -/

theorem Source.fromDict_toDict (source : Source) : fromDict source.toDict = .ok source := by
  have metadata : mappingOrEmpty source.toDict "metadata" "Source.metadata must be a mapping." =
      .ok source.metadata := mappingOrEmpty_of_get ((get_objectOf _ _).trans rfl)
  have sourceId : requiredString source.toDict "source_id" = .ok source.sourceId :=
    requiredString_of_get ((get_objectOf _ _).trans rfl)
  have sourceType : requiredString source.toDict "source_type" = .ok source.sourceType :=
    requiredString_of_get ((get_objectOf _ _).trans rfl)
  have uri : optionalString source.toDict "uri" = .ok source.uri :=
    optionalString_of_get ((get_objectOf _ _).trans rfl)
  have system : optionalString source.toDict "system" = .ok source.system :=
    optionalString_of_get ((get_objectOf _ _).trans rfl)
  have actorId : optionalString source.toDict "actor_id" = .ok source.actorId :=
    optionalString_of_get ((get_objectOf _ _).trans rfl)
  have sessionId : optionalString source.toDict "session_id" = .ok source.sessionId :=
    optionalString_of_get ((get_objectOf _ _).trans rfl)
  have messageId : optionalString source.toDict "message_id" = .ok source.messageId :=
    optionalString_of_get ((get_objectOf _ _).trans rfl)
  have timestamp : optionalString source.toDict "timestamp" = .ok source.timestamp :=
    optionalString_of_get ((get_objectOf _ _).trans rfl)
  rw [fromDict, bind_of_ok metadata, bind_of_ok sourceId, bind_of_ok sourceType, bind_of_ok uri,
    bind_of_ok system, bind_of_ok actorId, bind_of_ok sessionId, bind_of_ok messageId,
    bind_of_ok timestamp, create, dif_neg source.sourceIdPresent,
    dif_neg source.sourceTypePresent]

section Records

variable [Runtime]

theorem ClaimKey.fromDict_toDict (key : ClaimKey) : fromDict key.toDict = .ok key := by
  have nameSpace : getItem key.toDict "namespace" = .ok (.str key.nameSpace) :=
    getItem_of_get ((get_objectOf _ _).trans rfl)
  have subject : getItem key.toDict "subject" = .ok (.str key.subject) :=
    getItem_of_get ((get_objectOf _ _).trans rfl)
  have predicate : getItem key.toDict "predicate" = .ok (.str key.predicate) :=
    getItem_of_get ((get_objectOf _ _).trans rfl)
  rw [fromDict, bind_of_ok nameSpace, bind_of_ok subject, bind_of_ok predicate]
  rfl

theorem Evidence.fromDict_toDict (evidence : Evidence) :
    fromDict evidence.toDict = .ok evidence := by
  have metadata : mappingOrEmpty evidence.toDict "metadata"
      "Evidence.metadata must be a mapping." = .ok evidence.metadata := by
    apply mappingOrEmpty_of_get
    simp [toDict, get_withField, get_objectOf]
  have evidenceId : getItem evidence.toDict "evidence_id" = .ok (.str evidence.evidenceId) := by
    apply getItem_of_get
    simp [toDict, get_withField, get_objectOf, List.lookup]
  have pointer : getOrNull evidence.toDict "pointer" = optionalStr evidence.pointer := by
    simp [getOrNull, toDict, get_withField, get_objectOf, List.lookup]
  have sourceId : optionalString evidence.toDict "source_id" = .ok evidence.sourceId := by
    apply optionalString_of_field
    simp [toDict, get_withField, get_objectOf, List.lookup]
  have contentDigest : optionalString evidence.toDict "content_digest" =
      .ok evidence.contentDigest := by
    apply optionalString_of_field
    simp [toDict, get_withField, get_objectOf, List.lookup]
  have read : (if (optionalStr evidence.pointer).isNull then none
      else some (pyStr (optionalStr evidence.pointer))) = evidence.pointer := by
    cases evidence.pointer <;> rfl
  rw [fromDict, bind_of_ok metadata, bind_of_ok evidenceId]
  simp only [pointer, read, bind_of_ok sourceId, bind_of_ok contentDigest]
  rfl

theorem ValidityInterval.fromDict_toDict (interval : ValidityInterval) :
    fromDict interval.toDict = .ok interval := by
  have validFrom : optionalString interval.toDict "valid_from" = .ok interval.validFrom :=
    optionalString_of_get ((get_objectOf _ _).trans rfl)
  have validUntil : optionalString interval.toDict "valid_until" = .ok interval.validUntil :=
    optionalString_of_get ((get_objectOf _ _).trans rfl)
  rw [fromDict, bind_of_ok validFrom, bind_of_ok validUntil, create_self]

theorem Decision.fromDict_toDict (decision : Decision) :
    fromDict decision.toDict = .ok decision := by
  have payload : mappingOrEmpty decision.toDict "payload" "Decision.payload must be a mapping." =
      .ok decision.payload := mappingOrEmpty_of_get ((get_objectOf _ _).trans rfl)
  have decisionId : getItem decision.toDict "decision_id" = .ok (.str decision.decisionId) :=
    getItem_of_get ((get_objectOf _ _).trans rfl)
  have scope : getItem decision.toDict "scope" = .ok (.str decision.scope) :=
    getItem_of_get ((get_objectOf _ _).trans rfl)
  have timestamp : decision.toDict["timestamp"]? = some (.str decision.timestamp) :=
    (get_objectOf _ _).trans rfl
  rw [fromDict, bind_of_ok payload, bind_of_ok decisionId, bind_of_ok scope, timestamp]
  rfl

theorem ConflictLifecycleEvent.create_self (event : ConflictLifecycleEvent) :
    create event.toLifecycleEventFields event.status.text = .ok event := by
  unfold create
  split
  · rename_i status passed
    rw [event.checked] at passed
    injection passed with passed
    subst passed
    rfl
  · rename_i failed
    rw [event.checked] at failed
    cases failed

theorem ConflictLifecycleEvent.fromDict_toDict (event : ConflictLifecycleEvent) :
    fromDict event.toDict = .ok event := by
  have metadata : mappingOrEmpty event.toDict "metadata"
      "ConflictLifecycleEvent.metadata must be a mapping." = .ok event.metadata := by
    apply mappingOrEmpty_of_get
    simp [toDict, get_withField, get_objectOf]
  have eventId : requiredString event.toDict "event_id" = .ok event.eventId := by
    apply requiredString_of_get
    simp [toDict, get_withField, get_objectOf, List.lookup]
  have conflictRef : requiredString event.toDict "conflict_ref" = .ok event.conflictRef := by
    apply requiredString_of_get
    simp [toDict, get_withField, get_objectOf, List.lookup]
  have observed : requiredString event.toDict "observed_conflict_id" =
      .ok event.observedConflictId := by
    apply requiredString_of_get
    simp [toDict, get_withField, get_objectOf, List.lookup]
  have status : requiredString event.toDict "status" = .ok event.status.text := by
    apply requiredString_of_get
    simp [toDict, get_withField, get_objectOf, List.lookup]
  have timestamp : requiredString event.toDict "timestamp" = .ok event.timestamp := by
    apply requiredString_of_get
    simp [toDict, get_withField, get_objectOf, List.lookup]
  have reason : requiredString event.toDict "reason" = .ok event.reason := by
    apply requiredString_of_get
    simp [toDict, get_withField, get_objectOf, List.lookup]
  have actorId : optionalString event.toDict "actor_id" = .ok event.actorId := by
    apply optionalString_of_field
    simp [toDict, get_withField, get_objectOf, List.lookup]
  have scope : optionalString event.toDict "scope" = .ok event.scope := by
    apply optionalString_of_field
    simp [toDict, get_withField, get_objectOf, List.lookup]
  have resolutionId : optionalString event.toDict "resolution_id" = .ok event.resolutionId := by
    apply optionalString_of_field
    simp [toDict, get_withField, get_objectOf, List.lookup]
  rw [fromDict, bind_of_ok metadata, bind_of_ok eventId, bind_of_ok conflictRef,
    bind_of_ok observed, bind_of_ok status, bind_of_ok timestamp, bind_of_ok reason,
    bind_of_ok actorId, bind_of_ok scope, bind_of_ok resolutionId]
  exact event.create_self

theorem ResolutionRecord.create_self (resolution : ResolutionRecord) :
    create resolution.toResolutionFields resolution.outcome.text = .ok resolution := by
  unfold create
  split
  · rename_i outcome passed
    rw [resolution.checked] at passed
    injection passed with passed
    subst passed
    cases resolution with
    | mk fields outcome valid ordered =>
        simp only [Except.ok.injEq, ResolutionRecord.mk.injEq]
        exact ⟨ordered, trivial⟩
  · rename_i failed
    rw [resolution.checked] at failed
    cases failed

theorem ResolutionRecord.fromDict_toDict (resolution : ResolutionRecord) :
    fromDict resolution.toDict = .ok resolution := by
  have metadata : mappingOrEmpty resolution.toDict "metadata"
      "ResolutionRecord.metadata must be a mapping." = .ok resolution.metadata := by
    apply mappingOrEmpty_of_get
    simp [toDict, get_withField, get_objectOf]
  have resolutionId : requiredString resolution.toDict "resolution_id" =
      .ok resolution.resolutionId := by
    apply requiredString_of_get
    simp [toDict, get_withField, get_objectOf, List.lookup]
  have conflictRef : requiredString resolution.toDict "conflict_ref" =
      .ok resolution.conflictRef := by
    apply requiredString_of_get
    simp [toDict, get_withField, get_objectOf, List.lookup]
  have observed : requiredString resolution.toDict "observed_conflict_id" =
      .ok resolution.observedConflictId := by
    apply requiredString_of_get
    simp [toDict, get_withField, get_objectOf, List.lookup]
  have selected : readClaimIds resolution.toDict "selected_claim_ids" =
      .ok resolution.selectedClaimIds := by
    apply stringItems_of_get
    simp [toDict, get_withField, get_objectOf, List.lookup]
  have rejected : readClaimIds resolution.toDict "rejected_claim_ids" =
      .ok resolution.rejectedClaimIds := by
    apply stringItems_of_get
    simp [toDict, get_withField, get_objectOf, List.lookup]
  have retained : readClaimIds resolution.toDict "retained_claim_ids" =
      .ok resolution.retainedClaimIds := by
    apply stringItems_of_get
    simp [toDict, get_withField, get_objectOf, List.lookup]
  have resolutionType : requiredString resolution.toDict "resolution_type" =
      .ok resolution.resolutionType := by
    apply requiredString_of_get
    simp [toDict, get_withField, get_objectOf, List.lookup]
  have reason : requiredString resolution.toDict "reason" = .ok resolution.reason := by
    apply requiredString_of_get
    simp [toDict, get_withField, get_objectOf, List.lookup]
  have evidenceIds : readClaimIds resolution.toDict "evidence_ids" =
      .ok resolution.evidenceIds := by
    apply stringItems_of_get
    simp [toDict, get_withField, get_objectOf, List.lookup]
  have actorId : requiredString resolution.toDict "actor_id" = .ok resolution.actorId := by
    apply requiredString_of_get
    simp [toDict, get_withField, get_objectOf, List.lookup]
  have timestamp : requiredString resolution.toDict "timestamp" = .ok resolution.timestamp := by
    apply requiredString_of_get
    simp [toDict, get_withField, get_objectOf, List.lookup]
  have scope : optionalString resolution.toDict "scope" = .ok resolution.scope := by
    apply optionalString_of_field
    simp [toDict, get_withField, get_objectOf, List.lookup]
  have validFrom : optionalString resolution.toDict "valid_from" = .ok resolution.validFrom := by
    apply optionalString_of_field
    simp [toDict, get_withField, get_objectOf, List.lookup]
  have validUntil : optionalString resolution.toDict "valid_until" =
      .ok resolution.validUntil := by
    apply optionalString_of_field
    simp [toDict, get_withField, get_objectOf, List.lookup]
  have outcome : (resolution.toDict["outcome"]?.map pyStr).getD "select" =
      resolution.outcome.text := by
    simp only [toDict, get_withField, get_objectOf]
    cases resolution.outcome <;> rfl
  rw [fromDict, bind_of_ok metadata, bind_of_ok resolutionId, bind_of_ok conflictRef,
    bind_of_ok observed, bind_of_ok selected, bind_of_ok rejected, bind_of_ok retained,
    bind_of_ok resolutionType, bind_of_ok reason, bind_of_ok evidenceIds, bind_of_ok actorId,
    bind_of_ok timestamp, bind_of_ok scope, bind_of_ok validFrom, bind_of_ok validUntil, outcome]
  exact resolution.create_self

omit [Runtime] in
theorem ClaimRetracted.create_self (op : ClaimRetracted) :
    create op.toRetractionFields = .ok op := by
  unfold create
  split
  · rfl
  · rename_i failed
    rw [op.checked] at failed
    cases failed

/-! ## Records with a confidence -/

omit [Runtime] in
/-- A confidence keeps its place between zero and one when it becomes a float. -/
theorem inUnit_toFloat {number : PyNumber} (inUnit : InUnit number) :
    InUnit (.float number.toFloat) := by
  have same : (PyNumber.float number.toFloat).value = number.value :=
    PyNumber.toFloat_value number inUnit.1 inUnit.2
  rw [InUnit, same]
  exact inUnit

namespace Claim

/-- The claim as it is read back: its confidence is a float. -/
def decoded (claim : Claim) : Claim :=
  { claim with
    confidence := .float claim.confidence.toFloat
    confidenceInUnit := inUnit_toFloat claim.confidenceInUnit }

theorem decoded_equal (claim : Claim) : pyEq claim.decoded claim = true := by
  have same : (PyNumber.float claim.confidence.toFloat).value = claim.confidence.value :=
    PyNumber.toFloat_value _ claim.confidenceInUnit.1 claim.confidenceInUnit.2
  rw [pyEq_iff]
  simp only [PyEq.key, decoded, same]

@[simp] theorem decoded_decoded (claim : Claim) : claim.decoded.decoded = claim.decoded := rfl

theorem create_decoded (claim : Claim) :
    create claim.claimId claim.key claim.value (.float claim.confidence.toFloat) claim.timestamp
      claim.claimRef claim.evidenceIds claim.provenance claim.validity claim.derivationId
      claim.kind claim.context = .ok claim.decoded := by
  rw [create, dif_pos (inUnit_toFloat claim.confidenceInUnit), dif_neg claim.kindPresent,
    dif_pos claim.contextKeysPresent, dif_neg claim.claimRefPresent]
  rfl

theorem fromDict_toDict (claim : Claim) : fromDict claim.toDict = .ok claim.decoded := by
  have evidenceIds : readEvidenceIds claim.toDict = .ok claim.evidenceIds := by
    have found : claim.toDict["evidence_ids"]? = some (strList claim.evidenceIds) := by
      simp [toDict, get_withField, get_objectOf, List.lookup]
    simp [readEvidenceIds, found, strList, Function.comp_def]
  have provenance : mappingOrEmpty claim.toDict "provenance"
      "Claim.provenance must be a mapping." = .ok claim.provenance := by
    apply mappingOrEmpty_of_get
    simp [toDict, get_withField, get_objectOf]
  have context : mappingOrEmpty claim.toDict "context" "Claim.context must be a mapping." =
      .ok claim.context := by
    by_cases empty : claim.context = ∅
    · have missing : claim.toDict["context"]? = none := by
        simp [toDict, get_withField, get_objectOf, List.lookup, empty]
      simp [mappingOrEmpty, missing, empty]
    · apply mappingOrEmpty_of_get
      simp [toDict, get_withField, empty]
  have claimId : getItem claim.toDict "claim_id" = .ok (.str claim.claimId) := by
    apply getItem_of_get
    simp [toDict, get_withField, get_objectOf, List.lookup]
  have claimRef : (claim.toDict["claim_ref"]?.map pyStr).getD "" = claim.claimRef := by
    simp [toDict, get_withField, get_objectOf, List.lookup]
  have keyItem : getItem claim.toDict "key" = .ok (.obj claim.key.toDict) := by
    apply getItem_of_get
    simp [toDict, get_withField, get_objectOf, List.lookup]
  have item : getItem claim.toDict "value" = .ok claim.value := by
    apply getItem_of_get
    simp [toDict, get_withField, get_objectOf, List.lookup]
  have confidence : getItem claim.toDict "confidence" = .ok (.number claim.confidence) := by
    apply getItem_of_get
    simp [toDict, get_withField, get_objectOf, List.lookup]
  have float : pyFloat (.number claim.confidence) = .ok claim.confidence.toFloat := rfl
  have timestamp : getItem claim.toDict "timestamp" = .ok (.str claim.timestamp) := by
    apply getItem_of_get
    simp [toDict, get_withField, get_objectOf, List.lookup]
  have validity : readValidity claim.toDict = .ok claim.validity := by
    have found : claim.toDict["validity"]? =
        claim.validity.map fun interval => JsonValue.obj interval.toDict := by
      simp [toDict, get_withField, get_objectOf, List.lookup]
    unfold readValidity getOrNull
    rw [found]
    cases claim.validity with
    | none => rfl
    | some interval =>
        simp only [Option.map_some, Option.getD_some, JsonValue.asObj_obj,
          ValidityInterval.fromDict_toDict]
        rfl
  have derivationId : optionalString claim.toDict "derivation_id" = .ok claim.derivationId := by
    apply optionalString_of_field
    simp [toDict, get_withField, get_objectOf, List.lookup]
  have kind : readKind claim.toDict = .ok claim.kind := by
    by_cases fact : claim.kind = "fact"
    · have missing : claim.toDict["kind"]? = none := by
        simp [toDict, get_withField, get_objectOf, List.lookup, fact]
      simp [readKind, missing, fact]
    · have found : claim.toDict["kind"]? = some (.str claim.kind) := by
        simp [toDict, get_withField, fact]
      simp [readKind, found]
  rw [fromDict, bind_of_ok evidenceIds, bind_of_ok provenance, bind_of_ok context,
    bind_of_ok claimId]
  simp only [claimRef]
  rw [bind_of_ok keyItem]
  simp only [JsonValue.asObj_obj]
  rw [bind_of_ok claim.key.fromDict_toDict, bind_of_ok item, bind_of_ok confidence,
    bind_of_ok float, bind_of_ok timestamp, bind_of_ok validity, bind_of_ok derivationId,
    bind_of_ok kind]
  exact claim.create_decoded

end Claim

namespace Derivation

/-- The fields as they are read back. -/
def decodedFields (derivation : Derivation) : DerivationFields :=
  { derivation.toDerivationFields with
    confidence := derivation.confidence.map fun confidence => .float confidence.toFloat }

omit [Runtime] in
theorem decodedFields_checked (derivation : Derivation) :
    derivation.decodedFields.check = .ok () := by
  have checked := derivation.checked
  simp only [DerivationFields.check, bind_ok_iff, require_ok_iff, decide_eq_true_eq,
    Unique.exists_iff] at checked ⊢
  refine ⟨checked.1, ?_⟩
  intro confidence given
  rcases Option.map_eq_some_iff.mp given with ⟨original, found, same⟩
  rw [← same]
  exact inUnit_toFloat (checked.2 original found)

/-- The derivation as it is read back: its confidence is a float. -/
def decoded (derivation : Derivation) : Derivation :=
  ⟨derivation.decodedFields, derivation.decodedFields_checked⟩

omit [Runtime] in
theorem decoded_equal (derivation : Derivation) :
    pyEq derivation.decoded derivation = true := by
  have inUnit : ∀ confidence ∈ derivation.confidence, InUnit confidence := by
    have checked := derivation.checked
    simp only [DerivationFields.check, bind_ok_iff, require_ok_iff, decide_eq_true_eq,
      Unique.exists_iff] at checked
    exact checked.2
  have same : derivation.decoded.confidence.map PyNumber.value =
      derivation.confidence.map PyNumber.value := by
    change (derivation.confidence.map _).map PyNumber.value = _
    rw [Option.map_map]
    apply Option.map_congr
    intro confidence given
    exact PyNumber.toFloat_value confidence (inUnit confidence given).1 (inUnit confidence given).2
  rw [pyEq_iff]
  simp only [PyEq.key, same]
  rfl

omit [Runtime] in
@[simp] theorem decoded_decoded (derivation : Derivation) :
    derivation.decoded.decoded = derivation.decoded := by
  cases derivation with
  | mk fields checked =>
      rw [Derivation.mk.injEq]
      simp [decoded, decodedFields, Function.comp_def]

omit [Runtime] in
theorem create_decoded (derivation : Derivation) :
    create derivation.decodedFields = .ok derivation.decoded := by
  unfold create
  split
  · rfl
  · rename_i failed
    rw [derivation.decodedFields_checked] at failed
    cases failed

theorem fromDict_toDict (derivation : Derivation) :
    fromDict derivation.toDict = .ok derivation.decoded := by
  have inputs : stringItems (getOrNull derivation.toDict "input_claim_ids")
      "Derivation.input_claim_ids must be a list of strings." = .ok derivation.inputClaimIds :=
    stringItems_of_get ((get_objectOf _ _).trans rfl)
  have outputs : stringItems (getOrNull derivation.toDict "output_claim_ids")
      "Derivation.output_claim_ids must be a list of strings." = .ok derivation.outputClaimIds :=
    stringItems_of_get ((get_objectOf _ _).trans rfl)
  have metadata : mappingOrEmpty derivation.toDict "metadata"
      "Derivation.metadata must be a mapping." = .ok derivation.metadata :=
    mappingOrEmpty_of_get ((get_objectOf _ _).trans rfl)
  have derivationId : requiredString derivation.toDict "derivation_id" =
      .ok derivation.derivationId := requiredString_of_get ((get_objectOf _ _).trans rfl)
  have ruleId : requiredString derivation.toDict "rule_id" = .ok derivation.ruleId :=
    requiredString_of_get ((get_objectOf _ _).trans rfl)
  have engine : requiredString derivation.toDict "engine" = .ok derivation.engine :=
    requiredString_of_get ((get_objectOf _ _).trans rfl)
  have explanation : requiredString derivation.toDict "explanation" =
      .ok derivation.explanation := requiredString_of_get ((get_objectOf _ _).trans rfl)
  have timestamp : requiredString derivation.toDict "timestamp" = .ok derivation.timestamp :=
    requiredString_of_get ((get_objectOf _ _).trans rfl)
  have confidence : readConfidence derivation.toDict =
      .ok (derivation.confidence.map fun confidence => .float confidence.toFloat) := by
    have found : derivation.toDict["confidence"]? =
        some ((derivation.confidence.map JsonValue.number).getD .null) :=
      (get_objectOf _ _).trans rfl
    unfold readConfidence getOrNull
    rw [found]
    cases derivation.confidence <;> rfl
  rw [fromDict, bind_of_ok inputs, bind_of_ok outputs, bind_of_ok metadata,
    bind_of_ok derivationId, bind_of_ok ruleId, bind_of_ok engine, bind_of_ok explanation,
    bind_of_ok timestamp, bind_of_ok confidence]
  exact derivation.create_decoded

end Derivation

/-! ## Operations -/

namespace Op

/-- The operation as it is read back. -/
def decoded : Op → Op
  | claimAdded header claim => claimAdded header claim.decoded
  | derivationAdded header derivation => derivationAdded header derivation.decoded
  | op => op

@[simp] theorem decoded_decoded (op : Op) : op.decoded.decoded = op.decoded := by
  cases op <;> simp [decoded]

/-- Reading back keeps the operation up to equality. -/
theorem decoded_equal (op : Op) : pyEq op.decoded op = true := by
  cases op with
  | claimAdded header claim =>
      have same := pyEq_iff.mp claim.decoded_equal
      exact pyEq_iff.mpr (Prod.ext rfl (congrArg PayloadKey.claim same))
  | derivationAdded header derivation =>
      have same := pyEq_iff.mp derivation.decoded_equal
      exact pyEq_iff.mpr (Prod.ext rfl (congrArg PayloadKey.derivation same))
  | _ => exact pyEq_refl _

omit [Runtime] in
private theorem headerFromDict_of_get {payload : JSONObject} {header : OpHeader}
    (opId : payload["op_id"]? = some (.str header.opId))
    (replicaId : payload["replica_id"]? = some (.str header.replicaId))
    (timestamp : payload["timestamp"]? = some (.str header.timestamp)) :
    headerFromDict payload = .ok header := by
  rw [headerFromDict, bind_of_ok (requiredString_of_get opId),
    bind_of_ok (requiredString_of_get replicaId), bind_of_ok (requiredString_of_get timestamp)]
  rfl

/-- One of the classes that carry a single record. -/
private theorem recordFromDict_of_get {α : Type} {key : String} {read : JSONObject → Result α}
    {make : OpHeader → α → Op} {payload members : JSONObject} {header : OpHeader} {record : α}
    (found : headerFromDict payload = .ok header)
    (carried : payload[key]? = some (.obj members)) (decodes : read members = .ok record) :
    recordFromDict key read make payload = .ok (make header record) := by
  have mapping : mappingValue payload key = .ok members := by
    simp [mappingValue, getOrNull, carried]
  rw [recordFromDict, bind_of_ok found, bind_of_ok mapping, bind_of_ok decodes]
  rfl

private theorem fromDict_of_get {payload : JSONObject} {opType : String}
    {read : JSONObject → Result Op} (typed : payload["op_type"]? = some (.str opType))
    (known : fromDictOf opType = some read) : fromDict payload = read payload := by
  simp [fromDict, getOrNull, typed, known]

private theorem header_toDict (op : Op) : headerFromDict op.toDict = .ok op.header := by
  cases op <;>
    exact headerFromDict_of_get ((get_objectOf _ _).trans rfl) ((get_objectOf _ _).trans rfl)
      ((get_objectOf _ _).trans rfl)

theorem retraction_fromDict (retraction : ClaimRetracted) :
    ClaimRetracted.fromDict (claimRetracted retraction).toDict = .ok retraction := by
  have header := header_toDict (claimRetracted retraction)
  have targetId : optionalString (claimRetracted retraction).toDict "target_claim_id" =
      .ok retraction.targetClaimId := optionalString_of_get ((get_objectOf _ _).trans rfl)
  have targetRef : optionalString (claimRetracted retraction).toDict "target_claim_ref" =
      .ok retraction.targetClaimRef := optionalString_of_get ((get_objectOf _ _).trans rfl)
  have evidenceIds : listOfStr (claimRetracted retraction).toDict "evidence_ids" =
      .ok retraction.evidenceIds := listOfStr_of_get ((get_objectOf _ _).trans rfl)
  have reason : requiredString (claimRetracted retraction).toDict "reason" =
      .ok retraction.reason := requiredString_of_get ((get_objectOf _ _).trans rfl)
  have supersedesId : optionalString (claimRetracted retraction).toDict "supersedes_claim_id" =
      .ok retraction.supersedesClaimId := optionalString_of_get ((get_objectOf _ _).trans rfl)
  have supersedesRef : optionalString (claimRetracted retraction).toDict "supersedes_claim_ref" =
      .ok retraction.supersedesClaimRef := optionalString_of_get ((get_objectOf _ _).trans rfl)
  have signingKeyId : optionalString (claimRetracted retraction).toDict "signing_key_id" =
      .ok retraction.signingKeyId := optionalString_of_get ((get_objectOf _ _).trans rfl)
  have signature : optionalString (claimRetracted retraction).toDict "signature" =
      .ok retraction.signature := optionalString_of_get ((get_objectOf _ _).trans rfl)
  rw [ClaimRetracted.fromDict, bind_of_ok header, bind_of_ok targetId, bind_of_ok targetRef,
    bind_of_ok evidenceIds, bind_of_ok reason, bind_of_ok supersedesId,
    bind_of_ok supersedesRef, bind_of_ok signingKeyId, bind_of_ok signature]
  exact retraction.create_self

/-- Every operation is read back from its dictionary. -/
theorem fromDict_toDict (op : Op) : fromDict op.toDict = .ok op.decoded := by
  have header := header_toDict op
  have typed : op.toDict["op_type"]? = some (.str op.opType) := by
    cases op <;> exact (get_objectOf _ _).trans rfl
  cases op with
  | sourceAdded _ source =>
      rw [fromDict_of_get typed rfl]
      exact recordFromDict_of_get header ((get_objectOf _ _).trans rfl) source.fromDict_toDict
  | evidenceAdded _ evidence =>
      rw [fromDict_of_get typed rfl]
      exact recordFromDict_of_get header ((get_objectOf _ _).trans rfl) evidence.fromDict_toDict
  | claimAdded _ claim =>
      rw [fromDict_of_get typed rfl]
      exact recordFromDict_of_get header ((get_objectOf _ _).trans rfl) claim.fromDict_toDict
  | claimRetracted retraction =>
      rw [fromDict_of_get typed rfl, retraction_fromDict]
      rfl
  | decisionAdded _ decision =>
      rw [fromDict_of_get typed rfl]
      exact recordFromDict_of_get header ((get_objectOf _ _).trans rfl) decision.fromDict_toDict
  | derivationAdded _ derivation =>
      rw [fromDict_of_get typed rfl]
      exact recordFromDict_of_get header ((get_objectOf _ _).trans rfl)
        derivation.fromDict_toDict
  | resolutionAdded _ resolution =>
      rw [fromDict_of_get typed rfl]
      exact recordFromDict_of_get header ((get_objectOf _ _).trans rfl)
        resolution.fromDict_toDict
  | conflictLifecycleEventAdded _ event =>
      rw [fromDict_of_get typed rfl]
      exact recordFromDict_of_get header ((get_objectOf _ _).trans rfl) event.fromDict_toDict

/-- Every operation is read back from its text. -/
theorem fromJson_toJson (op : Op) : fromJson op.toJson = .ok op.decoded := by
  rw [fromJson, toJson, bind_of_ok (canonicalJsonLoads_dumps _)]
  simp only [JsonValue.asObj_obj]
  exact op.fromDict_toDict

/-- What is read back from the text or from the dictionary equals the operation. -/
theorem round_trip (op : Op) :
    (∃ read, fromJson op.toJson = .ok read ∧ pyEq read op = true) ∧
      ∃ read, fromDict op.toDict = .ok read ∧ pyEq read op = true :=
  ⟨⟨op.decoded, op.fromJson_toJson, op.decoded_equal⟩,
    op.decoded, op.fromDict_toDict, op.decoded_equal⟩

end Op

end Records

end Statefuse
