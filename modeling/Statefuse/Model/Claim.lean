import Statefuse.Utils

/-!
# Claims and what they rest on

The immutable records that operations carry.  A record's constructor checks its
fields, so a record that exists satisfies what the constructor checks: these facts
are fields of the structure here, and `create` is the constructor, with the
messages of the source.

Each record has `toDict` and `fromDict`.  `fromDict` reads confidences as floats,
so a record built with an integer confidence comes back with a float one that is
equal to it.
-/

namespace Statefuse

open Foundation

set_option synthInstance.maxSize 1024

/-- A string that must be there. -/
def requiredString (value : JSONObject) (key : String) : Result String :=
  match (getOrNull value key).asStr? with
  | some item => .ok item
  | none => valueError (key ++ " must be a string.")

/-- A string that may be missing or `null`. -/
def optionalString (value : JSONObject) (key : String) : Result (Option String) :=
  let item := getOrNull value key
  if item.isNull then .ok none
  else
    match item.asStr? with
    | some item => .ok (some item)
    | none => valueError (key ++ " must be a string or null.")

/-- A dictionary that defaults to the empty one. -/
def mappingOrEmpty (value : JSONObject) (key message : String) : Result JSONObject :=
  match value[key]? with
  | none => .ok ∅
  | some item =>
      match item.asObj? with
      | some members => .ok members
      | none => valueError message

/-- A list of strings, without a default. -/
def stringItems (value : JSONValue) (message : String) : Result (List String) :=
  match value.asArr? with
  | none => valueError message
  | some items =>
      match items.mapM JsonValue.asStr? with
      | some texts => .ok texts
      | none => valueError message

structure ClaimKey where
  nameSpace : String
  subject : String
  predicate : String
  deriving DecidableEq

namespace ClaimKey

/-- Keys are ordered as tuples of their fields. -/
def tuple (key : ClaimKey) : String ×ₗ String ×ₗ String :=
  toLex (key.nameSpace, toLex (key.subject, key.predicate))

theorem tuple_injective : Function.Injective tuple := by
  intro first second same
  cases first
  cases second
  simpa [tuple] using same

instance : LinearOrder ClaimKey := LinearOrder.lift' tuple tuple_injective

def toDict (key : ClaimKey) : JSONObject :=
  objectOf [("namespace", .str key.nameSpace), ("subject", .str key.subject),
    ("predicate", .str key.predicate)]

def fromDict [Runtime] (value : JSONObject) : Result ClaimKey := do
  let nameSpace ← getItem value "namespace"
  let subject ← getItem value "subject"
  let predicate ← getItem value "predicate"
  return ⟨pyStr nameSpace, pyStr subject, pyStr predicate⟩

end ClaimKey

structure Source where
  sourceId : String
  sourceType : String
  uri : Option String
  system : Option String
  actorId : Option String
  sessionId : Option String
  messageId : Option String
  timestamp : Option String
  metadata : JSONObject
  sourceIdPresent : sourceId ≠ ""
  sourceTypePresent : sourceType ≠ ""
  deriving DecidableEq

namespace Source

instance : PyEq Source where
  Key := (String × String × Option String × Option String) ×
    (Option String × Option String × Option String × Option String) × Json ℚ
  decidableKey := inferInstance
  key source := ((source.sourceId, source.sourceType, source.uri, source.system),
    (source.actorId, source.sessionId, source.messageId, source.timestamp),
    PyEq.key source.metadata)

def create (sourceId sourceType : String)
    (uri system actorId sessionId messageId timestamp : Option String)
    (metadata : JSONObject) : Result Source :=
  if sourceIdAbsent : sourceId = "" then valueError "Source.source_id must be present."
  else if sourceTypeAbsent : sourceType = "" then
    valueError "Source.source_type must be present."
  else .ok ⟨sourceId, sourceType, uri, system, actorId, sessionId, messageId, timestamp, metadata,
    sourceIdAbsent, sourceTypeAbsent⟩

def toDict (source : Source) : JSONObject :=
  objectOf [("source_id", .str source.sourceId), ("source_type", .str source.sourceType),
    ("uri", optionalStr source.uri), ("system", optionalStr source.system),
    ("actor_id", optionalStr source.actorId), ("session_id", optionalStr source.sessionId),
    ("message_id", optionalStr source.messageId), ("timestamp", optionalStr source.timestamp),
    ("metadata", .obj source.metadata)]

def fromDict (value : JSONObject) : Result Source := do
  let metadata ← mappingOrEmpty value "metadata" "Source.metadata must be a mapping."
  let sourceId ← requiredString value "source_id"
  let sourceType ← requiredString value "source_type"
  let uri ← optionalString value "uri"
  let system ← optionalString value "system"
  let actorId ← optionalString value "actor_id"
  let sessionId ← optionalString value "session_id"
  let messageId ← optionalString value "message_id"
  let timestamp ← optionalString value "timestamp"
  create sourceId sourceType uri system actorId sessionId messageId timestamp metadata

end Source

structure Evidence where
  evidenceId : String
  pointer : Option String
  metadata : JSONObject
  sourceId : Option String
  contentDigest : Option String
  deriving DecidableEq

namespace Evidence

instance : PyEq Evidence where
  Key := String × Option String × Json ℚ × Option String × Option String
  decidableKey := inferInstance
  key evidence := (evidence.evidenceId, evidence.pointer, PyEq.key evidence.metadata,
    evidence.sourceId, evidence.contentDigest)

def toDict (evidence : Evidence) : JSONObject :=
  withField (withField
    (objectOf [("evidence_id", .str evidence.evidenceId),
      ("pointer", optionalStr evidence.pointer), ("metadata", .obj evidence.metadata)])
    "source_id" (evidence.sourceId.map .str)) "content_digest" (evidence.contentDigest.map .str)

def fromDict [Runtime] (value : JSONObject) : Result Evidence := do
  let metadata ← mappingOrEmpty value "metadata" "Evidence.metadata must be a mapping."
  let evidenceId ← getItem value "evidence_id"
  let pointer := getOrNull value "pointer"
  let sourceId ← optionalString value "source_id"
  let contentDigest ← optionalString value "content_digest"
  return ⟨pyStr evidenceId, if pointer.isNull then none else some (pyStr pointer), metadata,
    sourceId, contentDigest⟩

end Evidence

/-! ## Validity intervals -/

section Validity

variable [Runtime]

/-- The check of the interval's constructor: the bounds are only read when both
are there, so a single bound need not be a timestamp. -/
def IntervalOrdered (validFrom validUntil : Option String) : Prop :=
  ∀ start ∈ validFrom, ∀ stop ∈ validUntil,
    ∃ first ∈ (parseUtcIso start).toOption, ∃ last ∈ (parseUtcIso stop).toOption, first ≤ last

structure ValidityInterval where
  validFrom : Option String
  validUntil : Option String
  ordered : IntervalOrdered validFrom validUntil

namespace ValidityInterval

theorem ext_iff {first second : ValidityInterval} :
    first = second ↔ first.validFrom = second.validFrom ∧ first.validUntil = second.validUntil := by
  constructor
  · rintro rfl
    exact ⟨rfl, rfl⟩
  · rintro ⟨starts, stops⟩
    cases first
    cases second
    cases starts
    cases stops
    rfl

instance : DecidableEq ValidityInterval := fun _ _ => decidable_of_iff _ ext_iff.symm

instance : PyEq ValidityInterval where
  Key := Option String × Option String
  decidableKey := inferInstance
  key interval := (interval.validFrom, interval.validUntil)

/-- Reading both bounds, as the constructor does. -/
def checkOrder (validFrom validUntil : Option String) : Result Unit :=
  match validFrom, validUntil with
  | some start, some stop => do
      let first ← parseUtcIso start
      let last ← parseUtcIso stop
      if last < first then
        valueError "ValidityInterval.valid_from must not be after valid_until."
      else .ok ()
  | _, _ => .ok ()

theorem checkOrder_ok_iff {validFrom validUntil : Option String} :
    checkOrder validFrom validUntil = .ok () ↔ IntervalOrdered validFrom validUntil := by
  unfold checkOrder IntervalOrdered
  cases validFrom with
  | none => simp
  | some start =>
      cases validUntil with
      | none => simp
      | some stop =>
          cases first : parseUtcIso start with
          | error failure => simp [Bind.bind, Except.bind, Except.toOption, first]
          | ok first' =>
              cases last : parseUtcIso stop with
              | error failure => simp [Bind.bind, Except.bind, Except.toOption, first, last]
              | ok last' =>
                  simp [Bind.bind, Except.bind, Except.toOption, first, last, valueError]

def create (validFrom validUntil : Option String) : Result ValidityInterval :=
  match checked : checkOrder validFrom validUntil with
  | .ok () => .ok ⟨validFrom, validUntil, checkOrder_ok_iff.mp checked⟩
  | .error failure => .error failure

theorem create_self (interval : ValidityInterval) :
    create interval.validFrom interval.validUntil = .ok interval := by
  have checked := checkOrder_ok_iff.mpr interval.ordered
  unfold create
  split
  · rfl
  · rename_i failed
    rw [checked] at failed
    cases failed

def toDict (interval : ValidityInterval) : JSONObject :=
  objectOf [("valid_from", optionalStr interval.validFrom),
    ("valid_until", optionalStr interval.validUntil)]

def fromDict (value : JSONObject) : Result ValidityInterval := do
  let validFrom ← optionalString value "valid_from"
  let validUntil ← optionalString value "valid_until"
  create validFrom validUntil

end ValidityInterval

end Validity

/-! ## Claims -/

section Claims

variable [Runtime]

/-- The content by which a claim is recognised: its key, its value, and its kind
and context when they are not the default ones. -/
def claimRefPayload (key : ClaimKey) (value : JSONValue) (kind : String)
    (context : JSONObject) : JSONObject :=
  withField (withField (objectOf [("key", .obj key.toDict), ("value", value)])
    "kind" (if kind ≠ "fact" then some (.str kind) else none))
    "context" (if context = ∅ then none else some (.obj context))

def claimRefFromPayload (payload : JSONObject) : String :=
  "sha256:" ++ digestJsonValue (.obj payload)

def deriveClaimRef (key : ClaimKey) (value : JSONValue) (kind : String)
    (context : JSONObject) : String :=
  claimRefFromPayload (claimRefPayload key value kind context)

theorem claimRefFromPayload_ne_empty (payload : JSONObject) :
    claimRefFromPayload payload ≠ "" := by
  intro empty
  have lengths := congrArg String.length empty
  simp [claimRefFromPayload, String.length_append] at lengths

/-- A number between zero and one. -/
def InUnit (number : PyNumber) : Prop := 0 ≤ number.value ∧ number.value ≤ 1

instance : DecidablePred InUnit :=
  fun number => inferInstanceAs (Decidable (0 ≤ number.value ∧ number.value ≤ 1))

structure Claim where
  claimId : String
  key : ClaimKey
  value : JSONValue
  confidence : PyNumber
  timestamp : String
  claimRef : String
  evidenceIds : List String
  provenance : JSONObject
  validity : Option ValidityInterval
  derivationId : Option String
  kind : String
  context : JSONObject
  confidenceInUnit : InUnit confidence
  kindPresent : kind ≠ ""
  contextKeysPresent : context[""]? = none
  claimRefPresent : claimRef ≠ ""
  deriving DecidableEq

namespace Claim

instance : PyEq Claim where
  Key := (String × ClaimKey × Json ℚ × ℚ) × (String × String × List String × Json ℚ) ×
    (Option (Option String × Option String) × Option String × String × Json ℚ)
  decidableKey := inferInstance
  key claim :=
    ((claim.claimId, claim.key, PyEq.key claim.value, claim.confidence.value),
      (claim.timestamp, claim.claimRef, claim.evidenceIds, PyEq.key claim.provenance),
      (claim.validity.map PyEq.key, claim.derivationId, claim.kind, PyEq.key claim.context))

/-- The constructor.  An empty claim reference is derived from the content. -/
def create (claimId : String) (key : ClaimKey) (value : JSONValue) (confidence : PyNumber)
    (timestamp claimRef : String) (evidenceIds : List String) (provenance : JSONObject)
    (validity : Option ValidityInterval) (derivationId : Option String) (kind : String)
    (context : JSONObject) : Result Claim :=
  if confidenceInUnit : InUnit confidence then
    if kindAbsent : kind = "" then valueError "Claim.kind must be a non-empty string."
    else if contextKeys : context[""]? = none then
      if claimRefAbsent : claimRef = "" then
        .ok ⟨claimId, key, value, confidence, timestamp, deriveClaimRef key value kind context,
          evidenceIds, provenance, validity, derivationId, kind, context, confidenceInUnit,
          kindAbsent, contextKeys, claimRefFromPayload_ne_empty _⟩
      else
        .ok ⟨claimId, key, value, confidence, timestamp, claimRef, evidenceIds, provenance,
          validity, derivationId, kind, context, confidenceInUnit, kindAbsent, contextKeys,
          claimRefAbsent⟩
    else valueError "Claim.context must be a mapping with non-empty string keys."
  else valueError "Claim.confidence must be between 0 and 1."

def toDict (claim : Claim) : JSONObject :=
  withField (withField (withField (withField
    (objectOf [("claim_id", .str claim.claimId), ("claim_ref", .str claim.claimRef),
      ("key", .obj claim.key.toDict), ("value", claim.value),
      ("confidence", .number claim.confidence), ("timestamp", .str claim.timestamp),
      ("evidence_ids", strList claim.evidenceIds), ("provenance", .obj claim.provenance)])
    "validity" (claim.validity.map fun interval => .obj interval.toDict))
    "derivation_id" (claim.derivationId.map .str))
    "kind" (if claim.kind ≠ "fact" then some (.str claim.kind) else none))
    "context" (if claim.context = ∅ then none else some (.obj claim.context))

/-- `value.get("evidence_ids", [])`, each item through `str`. -/
def readEvidenceIds (value : JSONObject) : Result (List String) :=
  match value["evidence_ids"]? with
  | none => .ok []
  | some item =>
      match item.asArr? with
      | none => valueError "Claim.evidence_ids must be a list."
      | some items => .ok (items.map pyStr)

def readValidity (value : JSONObject) : Result (Option ValidityInterval) :=
  let item := getOrNull value "validity"
  if item.isNull then .ok none
  else
    match item.asObj? with
    | none => valueError "Claim.validity must be an object or null."
    | some members => (ValidityInterval.fromDict members).map some

/-- `kind=value.get("kind", "fact")`; the constructor refuses what is not a string. -/
def readKind (value : JSONObject) : Result String :=
  match value["kind"]? with
  | none => .ok "fact"
  | some item =>
      match item.asStr? with
      | some kind => .ok kind
      | none => valueError "Claim.kind must be a non-empty string."

def fromDict (value : JSONObject) : Result Claim := do
  let evidenceIds ← readEvidenceIds value
  let provenance ← mappingOrEmpty value "provenance" "Claim.provenance must be a mapping."
  let context ← mappingOrEmpty value "context" "Claim.context must be a mapping."
  let claimId ← getItem value "claim_id"
  let claimRef := (value["claim_ref"]?.map pyStr).getD ""
  let keyItem ← getItem value "key"
  let key ← match keyItem.asObj? with
    | some members => ClaimKey.fromDict members
    | none => .error (.typeError "the key must be an object")
  let item ← getItem value "value"
  let confidenceItem ← getItem value "confidence"
  let confidence ← pyFloat confidenceItem
  let timestamp ← getItem value "timestamp"
  let validity ← readValidity value
  let derivationId ← optionalString value "derivation_id"
  let kind ← readKind value
  create (pyStr claimId) key item (.float confidence) (pyStr timestamp) claimRef evidenceIds
    provenance validity derivationId kind context

end Claim

end Claims

end Statefuse
