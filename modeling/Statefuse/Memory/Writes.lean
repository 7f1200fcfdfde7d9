import Statefuse.Auth
import Statefuse.Codec
import Statefuse.Materialize.Acceptance

/-!
# Writing to a memory

Each call of the write API builds a record, derives an id for it, and appends one operation to
the log.  Sources get the digest of all their fields as an id, and evidence the digest of some of
its own; the other records get a new UUID.  A log that is written this way can be materialized
exactly when no two pieces of evidence share an id (`writes_materialize_iff`).
-/

namespace Statefuse

open Foundation

section Theory

variable [Runtime]

inductive OpIdMode where
  | uuid4
  | contentAddressed
  deriving DecidableEq

/-- What the writers read of a `Memory`. -/
structure Writer where
  replicaId : String
  opIdMode : OpIdMode
  predicateRegistry : PredicateRegistry

/-- What `utc_now_iso` and `new_uuid` answer during one call. -/
structure Occasion where
  now : String
  recordUuid : String
  opUuid : String

def contentAddressedOpId (opType replicaId timestamp : String) (payload : JSONValue) : String :=
  "sha256:" ++ digestJsonValue (.obj (objectOf [("op_type", .str opType),
    ("replica_id", .str replicaId), ("timestamp", .str timestamp), ("payload", payload)]))

def Writer.newOpId (writer : Writer) (occasion : Occasion) (opType : String)
    (payload : JSONObject) : String :=
  match writer.opIdMode with
  | .uuid4 => occasion.opUuid
  | .contentAddressed =>
      contentAddressedOpId opType writer.replicaId occasion.now (.obj payload)

/-- The header of the operation that a call appends. -/
def Writer.header (writer : Writer) (occasion : Occasion) (opId : Option String) (opType : String)
    (payload : JSONObject) : OpHeader :=
  ⟨(truthy opId).getD (writer.newOpId occasion opType payload), writer.replicaId, occasion.now⟩

structure SourceArguments where
  sourceType : String
  uri : Option String
  system : Option String
  actorId : Option String
  sessionId : Option String
  messageId : Option String
  timestamp : Option String
  metadata : Option JSONObject
  sourceId : Option String
  opId : Option String

/-- All fields of a source except its id. -/
def sourceBody (sourceType : String) (uri system actorId sessionId messageId timestamp :
    Option String) (metadata : JSONObject) : JSONObject :=
  objectOf [("source_type", .str sourceType), ("uri", optionalStr uri),
    ("system", optionalStr system), ("actor_id", optionalStr actorId),
    ("session_id", optionalStr sessionId), ("message_id", optionalStr messageId),
    ("timestamp", optionalStr timestamp), ("metadata", .obj metadata)]

def Writer.addSource (writer : Writer) (occasion : Occasion) (arguments : SourceArguments) :
    Result Op := do
  let metadata := arguments.metadata.getD ∅
  let body := sourceBody arguments.sourceType arguments.uri arguments.system arguments.actorId
    arguments.sessionId arguments.messageId arguments.timestamp metadata
  let source ← Source.create
    ((truthy arguments.sourceId).getD ("sha256:" ++ digestJsonValue (.obj body)))
    arguments.sourceType arguments.uri arguments.system arguments.actorId arguments.sessionId
    arguments.messageId arguments.timestamp metadata
  return .sourceAdded (writer.header occasion arguments.opId "SourceAdded"
    (objectOf [("source", .obj source.toDict)])) source

/-- The content of evidence; `null` is no content. -/
inductive Content where
  | bytes (payload : ByteArray)
  | value (item : JSONValue)

/-- The bytes that `digest_content` hashes. -/
def contentBytes : Content → ByteArray
  | .bytes payload => payload
  | .value item => (item.asStr?.getD (canonicalJsonDumps item)).toByteArray

def digestContent (content : Content) : String := sha256Hexdigest (contentBytes content)

def Content.isGiven : Content → Bool
  | .bytes _ => true
  | .value item => !item.isNull

structure EvidenceArguments where
  pointer : Option String
  content : Content
  metadata : Option JSONObject
  sourceId : Option String
  contentDigest : Option String
  evidenceId : Option String
  opId : Option String

/-- The digest of the content: the given one, or else that of the given content. -/
def identityDigest (arguments : EvidenceArguments) : Option String :=
  match arguments.contentDigest with
  | some digest => some digest
  | none =>
      if arguments.content.isGiven then some ("sha256:" ++ digestContent arguments.content)
      else none

/-- The bytes whose digest becomes the id of evidence. -/
def evidenceIdentity (arguments : EvidenceArguments) : ByteArray :=
  if arguments.sourceId = none ∧ arguments.contentDigest = none then
    if arguments.content.isGiven then contentBytes arguments.content
    else (canonicalJsonDumps
      (.obj (objectOf [("pointer", optionalStr arguments.pointer)]))).toByteArray
  else (canonicalJsonDumps (.obj (objectOf [("pointer", optionalStr arguments.pointer),
    ("source_id", optionalStr arguments.sourceId),
    ("content_digest", optionalStr (identityDigest arguments))]))).toByteArray

/-- The evidence that a call records. -/
def EvidenceArguments.record (arguments : EvidenceArguments) : Evidence where
  evidenceId := arguments.evidenceId.getD
    ("sha256:" ++ sha256Hexdigest (evidenceIdentity arguments))
  pointer := arguments.pointer
  metadata := arguments.metadata.getD ∅
  sourceId := arguments.sourceId
  contentDigest := arguments.contentDigest

def Writer.addEvidence (writer : Writer) (occasion : Occasion) (arguments : EvidenceArguments) :
    Result Op :=
  .ok (.evidenceAdded (writer.header occasion arguments.opId "EvidenceAdded"
    (objectOf [("evidence", .obj arguments.record.toDict)])) arguments.record)

structure ClaimArguments where
  key : ClaimKey
  value : JSONValue
  confidence : PyNumber
  evidenceIds : List String
  provenance : Option JSONObject
  claimId : Option String
  claimRef : Option String
  opId : Option String
  signingKey : Option String
  signingKeyId : Option String
  validity : Option ValidityInterval
  derivationId : Option String
  kind : String
  context : Option JSONObject

/-- A key and its id are given together. -/
def checkSigning (signingKey signingKeyId : Option String) : Result Unit :=
  require (signingKey.isNone = signingKeyId.isNone)
    "signing_key and signing_key_id must be provided together."

/-- `provenance.setdefault("replica_id", replica_id)`. -/
def withReplicaId (provenance : JSONObject) (replicaId : String) : JSONObject :=
  if "replica_id" ∈ provenance then provenance
  else provenance.insert "replica_id" (.str replicaId)

variable [Hmac]

/-- The claim, signed when there is a key to sign it with. -/
def signedClaim (claim : Claim) (signingKey signingKeyId : Option String) : Claim :=
  match signingKey, signingKeyId with
  | some secret, some keyId => signClaim claim secret keyId
  | _, _ => claim

def Writer.addClaim (writer : Writer) (occasion : Occasion) (arguments : ClaimArguments) :
    Result Op := do
  checkSigning arguments.signingKey arguments.signingKeyId
  let context := arguments.context.getD ∅
  let unsigned ← Claim.create ((truthy arguments.claimId).getD occasion.recordUuid) arguments.key
    arguments.value arguments.confidence occasion.now
    ((truthy arguments.claimRef).getD (deriveClaimRef arguments.key
      (writer.predicateRegistry.claimRefValue arguments.key.predicate arguments.value)
      arguments.kind context))
    arguments.evidenceIds (withReplicaId (arguments.provenance.getD ∅) writer.replicaId)
    arguments.validity arguments.derivationId arguments.kind context
  let claim := signedClaim unsigned arguments.signingKey arguments.signingKeyId
  return .claimAdded (writer.header occasion arguments.opId "ClaimAdded"
    (objectOf [("claim", .obj claim.toDict)])) claim

structure RetractionArguments where
  targetClaimId : Option String
  targetClaimRef : Option String
  evidenceIds : List String
  reason : String
  supersedesClaimId : Option String
  supersedesClaimRef : Option String
  opId : Option String
  signingKey : Option String
  signingKeyId : Option String

def signedRetraction (retraction : ClaimRetracted) (signingKey signingKeyId : Option String) :
    ClaimRetracted :=
  match signingKey, signingKeyId with
  | some secret, some keyId => signRetraction retraction secret keyId
  | _, _ => retraction

/-- What the id of a retraction depends on. -/
def retractionPayload (arguments : RetractionArguments) : JSONObject :=
  objectOf [("target_claim_id", optionalStr arguments.targetClaimId),
    ("target_claim_ref", optionalStr arguments.targetClaimRef),
    ("evidence_ids", strList arguments.evidenceIds), ("reason", .str arguments.reason),
    ("supersedes_claim_id", optionalStr arguments.supersedesClaimId),
    ("supersedes_claim_ref", optionalStr arguments.supersedesClaimRef)]

def Writer.retractClaim (writer : Writer) (occasion : Occasion)
    (arguments : RetractionArguments) : Result Op := do
  require (arguments.targetClaimId ≠ none ∨ arguments.targetClaimRef ≠ none)
    "retract_claim requires target_claim_id or target_claim_ref."
  checkSigning arguments.signingKey arguments.signingKeyId
  let unsigned ← ClaimRetracted.create
    ⟨writer.header occasion arguments.opId "ClaimRetracted" (retractionPayload arguments),
      arguments.targetClaimId, arguments.targetClaimRef, arguments.evidenceIds, arguments.reason,
      arguments.supersedesClaimId, arguments.supersedesClaimRef, none, none⟩
  return .claimRetracted
    (signedRetraction unsigned arguments.signingKey arguments.signingKeyId)

structure ResolutionArguments where
  conflictRef : String
  observedConflictId : String
  selectedClaimIds : List String
  resolutionType : String
  reason : String
  actorId : String
  rejectedClaimIds : List String
  retainedClaimIds : List String
  evidenceIds : List String
  scope : Option String
  validFrom : Option String
  validUntil : Option String
  metadata : Option JSONObject
  outcome : String
  resolutionId : Option String
  opId : Option String

omit [Hmac] in
def Writer.addResolution (writer : Writer) (occasion : Occasion)
    (arguments : ResolutionArguments) : Result Op := do
  let resolution ← ResolutionRecord.create
    { resolutionId := (truthy arguments.resolutionId).getD occasion.recordUuid
      conflictRef := arguments.conflictRef
      observedConflictId := arguments.observedConflictId
      selectedClaimIds := arguments.selectedClaimIds
      rejectedClaimIds := arguments.rejectedClaimIds
      retainedClaimIds := arguments.retainedClaimIds
      resolutionType := arguments.resolutionType
      reason := arguments.reason
      evidenceIds := arguments.evidenceIds
      actorId := arguments.actorId
      timestamp := occasion.now
      scope := arguments.scope
      validFrom := arguments.validFrom
      validUntil := arguments.validUntil
      metadata := arguments.metadata.getD ∅ } arguments.outcome
  return .resolutionAdded (writer.header occasion arguments.opId "ResolutionAdded"
    (objectOf [("resolution", .obj resolution.toDict)])) resolution

structure DecisionArguments where
  scope : String
  payload : JSONObject
  decisionId : Option String
  opId : Option String

/-- The decision that a call records. -/
def DecisionArguments.record (arguments : DecisionArguments) (occasion : Occasion) : Decision where
  decisionId := (truthy arguments.decisionId).getD occasion.recordUuid
  scope := arguments.scope
  payload := arguments.payload
  timestamp := occasion.now

omit [Hmac] in
def Writer.addDecision (writer : Writer) (occasion : Occasion) (arguments : DecisionArguments) :
    Result Op :=
  .ok (.decisionAdded (writer.header occasion arguments.opId "DecisionAdded"
    (objectOf [("decision", .obj (arguments.record occasion).toDict)]))
    (arguments.record occasion))

structure DerivationArguments where
  ruleId : String
  inputClaimIds : List String
  outputClaimIds : List String
  engine : String
  explanation : String
  confidence : Option PyNumber
  metadata : Option JSONObject
  derivationId : Option String
  opId : Option String

omit [Hmac] in
def Writer.addDerivation (writer : Writer) (occasion : Occasion)
    (arguments : DerivationArguments) : Result Op := do
  let derivation ← Derivation.create
    { derivationId := (truthy arguments.derivationId).getD occasion.recordUuid
      ruleId := arguments.ruleId
      inputClaimIds := arguments.inputClaimIds
      outputClaimIds := arguments.outputClaimIds
      engine := arguments.engine
      explanation := arguments.explanation
      timestamp := occasion.now
      confidence := arguments.confidence
      metadata := arguments.metadata.getD ∅ }
  return .derivationAdded (writer.header occasion arguments.opId "DerivationAdded"
    (objectOf [("derivation", .obj derivation.toDict)])) derivation

inductive WriteCall where
  | addSource (arguments : SourceArguments)
  | addEvidence (arguments : EvidenceArguments)
  | addClaim (arguments : ClaimArguments)
  | retractClaim (arguments : RetractionArguments)
  | addResolution (arguments : ResolutionArguments)
  | addDecision (arguments : DecisionArguments)
  | addDerivation (arguments : DerivationArguments)

/-- The call passes no id, no claim reference and no validity interval. -/
def WriteCall.IsPlain : WriteCall → Prop
  | .addSource arguments => arguments.sourceId = none ∧ arguments.opId = none
  | .addEvidence arguments => arguments.evidenceId = none ∧ arguments.opId = none
  | .addClaim arguments => arguments.claimId = none ∧ arguments.claimRef = none ∧
      arguments.validity = none ∧ arguments.opId = none
  | .retractClaim arguments => arguments.opId = none
  | .addResolution arguments => arguments.resolutionId = none ∧ arguments.opId = none
  | .addDecision arguments => arguments.decisionId = none ∧ arguments.opId = none
  | .addDerivation arguments => arguments.derivationId = none ∧ arguments.opId = none

def Writer.toOp (writer : Writer) (occasion : Occasion) : WriteCall → Result Op
  | .addSource arguments => writer.addSource occasion arguments
  | .addEvidence arguments => writer.addEvidence occasion arguments
  | .addClaim arguments => writer.addClaim occasion arguments
  | .retractClaim arguments => writer.retractClaim occasion arguments
  | .addResolution arguments => writer.addResolution occasion arguments
  | .addDecision arguments => writer.addDecision occasion arguments
  | .addDerivation arguments => writer.addDerivation occasion arguments

/-- A call and the occasion it is made on. -/
structure Write where
  occasion : Occasion
  call : WriteCall

def Writer.perform (writer : Writer) (log : OpLog) (write : Write) : Result OpLog := do
  let op ← writer.toOp write.occasion write.call
  let (log, _) ← log.add op
  return log

/-- A call that raises leaves the log as it was. -/
def Writer.step (writer : Writer) (log : OpLog) (write : Write) : OpLog :=
  match writer.perform log write with
  | .ok next => next
  | .error _ => log

/-- The log of a sequence of calls. -/
def Writer.logOf (writer : Writer) (writes : List Write) : OpLog :=
  writes.foldl writer.step .empty

/-! ## What a call records -/

/-- The fields that the id of a source is the digest of. -/
def Source.body (source : Source) : JSONObject :=
  sourceBody source.sourceType source.uri source.system source.actorId source.sessionId
    source.messageId source.timestamp source.metadata

omit [Runtime] [Hmac] in
/-- A source is determined by its id and its body. -/
theorem Source.eq_of_body {first second : Source} (sameId : first.sourceId = second.sourceId)
    (sameBody : first.body = second.body) : first = second := by
  have whole : ∀ source : Source,
      source.toDict = source.body.insert "source_id" (.str source.sourceId) := by
    intro source
    apply Dict.ext
    intro key
    rw [Dict.get_insert, Source.toDict, Source.body, sourceBody, get_objectOf, get_objectOf]
    by_cases here : "source_id" = key
    · subst here
      simp [List.lookup]
    · have different : (key == "source_id") = false := by simp [Ne.symm here]
      simp [List.lookup, here, different]
  have read := Source.fromDict_toDict first
  rw [whole, sameBody, sameId, ← whole, Source.fromDict_toDict] at read
  injection read with same
  exact same.symm

/-- What an operation carries when it comes from a call without ids. -/
def Op.MadeBy (write : Write) : Op → Prop
  | .sourceAdded _ source =>
      source.sourceId = "sha256:" ++ digestJsonValue (.obj source.body)
  | .evidenceAdded _ evidence =>
      ∃ arguments, write.call = .addEvidence arguments ∧ evidence = arguments.record
  | .claimAdded _ claim => claim.claimId = write.occasion.recordUuid ∧ claim.validity = none
  | .claimRetracted _ => True
  | .decisionAdded _ decision =>
      decision.decisionId = write.occasion.recordUuid ∧ decision.timestamp = write.occasion.now
  | .derivationAdded _ derivation => derivation.derivationId = write.occasion.recordUuid
  | .resolutionAdded _ resolution => resolution.resolutionId = write.occasion.recordUuid
  | .conflictLifecycleEventAdded _ _ => False

/-- An operation has the id that its writer derives for it; evidence is all of its payload. -/
def Op.HasNewId (writer : Writer) (occasion : Occasion) (op : Op) : Prop :=
  ∃ payload, op.opId = writer.newOpId occasion op.opType payload ∧
    ∀ header evidence, op = .evidenceAdded header evidence →
      payload = objectOf [("evidence", .obj evidence.toDict)]

section Calls

variable {writer : Writer} {occasion : Occasion} {op : Op}

omit [Runtime] [Hmac] in
theorem Source.create_ok {sourceId sourceType : String}
    {uri system actorId sessionId messageId timestamp : Option String} {metadata : JSONObject}
    {source : Source}
    (made : Source.create sourceId sourceType uri system actorId sessionId messageId timestamp
      metadata = .ok source) :
    source.sourceId = sourceId ∧
      source.body = sourceBody sourceType uri system actorId sessionId messageId timestamp
        metadata := by
  unfold Source.create at made
  split at made
  · cases made
  · split at made
    · cases made
    · injection made with made
      rw [← made]
      exact ⟨rfl, rfl⟩

omit [Hmac] in
theorem Writer.addSource_ok {arguments : SourceArguments}
    (plain : (WriteCall.addSource arguments).IsPlain)
    (made : writer.addSource occasion arguments = .ok op) :
    op.MadeBy ⟨occasion, .addSource arguments⟩ ∧ op.HasNewId writer occasion := by
  rcases plain with ⟨noSource, noOp⟩
  rw [Writer.addSource, noSource, noOp] at made
  rcases bind_ok_iff.mp made with ⟨source, created, made⟩
  rw [pure_ok_iff] at made
  rw [← made]
  rcases Source.create_ok created with ⟨isId, isBody⟩
  constructor
  · rw [Op.MadeBy, isBody, isId]
    rfl
  · refine ⟨_, rfl, ?_⟩
    intro header evidence impossible
    cases impossible

omit [Hmac] in
theorem Writer.addEvidence_ok {arguments : EvidenceArguments}
    (plain : (WriteCall.addEvidence arguments).IsPlain)
    (made : writer.addEvidence occasion arguments = .ok op) :
    op.MadeBy ⟨occasion, .addEvidence arguments⟩ ∧ op.HasNewId writer occasion := by
  rcases plain with ⟨_, noOp⟩
  rw [Writer.addEvidence, noOp] at made
  injection made with made
  rw [← made]
  constructor
  · exact ⟨arguments, rfl, rfl⟩
  · refine ⟨_, rfl, ?_⟩
    intro header evidence same
    injection same with _ same
    rw [same]

omit [Hmac] in
theorem Claim.create_ok {claimId : String} {key : ClaimKey} {value : JSONValue}
    {confidence : PyNumber} {timestamp claimRef : String} {evidenceIds : List String}
    {provenance : JSONObject} {validity : Option ValidityInterval} {derivationId : Option String}
    {kind : String} {context : JSONObject} {claim : Claim}
    (made : Claim.create claimId key value confidence timestamp claimRef evidenceIds provenance
      validity derivationId kind context = .ok claim) :
    claim.claimId = claimId ∧ claim.validity = validity := by
  unfold Claim.create at made
  split at made
  · split at made
    · cases made
    · split at made
      · split at made <;>
          (injection made with made
           rw [← made]
           exact ⟨rfl, rfl⟩)
      · cases made
  · cases made

theorem signedClaim_kept (claim : Claim) (signingKey signingKeyId : Option String) :
    (signedClaim claim signingKey signingKeyId).claimId = claim.claimId ∧
      (signedClaim claim signingKey signingKeyId).validity = claim.validity := by
  unfold signedClaim
  split
  · exact ⟨rfl, rfl⟩
  · exact ⟨rfl, rfl⟩

theorem Writer.addClaim_ok {arguments : ClaimArguments}
    (plain : (WriteCall.addClaim arguments).IsPlain)
    (made : writer.addClaim occasion arguments = .ok op) :
    op.MadeBy ⟨occasion, .addClaim arguments⟩ ∧ op.HasNewId writer occasion := by
  rcases plain with ⟨noClaim, noRef, noValidity, noOp⟩
  rw [Writer.addClaim, noClaim, noRef, noValidity, noOp] at made
  rcases bind_ok_iff.mp made with ⟨_, _, made⟩
  rcases bind_ok_iff.mp made with ⟨claim, created, made⟩
  rw [pure_ok_iff] at made
  rw [← made]
  rcases Claim.create_ok created with ⟨isId, isValidity⟩
  rcases signedClaim_kept claim arguments.signingKey arguments.signingKeyId with
    ⟨keepsId, keepsValidity⟩
  constructor
  · rw [Op.MadeBy, keepsId, keepsValidity, isId, isValidity]
    exact ⟨rfl, rfl⟩
  · refine ⟨_, rfl, ?_⟩
    intro header evidence impossible
    cases impossible

omit [Runtime] [Hmac] in
theorem ClaimRetracted.create_ok {fields : RetractionFields} {retraction : ClaimRetracted}
    (made : ClaimRetracted.create fields = .ok retraction) :
    retraction.toRetractionFields = fields := by
  unfold ClaimRetracted.create at made
  split at made
  · injection made with made
    rw [← made]
  · cases made

theorem signedRetraction_opId (retraction : ClaimRetracted)
    (signingKey signingKeyId : Option String) :
    (signedRetraction retraction signingKey signingKeyId).opId = retraction.opId := by
  unfold signedRetraction
  split
  · rfl
  · rfl

theorem Writer.retractClaim_ok {arguments : RetractionArguments}
    (plain : (WriteCall.retractClaim arguments).IsPlain)
    (made : writer.retractClaim occasion arguments = .ok op) :
    op.MadeBy ⟨occasion, .retractClaim arguments⟩ ∧ op.HasNewId writer occasion := by
  have noOp : arguments.opId = none := plain
  rw [Writer.retractClaim, noOp] at made
  rcases bind_ok_iff.mp made with ⟨_, _, made⟩
  rcases bind_ok_iff.mp made with ⟨_, _, made⟩
  rcases bind_ok_iff.mp made with ⟨retraction, created, made⟩
  rw [pure_ok_iff] at made
  rw [← made]
  have isFields := ClaimRetracted.create_ok created
  constructor
  · trivial
  · refine ⟨retractionPayload arguments, ?_, ?_⟩
    · have isId := signedRetraction_opId retraction arguments.signingKey arguments.signingKeyId
      exact isId.trans (congrArg (fun fields : RetractionFields => fields.opId) isFields)
    · intro header evidence impossible
      cases impossible

omit [Hmac] in
theorem ResolutionRecord.create_ok {fields : ResolutionFields} {outcomeText : String}
    {resolution : ResolutionRecord}
    (made : ResolutionRecord.create fields outcomeText = .ok resolution) :
    resolution.resolutionId = fields.resolutionId := by
  unfold ResolutionRecord.create at made
  split at made
  · injection made with made
    rw [← made]
    rfl
  · cases made

omit [Hmac] in
theorem Writer.addResolution_ok {arguments : ResolutionArguments}
    (plain : (WriteCall.addResolution arguments).IsPlain)
    (made : writer.addResolution occasion arguments = .ok op) :
    op.MadeBy ⟨occasion, .addResolution arguments⟩ ∧ op.HasNewId writer occasion := by
  rcases plain with ⟨noResolution, noOp⟩
  rw [Writer.addResolution, noResolution, noOp] at made
  rcases bind_ok_iff.mp made with ⟨resolution, created, made⟩
  rw [pure_ok_iff] at made
  rw [← made]
  constructor
  · exact ResolutionRecord.create_ok created
  · refine ⟨_, rfl, ?_⟩
    intro header evidence impossible
    cases impossible

omit [Hmac] in
theorem Writer.addDecision_ok {arguments : DecisionArguments}
    (plain : (WriteCall.addDecision arguments).IsPlain)
    (made : writer.addDecision occasion arguments = .ok op) :
    op.MadeBy ⟨occasion, .addDecision arguments⟩ ∧ op.HasNewId writer occasion := by
  rcases plain with ⟨noDecision, noOp⟩
  rw [Writer.addDecision, noOp] at made
  injection made with made
  rw [← made]
  constructor
  · rw [Op.MadeBy, DecisionArguments.record, noDecision]
    exact ⟨rfl, rfl⟩
  · refine ⟨_, rfl, ?_⟩
    intro header evidence impossible
    cases impossible

omit [Runtime] [Hmac] in
theorem Derivation.create_ok {fields : DerivationFields} {derivation : Derivation}
    (made : Derivation.create fields = .ok derivation) :
    derivation.derivationId = fields.derivationId := by
  unfold Derivation.create at made
  split at made
  · injection made with made
    rw [← made]
  · cases made

omit [Hmac] in
theorem Writer.addDerivation_ok {arguments : DerivationArguments}
    (plain : (WriteCall.addDerivation arguments).IsPlain)
    (made : writer.addDerivation occasion arguments = .ok op) :
    op.MadeBy ⟨occasion, .addDerivation arguments⟩ ∧ op.HasNewId writer occasion := by
  rcases plain with ⟨noDerivation, noOp⟩
  rw [Writer.addDerivation, noDerivation, noOp] at made
  rcases bind_ok_iff.mp made with ⟨derivation, created, made⟩
  rw [pure_ok_iff] at made
  rw [← made]
  constructor
  · exact Derivation.create_ok created
  · refine ⟨_, rfl, ?_⟩
    intro header evidence impossible
    cases impossible

/-- What a call without ids appends. -/
theorem Writer.toOp_ok {call : WriteCall} (plain : call.IsPlain)
    (made : writer.toOp occasion call = .ok op) :
    op.MadeBy ⟨occasion, call⟩ ∧ op.HasNewId writer occasion := by
  cases call with
  | addSource arguments => exact Writer.addSource_ok plain made
  | addEvidence arguments => exact Writer.addEvidence_ok plain made
  | addClaim arguments => exact Writer.addClaim_ok plain made
  | retractClaim arguments => exact Writer.retractClaim_ok plain made
  | addResolution arguments => exact Writer.addResolution_ok plain made
  | addDecision arguments => exact Writer.addDecision_ok plain made
  | addDerivation arguments => exact Writer.addDerivation_ok plain made

end Calls

/-! ## What a sequence of calls records -/

/-- The calls of a sequence get UUIDs of their own. -/
structure FreshUuids (writes : List Write) : Prop where
  records : (writes.map fun write => write.occasion.recordUuid).Nodup
  ops : (writes.map fun write => write.occasion.opUuid).Nodup

section Runs

variable {writer : Writer} {writes : List Write}

omit [Hmac] in
theorem digest_of_id (collisionFree : CollisionFree) {first second : JSONObject}
    (same : "sha256:" ++ digestJsonValue (.obj first) =
      "sha256:" ++ digestJsonValue (.obj second)) : first = second :=
  JsonValue.obj_injective (digestJsonValue_injective collisionFree
    ((String.append_right_inj _).mp same))

/-- An operation that gets the id of a piece of evidence records the same evidence. -/
theorem evidence_of_opId (collisionFree : CollisionFree) (fresh : FreshUuids writes)
    (plain : ∀ write ∈ writes, write.call.IsPlain) {write other : Write} (listed : write ∈ writes)
    (otherListed : other ∈ writes) {header : OpHeader} {evidence : Evidence} {op : Op}
    (made : writer.toOp write.occasion write.call = .ok (.evidenceAdded header evidence))
    (otherMade : writer.toOp other.occasion other.call = .ok op) (same : op.opId = header.opId) :
    ∃ otherHeader, op = .evidenceAdded otherHeader evidence := by
  rcases (Writer.toOp_ok (plain write listed) made).2 with ⟨payload, isId, isPayload⟩
  rcases (Writer.toOp_ok (plain other otherListed) otherMade).2 with
    ⟨otherPayload, otherId, otherIsPayload⟩
  have headerId : header.opId = writer.newOpId write.occasion "EvidenceAdded" payload := isId
  rw [otherId, headerId] at same
  unfold Writer.newOpId at same
  cases mode : writer.opIdMode with
  | uuid4 =>
      rw [mode] at same
      have sameWrite : other = write := List.inj_on_of_nodup_map fresh.ops otherListed listed same
      rw [sameWrite, made] at otherMade
      injection otherMade with otherMade
      exact ⟨header, otherMade.symm⟩
  | contentAddressed =>
      rw [mode] at same
      have sameBody := digest_of_id collisionFree same
      have sameType := congrArg (fun members => (getOrNull members "op_type").asStr?) sameBody
      have samePayload := congrArg (fun members => getOrNull members "payload") sameBody
      simp only [getOrNull, get_objectOf] at sameType samePayload
      simp [List.lookup] at sameType samePayload
      have equal : otherPayload = payload := JsonValue.obj_injective samePayload
      cases op with
      | evidenceAdded otherHeader otherEvidence =>
          rw [isPayload header evidence rfl,
            otherIsPayload otherHeader otherEvidence rfl] at equal
          have sameDict := congrArg (fun members => getOrNull members "evidence") equal
          simp [getOrNull, get_objectOf] at sameDict
          have read := Evidence.fromDict_toDict otherEvidence
          rw [JsonValue.obj_injective sameDict, Evidence.fromDict_toDict] at read
          injection read with read
          rw [read]
          exact ⟨otherHeader, rfl⟩
      | _ => simp [Op.opType] at sameType

/-- The log holds what the calls so far have made, and all of their evidence. -/
structure Writer.Logged (writer : Writer) (done : List Write) (log : OpLog) : Prop where
  made : ∀ op ∈ log.iterOps, ∃ write ∈ done, writer.toOp write.occasion write.call = .ok op
  evidence : ∀ write ∈ done, ∀ header evidence,
    writer.toOp write.occasion write.call = .ok (.evidenceAdded header evidence) →
      ∃ other, .evidenceAdded other evidence ∈ log.iterOps

theorem Writer.Logged.step (collisionFree : CollisionFree) (fresh : FreshUuids writes)
    (plain : ∀ write ∈ writes, write.call.IsPlain) {done : List Write} {log : OpLog}
    (logged : writer.Logged done log) (among : ∀ other ∈ done, other ∈ writes) {write : Write}
    (listed : write ∈ writes) : writer.Logged (done ++ [write]) (writer.step log write) := by
  have keeps : ∀ {next : OpLog}, (∀ op ∈ log.iterOps, op ∈ next.iterOps) →
      (∀ op ∈ next.iterOps, op ∈ log.iterOps ∨
        writer.toOp write.occasion write.call = .ok op) →
      (∀ header evidence,
        writer.toOp write.occasion write.call = .ok (.evidenceAdded header evidence) →
          ∃ other, .evidenceAdded other evidence ∈ next.iterOps) →
      writer.Logged (done ++ [write]) next := by
    intro next more only newest
    constructor
    · intro op present
      rcases only op present with old | isNew
      · rcases logged.made op old with ⟨other, earlier, made⟩
        exact ⟨other, List.mem_append_left _ earlier, made⟩
      · exact ⟨write, by simp, isNew⟩
    · intro other isDone header evidence made
      rcases List.mem_append.mp isDone with earlier | isLast
      · rcases logged.evidence other earlier header evidence made with ⟨held, present⟩
        exact ⟨held, more _ present⟩
      · rw [List.mem_singleton.mp isLast] at made
        exact newest header evidence made
  unfold Writer.step Writer.perform
  cases made : writer.toOp write.occasion write.call with
  | error failure =>
      refine keeps (fun op present => present) (fun op present => Or.inl present) ?_
      intro header evidence impossible
      rw [made] at impossible
      cases impossible
  | ok op =>
      have isEvidence : ∀ header evidence, op = .evidenceAdded header evidence → ∀ existing,
          log.ops[op.opId]? = some existing →
            ∃ other, existing = .evidenceAdded other evidence := by
        intro header evidence same existing found
        have existingId := log.keyed _ existing found
        have present := (OpLog.mem_iterOps log existing).mpr (by rw [existingId]; exact found)
        rcases logged.made existing present with ⟨other, earlier, otherMade⟩
        rw [same] at made existingId
        exact evidence_of_opId collisionFree fresh plain listed (among other earlier) made
          otherMade existingId
      cases found : log.ops[op.opId]? with
      | none =>
          have added : log.add op = .ok (log.insert op, true) := by rw [OpLog.add, found]
          simp only [bind_of_ok added, bind_of_ok (rfl : (Except.ok op : Result Op) = .ok op)]
          refine keeps (fun other present => (OpLog.mem_insert found other).mpr (Or.inl present))
            (fun other present => ?_) (fun header evidence same => ?_)
          · rcases (OpLog.mem_insert found other).mp present with old | isNew
            · exact Or.inl old
            · rw [isNew]
              exact Or.inr made
          · rw [made] at same
            injection same with same
            exact ⟨header, (OpLog.mem_insert found _).mpr (Or.inr same.symm)⟩
      | some existing =>
          have unchanged : ∀ header evidence,
              writer.toOp write.occasion write.call = .ok (.evidenceAdded header evidence) →
                ∃ other, .evidenceAdded other evidence ∈ log.iterOps := by
            intro header evidence same
            rw [made] at same
            injection same with same
            rcases isEvidence header evidence same existing found with ⟨other, isOther⟩
            have existingId := log.keyed _ existing found
            refine ⟨other, ?_⟩
            rw [← isOther, OpLog.mem_iterOps, existingId]
            exact found
          have same : writer.Logged (done ++ [write]) log :=
            keeps (fun op present => present) (fun op present => Or.inl present) unchanged
          by_cases equal : pyEq existing op = true
          · have added : log.add op = .ok (log, false) := by
              rw [OpLog.add, found]
              exact if_pos equal
            simp only [bind_of_ok added, bind_of_ok (rfl : (Except.ok op : Result Op) = .ok op)]
            exact same
          · have refused : log.add op = .error (OpLog.collision op.opId) := by
              rw [OpLog.add, found]
              exact if_neg equal
            rw [bind_of_ok (rfl : (Except.ok op : Result Op) = .ok op), refused]
            exact same

theorem Writer.logOf_logged (collisionFree : CollisionFree) (fresh : FreshUuids writes)
    (plain : ∀ write ∈ writes, write.call.IsPlain) :
    writer.Logged writes (writer.logOf writes) := by
  have general : ∀ (rest done : List Write) (log : OpLog), writes = done ++ rest →
      writer.Logged done log → writer.Logged writes (rest.foldl writer.step log) := by
    intro rest
    induction rest with
    | nil =>
        intro done log split logged
        rw [List.append_nil] at split
        rw [split]
        exact logged
    | cons write rest inductionHypothesis =>
        intro done log split logged
        have among : ∀ other ∈ done, other ∈ writes := by
          intro other earlier
          rw [split]
          exact List.mem_append_left _ earlier
        have listed : write ∈ writes := by
          rw [split]
          simp
        exact inductionHypothesis (done ++ [write]) (writer.step log write)
          (by rw [split, List.append_assoc, List.singleton_append])
          (logged.step collisionFree fresh plain among listed)
  apply general writes [] .empty rfl
  constructor
  · intro op present
    rw [OpLog.mem_iterOps] at present
    simp [OpLog.empty] at present
  · intro write impossible
    cases impossible

/-- Evidence that is identified by the same bytes is the same evidence. -/
def EvidenceIdentified (writes : List Write) : Prop :=
  ∀ first ∈ writes, ∀ second ∈ writes, ∀ one other : EvidenceArguments,
    first.call = .addEvidence one → second.call = .addEvidence other →
      evidenceIdentity one = evidenceIdentity other → pyEq one.record other.record = true

section Logged

variable {log : OpLog} (logged : writer.Logged writes log) (fresh : FreshUuids writes)
  (plain : ∀ write ∈ writes, write.call.IsPlain)

include logged plain in
theorem Writer.Logged.madeBy {op : Op} (present : op ∈ log.iterOps) :
    ∃ write ∈ writes, writer.toOp write.occasion write.call = .ok op ∧ op.MadeBy write := by
  rcases logged.made op present with ⟨write, listed, made⟩
  exact ⟨write, listed, made, (Writer.toOp_ok (plain write listed) made).1⟩

include fresh in
/-- Two operations whose records have the same new UUID are one. -/
theorem eq_of_recordUuid {first second : Write} {op other : Op} (listed : first ∈ writes)
    (otherListed : second ∈ writes)
    (made : writer.toOp first.occasion first.call = .ok op)
    (otherMade : writer.toOp second.occasion second.call = .ok other)
    (same : first.occasion.recordUuid = second.occasion.recordUuid) : op = other := by
  have sameWrite : first = second := List.inj_on_of_nodup_map fresh.records listed otherListed same
  rw [sameWrite, otherMade] at made
  injection made with made
  exact made.symm

include logged plain in
/-- Evidence that is recorded under one id is the same when it is identified by its bytes. -/
theorem Writer.Logged.evidence_iff (collisionFree : CollisionFree) :
    Equated (fun evidence : Evidence => evidence.evidenceId)
        (Contents.of (· ∈ log.iterOps)).evidence ↔ EvidenceIdentified writes := by
  have ownId : ∀ write ∈ writes, ∀ arguments, write.call = .addEvidence arguments →
      arguments.record.evidenceId = "sha256:" ++ sha256Hexdigest (evidenceIdentity arguments) := by
    intro write listed arguments isCall
    have isPlain := plain write listed
    rw [isCall] at isPlain
    rw [EvidenceArguments.record, isPlain.1]
    rfl
  have held : ∀ write ∈ writes, ∀ arguments, write.call = .addEvidence arguments →
      (Contents.of (· ∈ log.iterOps)).evidence arguments.record := by
    intro write listed arguments isCall
    apply logged.evidence write listed
    rw [isCall]
    rfl
  constructor
  · intro equated first firstListed second secondListed one other isOne isOther sameBytes
    apply equated one.record other.record (held first firstListed one isOne)
      (held second secondListed other isOther)
    simp only [ownId first firstListed one isOne, ownId second secondListed other isOther,
      sameBytes]
  · intro identified first second firstHeld secondHeld sameId
    rcases firstHeld with ⟨firstHeader, firstPresent⟩
    rcases secondHeld with ⟨secondHeader, secondPresent⟩
    rcases logged.madeBy plain firstPresent with ⟨write, listed, _, one, isOne, isFirst⟩
    rcases logged.madeBy plain secondPresent with
      ⟨otherWrite, otherListed, _, other, isOther, isSecond⟩
    rw [isFirst, isSecond] at sameId ⊢
    simp only [ownId write listed one isOne, ownId otherWrite otherListed other isOther] at sameId
    exact identified write listed otherWrite otherListed one other isOne isOther
      (collisionFree ((String.append_right_inj _).mp sameId))

include logged fresh plain in
/-- Only evidence can be recorded twice under one id. -/
theorem Writer.Logged.compatible_iff (collisionFree : CollisionFree) :
    (Contents.of (· ∈ log.iterOps)).Compatible ↔ EvidenceIdentified writes := by
  rw [← logged.evidence_iff plain collisionFree]
  constructor
  · intro compatible
    exact compatible.evidence
  · intro evidence
    constructor
    case source =>
      intro first second firstHeld secondHeld sameId
      rcases firstHeld with ⟨_, firstPresent⟩
      rcases secondHeld with ⟨_, secondPresent⟩
      rcases logged.madeBy plain firstPresent with ⟨_, _, _, firstId⟩
      rcases logged.madeBy plain secondPresent with ⟨_, _, _, secondId⟩
      have bodies : first.body = second.body :=
        digest_of_id collisionFree (firstId.symm.trans (sameId.trans secondId))
      rw [Source.eq_of_body sameId bodies]
      exact pyEq_refl second
    case evidence => exact evidence
    case claim =>
      intro first second firstHeld secondHeld sameId
      rcases firstHeld with ⟨_, firstPresent⟩
      rcases secondHeld with ⟨_, secondPresent⟩
      rcases logged.madeBy plain firstPresent with ⟨_, listed, made, firstId, _⟩
      rcases logged.madeBy plain secondPresent with ⟨_, otherListed, otherMade, secondId, _⟩
      injection eq_of_recordUuid fresh listed otherListed made otherMade
        (firstId.symm.trans (sameId.trans secondId)) with _ same
      rw [same]
      exact pyEq_refl second
    case decision =>
      intro first second firstHeld secondHeld sameId
      rcases firstHeld with ⟨_, firstPresent⟩
      rcases secondHeld with ⟨_, secondPresent⟩
      rcases logged.madeBy plain firstPresent with ⟨_, listed, made, firstId, _⟩
      rcases logged.madeBy plain secondPresent with ⟨_, otherListed, otherMade, secondId, _⟩
      injection eq_of_recordUuid fresh listed otherListed made otherMade
        (firstId.symm.trans (sameId.trans secondId)) with _ same
      rw [same]
      exact pyEq_refl second
    case derivation =>
      intro first second firstHeld secondHeld sameId
      rcases firstHeld with ⟨_, firstPresent⟩
      rcases secondHeld with ⟨_, secondPresent⟩
      rcases logged.madeBy plain firstPresent with ⟨_, listed, made, firstId⟩
      rcases logged.madeBy plain secondPresent with ⟨_, otherListed, otherMade, secondId⟩
      have firstUuid : first.derivationId = _ := firstId
      injection eq_of_recordUuid fresh listed otherListed made otherMade
        (firstUuid.symm.trans (sameId.trans secondId)) with _ same
      rw [same]
      exact pyEq_refl second
    case resolution =>
      intro first second firstHeld secondHeld sameId
      rcases firstHeld with ⟨_, firstPresent⟩
      rcases secondHeld with ⟨_, secondPresent⟩
      rcases logged.madeBy plain firstPresent with ⟨_, listed, made, firstId⟩
      rcases logged.madeBy plain secondPresent with ⟨_, otherListed, otherMade, secondId⟩
      have firstUuid : first.resolutionId = _ := firstId
      injection eq_of_recordUuid fresh listed otherListed made otherMade
        (firstUuid.symm.trans (sameId.trans secondId)) with _ same
      rw [same]
      exact pyEq_refl second
    case event =>
      intro first second firstHeld _ _
      rcases firstHeld with ⟨_, firstPresent⟩
      rcases logged.madeBy plain firstPresent with ⟨_, _, _, impossible⟩
      exact impossible.elim

include logged plain in
/-- What the writers date is dated by their clock. -/
theorem Writer.Logged.dated (clock : ∀ write ∈ writes, Parses write.occasion.now)
    (registry : PredicateRegistry) : (Contents.of (· ∈ log.iterOps)).Dated registry := by
  constructor
  · intro decision held
    rcases held with ⟨_, present⟩
    rcases logged.madeBy plain present with ⟨write, listed, _, _, isNow⟩
    rw [isNow]
    exact Or.inr (clock write listed)
  · intro claim isActive bound given
    rcases isActive.1 with ⟨_, present⟩
    rcases logged.madeBy plain present with ⟨_, _, _, _, noValidity⟩
    simp [Claim.givenBounds, noValidity] at given

end Logged

/-- A log that is written without ids, claim references and validity intervals binds every id to
one record, and can be materialized, exactly when no two pieces of evidence that differ are
identified by the same bytes. -/
theorem writes_materialize_iff (collisionFree : CollisionFree) (writer : Writer)
    (fresh : FreshUuids writes) (plain : ∀ write ∈ writes, write.call.IsPlain)
    (clock : ∀ write ∈ writes, Parses write.occasion.now) :
    ((∃ state, materialize (writer.logOf writes) writer.predicateRegistry [] none ∅ = .ok state) ↔
        EvidenceIdentified writes) ∧
      ((Contents.of (· ∈ (writer.logOf writes).iterOps)).Compatible ↔
        EvidenceIdentified writes) := by
  have logged : writer.Logged writes (writer.logOf writes) :=
    Writer.logOf_logged collisionFree fresh plain
  have compatible := logged.compatible_iff fresh plain collisionFree
  refine ⟨⟨?_, ?_⟩, compatible⟩
  · intro success
    rcases success with ⟨state, run⟩
    rcases materialize_ok_iff.mp run with ⟨_, collected, collects, _⟩
    exact (logged.evidence_iff plain collisionFree).mp (collect_gathers collects).evidence.equated
  · intro identified
    exact (materialize_ok_iff_dated collisionFree (compatible.mpr identified)).mpr
      (logged.dated plain clock writer.predicateRegistry)

end Runs

end Theory

/-! ## Evidence with two descriptions -/

section Example

attribute [local instance] Reference.runtime Reference.hmac

namespace Reference

def writer : Writer := ⟨"r", .uuid4, .empty⟩

/-- Evidence at one place, with a title. -/
def titled (title : String) : EvidenceArguments :=
  ⟨some "p", .value .null, some (objectOf [("title", .str title)]), none, none, none, none⟩

def titledWrites (first second : String) : List Write :=
  [⟨⟨timestamp, "record-a", "op-a"⟩, .addEvidence (titled first)⟩,
    ⟨⟨timestamp, "record-b", "op-b"⟩, .addEvidence (titled second)⟩]

end Reference

private theorem titledWrites_fresh (first second : String) :
    FreshUuids (Reference.titledWrites first second) := by
  constructor
  · simp [Reference.titledWrites]
  · simp [Reference.titledWrites]

private theorem titledWrites_plain (first second : String) :
    ∀ write ∈ Reference.titledWrites first second, write.call.IsPlain := by
  intro write listed
  simp only [Reference.titledWrites, List.mem_cons, List.not_mem_nil, or_false] at listed
  rcases listed with isFirst | isSecond
  · rw [isFirst]
    exact ⟨rfl, rfl⟩
  · rw [isSecond]
    exact ⟨rfl, rfl⟩

private theorem titledWrites_clock (first second : String) :
    ∀ write ∈ Reference.titledWrites first second, Parses write.occasion.now := by
  intro write listed
  simp only [Reference.titledWrites, List.mem_cons, List.not_mem_nil, or_false] at listed
  rcases listed with isFirst | isSecond
  · rw [isFirst]
    exact Reference.ReadsTimestamp.parses
  · rw [isSecond]
    exact Reference.ReadsTimestamp.parses

/-- Two titles of one place leave a log that cannot be materialized. -/
theorem titled_twice_not_materialized :
    CollisionFree ∧ FreshUuids (Reference.titledWrites "one" "two") ∧
    (∀ write ∈ Reference.titledWrites "one" "two", write.call.IsPlain) ∧
    (∀ write ∈ Reference.titledWrites "one" "two", Parses write.occasion.now) ∧
    ¬∃ state, materialize (Reference.writer.logOf (Reference.titledWrites "one" "two"))
      Reference.writer.predicateRegistry [] none ∅ = .ok state := by
  refine ⟨Reference.collisionFree, titledWrites_fresh _ _, titledWrites_plain _ _,
    titledWrites_clock _ _, ?_⟩
  have computed : (materialize (Reference.writer.logOf (Reference.titledWrites "one" "two"))
      Reference.writer.predicateRegistry [] none ∅).isOk = false := by
    decide +kernel
  intro success
  rcases success with ⟨state, run⟩
  rw [run] at computed
  cases computed

/-- The same title twice does no harm. -/
theorem writes_materialize_iff_titled :
    EvidenceIdentified (Reference.titledWrites "one" "one") ∧
    ∃ state, materialize (Reference.writer.logOf (Reference.titledWrites "one" "one"))
      Reference.writer.predicateRegistry [] none ∅ = .ok state := by
  have identified : EvidenceIdentified (Reference.titledWrites "one" "one") := by
    have only : ∀ write ∈ Reference.titledWrites "one" "one", ∀ arguments,
        write.call = .addEvidence arguments → arguments = Reference.titled "one" := by
      intro write listed arguments isCall
      simp only [Reference.titledWrites, List.mem_cons, List.not_mem_nil, or_false] at listed
      rcases listed with isFirst | isSecond
      · rw [isFirst] at isCall
        injection isCall with isCall
        exact isCall.symm
      · rw [isSecond] at isCall
        injection isCall with isCall
        exact isCall.symm
    intro first firstListed second secondListed one other isOne isOther _
    rw [only first firstListed one isOne, only second secondListed other isOther]
    exact pyEq_refl _
  exact ⟨identified, (writes_materialize_iff Reference.collisionFree Reference.writer
    (titledWrites_fresh _ _) (titledWrites_plain _ _) (titledWrites_clock _ _)).1.mpr identified⟩

end Example

end Statefuse
