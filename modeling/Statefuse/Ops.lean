import Statefuse.Model.Resolution

/-!
# Operations

An operation is a header and one of eight payloads.  Equality of operations, like
that of the records they carry, compares numbers by value.
-/

namespace Statefuse

open Foundation

set_option synthInstance.maxSize 1024

structure OpHeader where
  opId : String
  replicaId : String
  timestamp : String
  deriving DecidableEq

structure RetractionFields extends OpHeader where
  targetClaimId : Option String
  targetClaimRef : Option String
  evidenceIds : List String
  reason : String
  supersedesClaimId : Option String
  supersedesClaimRef : Option String
  signingKeyId : Option String
  signature : Option String
  deriving DecidableEq

def RetractionFields.check (fields : RetractionFields) : Result Unit := do
  require (fields.targetClaimId ≠ none ∨ fields.targetClaimRef ≠ none)
    "ClaimRetracted requires target_claim_id or target_claim_ref."
  require (fields.signingKeyId.isNone = fields.signature.isNone)
    "signing_key_id and signature must be provided together."

structure ClaimRetracted extends RetractionFields where
  checked : toRetractionFields.check = .ok ()
  deriving DecidableEq

namespace ClaimRetracted

def create (fields : RetractionFields) : Result ClaimRetracted :=
  match checked : fields.check with
  | .ok () => .ok ⟨fields, checked⟩
  | .error failure => .error failure

def payloadToDict (op : ClaimRetracted) : List (String × JSONValue) :=
  [("target_claim_id", optionalStr op.targetClaimId),
    ("target_claim_ref", optionalStr op.targetClaimRef),
    ("evidence_ids", strList op.evidenceIds), ("reason", .str op.reason),
    ("supersedes_claim_id", optionalStr op.supersedesClaimId),
    ("supersedes_claim_ref", optionalStr op.supersedesClaimRef),
    ("signing_key_id", optionalStr op.signingKeyId), ("signature", optionalStr op.signature)]

end ClaimRetracted

/-- The header fields of an operation. -/
def headerFromDict (payload : JSONObject) : Result OpHeader := do
  let opId ← requiredString payload "op_id"
  let replicaId ← requiredString payload "replica_id"
  let timestamp ← requiredString payload "timestamp"
  return ⟨opId, replicaId, timestamp⟩

/-- A list of strings that defaults to the empty one. -/
def listOfStr (data : JSONObject) (key : String) : Result (List String) :=
  match data[key]? with
  | none => .ok []
  | some value => stringItems value (key ++ " must be a list of strings.")

def mappingValue (data : JSONObject) (key : String) : Result JSONObject :=
  match (getOrNull data key).asObj? with
  | some members => .ok members
  | none => valueError (key ++ " must be an object.")

def ClaimRetracted.fromDict (payload : JSONObject) : Result ClaimRetracted := do
  let header ← headerFromDict payload
  let targetClaimId ← optionalString payload "target_claim_id"
  let targetClaimRef ← optionalString payload "target_claim_ref"
  let evidenceIds ← listOfStr payload "evidence_ids"
  let reason ← requiredString payload "reason"
  let supersedesClaimId ← optionalString payload "supersedes_claim_id"
  let supersedesClaimRef ← optionalString payload "supersedes_claim_ref"
  let signingKeyId ← optionalString payload "signing_key_id"
  let signature ← optionalString payload "signature"
  ClaimRetracted.create ⟨header, targetClaimId, targetClaimRef, evidenceIds, reason,
    supersedesClaimId, supersedesClaimRef, signingKeyId, signature⟩

section Operations

variable [Runtime]

inductive Op where
  | sourceAdded (header : OpHeader) (source : Source)
  | evidenceAdded (header : OpHeader) (evidence : Evidence)
  | claimAdded (header : OpHeader) (claim : Claim)
  | claimRetracted (retraction : ClaimRetracted)
  | decisionAdded (header : OpHeader) (decision : Decision)
  | derivationAdded (header : OpHeader) (derivation : Derivation)
  | resolutionAdded (header : OpHeader) (resolution : ResolutionRecord)
  | conflictLifecycleEventAdded (header : OpHeader) (event : ConflictLifecycleEvent)
  deriving DecidableEq

namespace Op

def header : Op → OpHeader
  | sourceAdded header _ => header
  | evidenceAdded header _ => header
  | claimAdded header _ => header
  | claimRetracted retraction => retraction.toOpHeader
  | decisionAdded header _ => header
  | derivationAdded header _ => header
  | resolutionAdded header _ => header
  | conflictLifecycleEventAdded header _ => header

def opId (op : Op) : String := op.header.opId

def opType : Op → String
  | sourceAdded .. => "SourceAdded"
  | evidenceAdded .. => "EvidenceAdded"
  | claimAdded .. => "ClaimAdded"
  | claimRetracted .. => "ClaimRetracted"
  | decisionAdded .. => "DecisionAdded"
  | derivationAdded .. => "DerivationAdded"
  | resolutionAdded .. => "ResolutionAdded"
  | conflictLifecycleEventAdded .. => "ConflictLifecycleEventAdded"

instance : DecidableEq (PyEq.Key Source) := PyEq.decidableKey
instance : DecidableEq (PyEq.Key Evidence) := PyEq.decidableKey
instance : DecidableEq (PyEq.Key Claim) := PyEq.decidableKey
instance : DecidableEq (PyEq.Key Decision) := PyEq.decidableKey
instance : DecidableEq (PyEq.Key Derivation) := PyEq.decidableKey
instance : DecidableEq (PyEq.Key ResolutionRecord) := PyEq.decidableKey
instance : DecidableEq (PyEq.Key ConflictLifecycleEvent) := PyEq.decidableKey

/-- The key of an operation's payload, by its class. -/
inductive PayloadKey where
  | source (key : PyEq.Key Source)
  | evidence (key : PyEq.Key Evidence)
  | claim (key : PyEq.Key Claim)
  | retraction (fields : RetractionFields)
  | decision (key : PyEq.Key Decision)
  | derivation (key : PyEq.Key Derivation)
  | resolution (key : PyEq.Key ResolutionRecord)
  | event (key : PyEq.Key ConflictLifecycleEvent)
  deriving DecidableEq

def payloadKey : Op → PayloadKey
  | sourceAdded _ source => .source (PyEq.key source)
  | evidenceAdded _ evidence => .evidence (PyEq.key evidence)
  | claimAdded _ claim => .claim (PyEq.key claim)
  | claimRetracted retraction => .retraction retraction.toRetractionFields
  | decisionAdded _ decision => .decision (PyEq.key decision)
  | derivationAdded _ derivation => .derivation (PyEq.key derivation)
  | resolutionAdded _ resolution => .resolution (PyEq.key resolution)
  | conflictLifecycleEventAdded _ event => .event (PyEq.key event)

instance : PyEq Op where
  Key := OpHeader × PayloadKey
  decidableKey := inferInstance
  key op := (op.header, op.payloadKey)

def payloadToDict : Op → List (String × JSONValue)
  | sourceAdded _ source => [("source", .obj source.toDict)]
  | evidenceAdded _ evidence => [("evidence", .obj evidence.toDict)]
  | claimAdded _ claim => [("claim", .obj claim.toDict)]
  | claimRetracted retraction => retraction.payloadToDict
  | decisionAdded _ decision => [("decision", .obj decision.toDict)]
  | derivationAdded _ derivation => [("derivation", .obj derivation.toDict)]
  | resolutionAdded _ resolution => [("resolution", .obj resolution.toDict)]
  | conflictLifecycleEventAdded _ event => [("event", .obj event.toDict)]

def toDict (op : Op) : JSONObject :=
  objectOf ([("op_id", .str op.header.opId), ("op_type", .str op.opType),
    ("replica_id", .str op.header.replicaId), ("timestamp", .str op.header.timestamp)] ++
    op.payloadToDict)

def toJson (op : Op) : String := canonicalJsonDumps (.obj op.toDict)

/-- One of the classes that carry a single record under a key of their own. -/
def recordFromDict {α : Type} (key : String) (read : JSONObject → Result α)
    (make : OpHeader → α → Op) (payload : JSONObject) : Result Op := do
  let header ← headerFromDict payload
  let members ← mappingValue payload key
  let record ← read members
  return make header record

/-- The classes by their type name. -/
def fromDictOf : String → Option (JSONObject → Result Op)
  | "SourceAdded" => some (recordFromDict "source" Source.fromDict sourceAdded)
  | "EvidenceAdded" => some (recordFromDict "evidence" Evidence.fromDict evidenceAdded)
  | "ClaimAdded" => some (recordFromDict "claim" Claim.fromDict claimAdded)
  | "ClaimRetracted" => some (fun payload => (ClaimRetracted.fromDict payload).map claimRetracted)
  | "DecisionAdded" => some (recordFromDict "decision" Decision.fromDict decisionAdded)
  | "DerivationAdded" => some (recordFromDict "derivation" Derivation.fromDict derivationAdded)
  | "ResolutionAdded" =>
      some (recordFromDict "resolution" ResolutionRecord.fromDict resolutionAdded)
  | "ConflictLifecycleEventAdded" =>
      some (recordFromDict "event" ConflictLifecycleEvent.fromDict conflictLifecycleEventAdded)
  | _ => none

def fromDict (payload : JSONObject) : Result Op :=
  match (getOrNull payload "op_type").asStr? with
  | none => valueError "op_type must be present and must be a string."
  | some opType =>
      match fromDictOf opType with
      | none => valueError ("Unknown op_type: " ++ opType)
      | some read => read payload

def fromJson (payload : String) : Result Op := do
  let data ← canonicalJsonLoads payload
  match data.asObj? with
  | none => valueError "Operation JSON must decode to an object."
  | some members => fromDict members

end Op

end Operations

end Statefuse
