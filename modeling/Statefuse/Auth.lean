import Statefuse.OpLog

/-!
# Signatures

A claim carries its signature in its provenance, a retraction in fields of its own.
Both sign their encoding without the signature and the id of the signing key.
-/

namespace Statefuse

open Foundation

/-- The keyed digest of the host. -/
class Hmac where
  /-- `hmac.new(secret, message, hashlib.sha256).hexdigest()`. -/
  hexdigest : (secret message : ByteArray) → String

inductive SignatureStatus where
  | missing
  | unknownKey
  | verified
  | invalid
  deriving DecidableEq

def SignatureStatus.text : SignatureStatus → String
  | missing => "missing"
  | unknownKey => "unknown_key"
  | verified => "verified"
  | invalid => "invalid"

def isAscii (text : String) : Bool := text.toList.all fun char => char.toNat < 128

/-- `hmac.compare_digest` on strings. -/
def compareDigest (first second : String) : Result Bool :=
  if isAscii first ∧ isAscii second then .ok (first == second)
  else .error (.typeError "comparing strings with non-ASCII characters is not supported")

variable [Runtime] [Hmac]

def signatureDigest (payload : JSONObject) (secret : String) : String :=
  Hmac.hexdigest secret.toByteArray (canonicalJsonDumps (.obj payload)).toByteArray

/-- The status of a signature by a key.  An empty key id or signature is missing. -/
def signatureStatus (keyId signature : Option String) (payload : JSONObject)
    (keySecrets : Dict String String) : Result SignatureStatus :=
  match truthy keyId, truthy signature with
  | some keyId, some signature =>
      match keySecrets[keyId]? with
      | none => .ok .unknownKey
      | some secret => do
          let same ← compareDigest signature (signatureDigest payload secret)
          return if same then .verified else .invalid
  | _, _ => .ok .missing

/-- What a claim signs. -/
def signaturePayload (claim : Claim) : JSONObject :=
  claim.toDict.insert "provenance"
    (.obj ((claim.provenance.erase "signature").erase "signing_key_id"))

/-- `sign_claim`: the key id and the signature become part of the provenance. -/
def signClaim (claim : Claim) (secret keyId : String) : Claim :=
  let provenance := claim.provenance.insert "signing_key_id" (.str keyId)
  let unsigned := { claim with provenance := provenance }
  { claim with
    provenance := provenance.insert "signature"
      (.str (signatureDigest (signaturePayload unsigned) secret)) }

def claimSignatureStatus (claim : Claim) (keySecrets : Dict String String) :
    Result SignatureStatus :=
  signatureStatus ((getOrNull claim.provenance "signing_key_id").asStr?)
    ((getOrNull claim.provenance "signature").asStr?) (signaturePayload claim) keySecrets

/-- What a retraction signs. -/
def retractionSignaturePayload (retraction : ClaimRetracted) : JSONObject :=
  ((Op.claimRetracted retraction).toDict.erase "signature").erase "signing_key_id"

omit [Runtime] [Hmac] in
theorem ClaimRetracted.withSignature_checked (retraction : ClaimRetracted)
    (keyId signature : String) :
    RetractionFields.check { retraction.toRetractionFields with
      signingKeyId := some keyId
      signature := some signature } = .ok () := by
  have checked := retraction.checked
  simp only [RetractionFields.check, bind_ok_iff, require_ok_iff, Unique.exists_iff] at checked ⊢
  exact ⟨checked.1, by simp⟩

/-- `replace(retraction, signing_key_id=…, signature=…)`. -/
def ClaimRetracted.withSignature (retraction : ClaimRetracted) (keyId signature : String) :
    ClaimRetracted where
  toRetractionFields := { retraction.toRetractionFields with
    signingKeyId := some keyId
    signature := some signature }
  checked := retraction.withSignature_checked keyId signature

/-- `sign_retraction`. -/
def signRetraction (retraction : ClaimRetracted) (secret keyId : String) : ClaimRetracted :=
  let unsigned := retraction.withSignature keyId ""
  unsigned.withSignature keyId (signatureDigest (retractionSignaturePayload unsigned) secret)

def retractionSignatureStatus (retraction : ClaimRetracted) (keySecrets : Dict String String) :
    Result SignatureStatus :=
  signatureStatus retraction.signingKeyId retraction.signature
    (retractionSignaturePayload retraction) keySecrets

end Statefuse
