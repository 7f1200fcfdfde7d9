import Statefuse.Auth.Transport

/-!
# What a signature covers

A record is determined by its dictionary, although the dictionary leaves out the kind, the
context, the validity and the derivation of a claim where they have their default values.
What is signed is the dictionary of the record without the signature and the id of the key.
A signature that is verified on another record therefore says that the two agree on
everything else (`signatures_cover`).
-/

namespace Statefuse

open Foundation

section Encoding

variable [Runtime]

theorem Claim.confidence_toDict (claim : Claim) :
    (getOrNull claim.toDict "confidence").asNumber? = some claim.confidence := by
  simp [getOrNull, toDict, get_withField, get_objectOf, List.lookup]

/-- Decoding a claim loses the type of its confidence only, and the dictionary has it. -/
theorem Claim.toDict_injective : Function.Injective Claim.toDict := by
  intro first second same
  have read := Claim.fromDict_toDict first
  rw [same, Claim.fromDict_toDict] at read
  injection read with decoded
  have confidence := first.confidence_toDict
  rw [same, second.confidence_toDict] at confidence
  injection confidence with confidence
  cases first
  cases second
  simp only [Claim.decoded, Claim.mk.injEq] at decoded confidence ⊢
  rcases decoded with ⟨claimId, key, value, _, others⟩
  exact ⟨claimId.symm, key.symm, value.symm, confidence.symm, by simp [others]⟩

omit [Runtime] in
theorem Derivation.confidence_toDict (derivation : Derivation) :
    (getOrNull derivation.toDict "confidence").asNumber? = derivation.confidence := by
  have found : derivation.toDict["confidence"]? =
      some ((derivation.confidence.map JsonValue.number).getD .null) :=
    (get_objectOf _ _).trans rfl
  rw [getOrNull, found]
  cases derivation.confidence with
  | none => rfl
  | some number => rfl

theorem Derivation.toDict_injective : Function.Injective Derivation.toDict := by
  intro first second same
  have read := Derivation.fromDict_toDict first
  rw [same, Derivation.fromDict_toDict] at read
  injection read with decoded
  have confidence := first.confidence_toDict
  rw [same, second.confidence_toDict] at confidence
  have fields := congrArg Derivation.toDerivationFields decoded
  cases first with
  | mk firstFields =>
      cases second with
      | mk secondFields =>
          cases firstFields
          cases secondFields
          simp only [Derivation.decoded, Derivation.decodedFields, DerivationFields.mk.injEq,
            Derivation.mk.injEq] at fields confidence ⊢
          rcases fields with ⟨derivationId, ruleId, inputs, outputs, engine, explanation,
            timestamp, _, metadata⟩
          exact ⟨derivationId.symm, ruleId.symm, inputs.symm, outputs.symm, engine.symm,
            explanation.symm, timestamp.symm, confidence.symm, metadata.symm⟩

theorem ClaimRetracted.toDict_injective :
    Function.Injective (fun retraction => (Op.claimRetracted retraction).toDict) := by
  intro first second same
  have read := Op.fromDict_toDict (.claimRetracted first)
  have same : (Op.claimRetracted first).toDict = (Op.claimRetracted second).toDict := same
  rw [same, Op.fromDict_toDict] at read
  injection read with read
  injection read with read
  exact read.symm

end Encoding

section Coverage

variable [Runtime]

/-- The claim without the signature and the id of its key. -/
def Claim.unsigned (claim : Claim) : Claim :=
  { claim with provenance := (claim.provenance.erase "signature").erase "signing_key_id" }

theorem Claim.unsigned_provenance (claim : Claim) :
    (claim.unsigned.provenance.erase "signature").erase "signing_key_id" =
      (claim.provenance.erase "signature").erase "signing_key_id" := by
  apply Dict.ext
  intro name
  simp only [Claim.unsigned, Dict.get_erase]
  by_cases isKey : "signing_key_id" = name
  · rw [if_pos isKey, if_pos isKey]
  · by_cases isSignature : "signature" = name
    · simp only [if_pos isSignature]
    · simp only [if_neg isKey, if_neg isSignature]

/-- What a claim signs is the dictionary of the unsigned claim. -/
theorem signaturePayload_eq (claim : Claim) : signaturePayload claim = claim.unsigned.toDict := by
  have same : signaturePayload claim.unsigned = signaturePayload claim :=
    signaturePayload_of_provenance rfl claim.unsigned_provenance
  rw [← same, signaturePayload, claim.unsigned_provenance]
  apply Dict.ext
  intro key
  rw [Dict.get_insert]
  by_cases here : "provenance" = key
  · subst here
    simp [Claim.toDict, Claim.unsigned, get_withField, get_objectOf]
  · rw [if_neg here]

omit [Runtime] in
private theorem insert_erased {members : JSONObject} {key other : String}
    {value item : JSONValue} (found : members[key]? = some value)
    (otherFound : members[other]? = some item) :
    (((members.erase key).erase other).insert other item).insert key value = members := by
  apply Dict.ext
  intro name
  simp only [Dict.get_insert, Dict.get_erase]
  by_cases here : key = name
  · rw [if_pos here, ← here, found]
  · by_cases there : other = name
    · rw [if_neg here, if_pos there, ← there, otherFound]
    · rw [if_neg here, if_neg there, if_neg there, if_neg here]

/-- What a retraction signs, with a key id and a signature again, is a dictionary. -/
theorem toDict_withSignature (retraction : ClaimRetracted) :
    (Op.claimRetracted (retraction.withSignature "" "")).toDict =
      ((retractionSignaturePayload retraction).insert "signing_key_id" (.str "")).insert
        "signature" (.str "") := by
  rw [← retractionSignaturePayload_withSignature retraction "" "", retractionSignaturePayload]
  symm
  apply insert_erased
  · exact (get_objectOf _ _).trans rfl
  · exact (get_objectOf _ _).trans rfl

/-! ## Verified signatures -/

variable [Hmac]
variable {secret keyId : String} {keySecrets : Dict String String}

omit [Runtime] in
/-- A verified signature is the digest of what is signed, under the secret of the key. -/
theorem digest_of_verified {keyId signature : Option String} {payload : JSONObject}
    (known : ∀ key, keyId = some key → keySecrets[key]? = some secret)
    (verified : signatureStatus keyId signature payload keySecrets = .ok .verified) :
    signature = some (signatureDigest payload secret) := by
  unfold signatureStatus at verified
  cases keyGiven : truthy keyId with
  | none => simp [keyGiven] at verified
  | some key =>
      cases signatureGiven : truthy signature with
      | none => simp [keyGiven, signatureGiven] at verified
      | some text =>
          have isKey : keyId = some key := (Option.filter_eq_some_iff.mp keyGiven).1
          have isText : signature = some text := (Option.filter_eq_some_iff.mp signatureGiven).1
          simp only [keyGiven, signatureGiven, known key isKey] at verified
          rcases bind_ok_iff.mp verified with ⟨same, compared, status⟩
          rw [compareDigest] at compared
          split at compared
          · injection compared with compared
            cases same with
            | false => cases status
            | true => rw [isText, beq_iff_eq.mp compared]
          · cases compared

/-- A claim on which the signature of another claim is verified. -/
theorem claim_of_signature (collisionFree : Hmac.CollisionFree) {first second : Claim}
    (carried : second.provenance["signature"]? =
      (signClaim first secret keyId).provenance["signature"]?)
    (known : ∀ key, (getOrNull second.provenance "signing_key_id").asStr? = some key →
      keySecrets[key]? = some secret)
    (verified : claimSignatureStatus second keySecrets = .ok .verified) :
    second.unsigned = first.unsigned := by
  have digest := digest_of_verified known verified
  rw [getOrNull, carried, signClaim_signature, Option.getD_some, JsonValue.asStr_str] at digest
  injection digest with digest
  have payloads := signatureDigest_injective collisionFree digest
  rw [signaturePayload_eq, signaturePayload_eq] at payloads
  exact (Claim.toDict_injective payloads).symm

/-- A retraction on which the signature of another retraction is verified. -/
theorem retraction_of_signature (collisionFree : Hmac.CollisionFree)
    {first second : ClaimRetracted}
    (carried : second.signature = (signRetraction first secret keyId).signature)
    (known : ∀ key, second.signingKeyId = some key → keySecrets[key]? = some secret)
    (verified : retractionSignatureStatus second keySecrets = .ok .verified) :
    second.withSignature "" "" = first.withSignature "" "" := by
  have digest := digest_of_verified known verified
  have signed : (signRetraction first secret keyId).signature =
      some (signatureDigest (retractionSignaturePayload first) secret) := by
    rw [← retractionSignaturePayload_withSignature first keyId ""]
    rfl
  rw [carried, signed] at digest
  injection digest with digest
  have payloads := signatureDigest_injective collisionFree digest
  apply ClaimRetracted.toDict_injective
  have firstDict := toDict_withSignature first
  rw [payloads, ← toDict_withSignature second] at firstDict
  exact firstDict.symm

/-- Two claims agree on everything but the signature and the id of its key. -/
def Claim.AgreesUnsigned (first second : Claim) : Prop :=
  second = { first with provenance := second.provenance } ∧
    ∀ name, name ≠ "signature" → name ≠ "signing_key_id" →
      second.provenance[name]? = first.provenance[name]?

omit [Hmac] in
theorem Claim.agrees_of_unsigned {first second : Claim} (same : second.unsigned = first.unsigned) :
    first.AgreesUnsigned second := by
  constructor
  · have fields := congrArg
      (fun claim : Claim => { claim with provenance := second.provenance }) same
    exact fields
  · intro name notSignature notKey
    have provenance := congrArg Claim.provenance same
    have entries := congrArg (fun members : JSONObject => members[name]?) provenance
    simpa [Claim.unsigned, Dict.get_erase, notSignature.symm, notKey.symm] using entries

/-- Two retractions agree on everything but the signature and the id of its key. -/
def ClaimRetracted.AgreesUnsigned (first second : ClaimRetracted) : Prop :=
  second.toRetractionFields = { first.toRetractionFields with
    signingKeyId := second.signingKeyId
    signature := second.signature }

/-- A signature that is verified on another claim, or on another retraction, says that the
two agree on everything else. -/
theorem signatures_cover (collisionFree : Hmac.CollisionFree) :
    (∀ (first second : Claim) (secret keyId : String) (keySecrets : Dict String String),
      second.provenance["signature"]? =
        (signClaim first secret keyId).provenance["signature"]? →
      (∀ key, (getOrNull second.provenance "signing_key_id").asStr? = some key →
        keySecrets[key]? = some secret) →
      claimSignatureStatus second keySecrets = .ok .verified → first.AgreesUnsigned second) ∧
    (∀ (first second : ClaimRetracted) (secret keyId : String)
        (keySecrets : Dict String String),
      second.signature = (signRetraction first secret keyId).signature →
      (∀ key, second.signingKeyId = some key → keySecrets[key]? = some secret) →
      retractionSignatureStatus second keySecrets = .ok .verified →
      first.AgreesUnsigned second) := by
  constructor
  · intro first second secret keyId keySecrets carried known verified
    exact Claim.agrees_of_unsigned (claim_of_signature collisionFree carried known verified)
  · intro first second secret keyId keySecrets carried known verified
    have same := retraction_of_signature collisionFree carried known verified
    have fields := congrArg (fun retraction : ClaimRetracted =>
      { retraction.toRetractionFields with
        signingKeyId := second.signingKeyId
        signature := second.signature }) same
    exact fields

end Coverage

section Example

attribute [local instance] Reference.runtime Reference.spellingHmac

private def sharedSecret : Dict String String :=
  ((∅ : Dict String String).insert "k" "secret").insert "renamed" "secret"

private theorem sharedSecret_known : sharedSecret["renamed"]? = some "secret" := by
  simp [sharedSecret]

private def coveredClaim : Claim := Reference.fact "c" Reference.key (.str "v") []

private def coveredFields : RetractionFields :=
  ⟨⟨"t", "r", Reference.timestamp⟩, some "c", none, [], "withdrawn", none, none, none, none⟩

private theorem coveredFields_checked : coveredFields.check = .ok () := rfl

private def coveredRetraction : ClaimRetracted := ⟨coveredFields, coveredFields_checked⟩

/-- The id of the key is not signed: the signature is also verified under another id of the
same secret. -/
theorem signatures_cover_renamed :
    coveredClaim.AgreesUnsigned (signClaim coveredClaim "secret" "renamed") ∧
      coveredRetraction.AgreesUnsigned (signRetraction coveredRetraction "secret" "renamed") := by
  have covers := signatures_cover Reference.spellingHmac_collisionFree
  constructor
  · apply covers.1 coveredClaim _ "secret" "k" sharedSecret
    · rw [signClaim_signature, signClaim_signature]
    · intro key isKey
      rw [signClaim_keyId] at isKey
      injection isKey with isKey
      rw [← isKey]
      exact sharedSecret_known
    · rw [claimSignatureStatus_signed rfl, signaturePayload_signClaim,
        signatureStatus_digest Reference.spellingHmac_spelled sharedSecret_known (by decide),
        if_pos rfl]
  · apply covers.2 coveredRetraction _ "secret" "k" sharedSecret
    · simp only [signRetraction, retractionSignaturePayload_withSignature]
      rfl
    · intro key isKey
      have given : (signRetraction coveredRetraction "secret" "renamed").signingKeyId =
          some "renamed" := rfl
      rw [given] at isKey
      injection isKey with isKey
      rw [← isKey]
      exact sharedSecret_known
    · rw [retractionSignatureStatus_signed,
        signatureStatus_digest Reference.spellingHmac_spelled sharedSecret_known (by decide),
        if_pos rfl]

end Example

end Statefuse
