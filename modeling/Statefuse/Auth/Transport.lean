import Statefuse.Auth
import Statefuse.Codec
import Statefuse.Reference

/-!
# Signatures in transport

A signature covers the text of the record that was signed.  Transport reads the
confidence of a claim as a float, so the text of a claim that was signed with a float
confidence stays the same, and that of a claim that was signed with an integer or a
boolean one does not.  Retractions carry no numbers.  An empty key id can be used for
signing, but counts as missing afterwards (`signatures_survive_iff`).
-/

namespace Statefuse

open Foundation

section Theory

variable [Runtime] [Hmac]

/-- Digests are spelled with ASCII characters and are not empty. -/
structure Hmac.Spelled : Prop where
  ascii : ∀ secret message : ByteArray, isAscii (Hmac.hexdigest secret message) = true
  present : ∀ secret message : ByteArray, Hmac.hexdigest secret message ≠ ""

/-- Under one secret, different messages have different digests. -/
def Hmac.CollisionFree : Prop :=
  ∀ secret : ByteArray, Function.Injective (Hmac.hexdigest secret)

/-- Some passages through the JSON text. -/
def transported : Nat → Op → Result Op
  | 0, op => .ok op
  | passages + 1, op => do
      let op ← transported passages op
      Op.fromJson op.toJson

omit [Hmac] in
theorem transported_succ (passages : Nat) (op : Op) :
    transported (passages + 1) op = .ok op.decoded := by
  induction passages with
  | zero =>
      have start : transported 0 op = .ok op := rfl
      rw [transported, bind_of_ok start, Op.fromJson_toJson]
  | succ passages inductionHypothesis =>
      rw [transported, bind_of_ok inductionHypothesis, Op.fromJson_toJson, Op.decoded_decoded]

omit [Runtime] in
/-- The status of a digest under a known key. -/
theorem signatureStatus_digest (spelled : Hmac.Spelled) {keySecrets : Dict String String}
    {keyId secret : String} (known : keySecrets[keyId]? = some secret) (present : keyId ≠ "")
    (signed payload : JSONObject) :
    signatureStatus (some keyId) (some (signatureDigest signed secret)) payload keySecrets =
      .ok (if signatureDigest signed secret = signatureDigest payload secret then .verified
        else .invalid) := by
  have keyGiven : truthy (some keyId) = some keyId := by simp [truthy, present]
  have signatureGiven : truthy (some (signatureDigest signed secret)) =
      some (signatureDigest signed secret) := by
    simp [truthy, signatureDigest, spelled.present]
  have compared : compareDigest (signatureDigest signed secret) (signatureDigest payload secret) =
      .ok (signatureDigest signed secret == signatureDigest payload secret) := by
    rw [compareDigest, if_pos ⟨spelled.ascii _ _, spelled.ascii _ _⟩]
  unfold signatureStatus
  simp only [keyGiven, signatureGiven, known]
  rw [bind_of_ok compared]
  by_cases same : signatureDigest signed secret = signatureDigest payload secret
  · simp [same, pure, Except.pure]
  · simp [same, pure, Except.pure]

omit [Runtime] in
theorem signatureStatus_without_key {signature : Option String} {payload : JSONObject}
    {keySecrets : Dict String String} :
    signatureStatus (some "") signature payload keySecrets = .ok .missing := by
  simp [signatureStatus, truthy]

omit [Runtime] in
theorem signatureDigest_injective (collisionFree : Hmac.CollisionFree) {first second : JSONObject}
    {secret : String} (same : signatureDigest first secret = signatureDigest second secret) :
    first = second :=
  JsonValue.obj_injective (canonicalJsonDumps_injective
    (String.toByteArray_inj.mp (collisionFree secret.toByteArray same)))

/-! ## Claims -/

omit [Hmac] in
/-- Claims that differ in their provenance only have the same other entries. -/
private theorem toDict_of_ne {first second : Claim}
    (same : second = { first with provenance := second.provenance }) {key : String}
    (different : key ≠ "provenance") : second.toDict[key]? = first.toDict[key]? := by
  have other : (key == "provenance") = false := by simp [different]
  rw [same]
  simp only [Claim.toDict, get_withField, get_objectOf, List.reverse_cons, List.reverse_nil,
    List.nil_append, List.cons_append, List.lookup, other]

omit [Hmac] in
/-- What a claim signs depends on the provenance without the signature and its key. -/
theorem signaturePayload_of_provenance {first second : Claim}
    (same : second = { first with provenance := second.provenance })
    (stripped : (second.provenance.erase "signature").erase "signing_key_id" =
      (first.provenance.erase "signature").erase "signing_key_id") :
    signaturePayload second = signaturePayload first := by
  apply Dict.ext
  intro key
  rw [signaturePayload, signaturePayload, Dict.get_insert, Dict.get_insert, stripped]
  by_cases here : "provenance" = key
  · rw [if_pos here, if_pos here]
  · rw [if_neg here, if_neg here, toDict_of_ne same (Ne.symm here)]

/-- Signing does not change what is signed. -/
theorem signaturePayload_signClaim (claim : Claim) (secret keyId : String) :
    signaturePayload (signClaim claim secret keyId) = signaturePayload claim := by
  apply signaturePayload_of_provenance rfl
  apply Dict.ext
  intro key
  simp only [signClaim, Dict.get_erase, Dict.get_insert]
  by_cases isKey : "signing_key_id" = key
  · rw [if_pos isKey, if_pos isKey]
  · by_cases isSignature : "signature" = key
    · rw [if_neg isKey, if_pos isSignature, if_neg isKey, if_pos isSignature]
    · rw [if_neg isKey, if_neg isSignature, if_neg isSignature, if_neg isKey, if_neg isKey,
        if_neg isSignature]

/-- The signature that signing a claim adds. -/
theorem signClaim_signature (claim : Claim) (secret keyId : String) :
    (signClaim claim secret keyId).provenance["signature"]? =
      some (.str (signatureDigest (signaturePayload claim) secret)) := by
  have unsigned : signaturePayload { claim with
      provenance := claim.provenance.insert "signing_key_id" (.str keyId) } =
        signaturePayload claim := by
    apply signaturePayload_of_provenance rfl
    apply Dict.ext
    intro key
    simp only [Dict.get_erase, Dict.get_insert]
    by_cases isKey : "signing_key_id" = key
    · rw [if_pos isKey, if_pos isKey]
    · simp only [if_neg isKey]
  simp [signClaim, unsigned]

theorem signClaim_keyId (claim : Claim) (secret keyId : String) :
    (getOrNull (signClaim claim secret keyId).provenance "signing_key_id").asStr? =
      some keyId := by
  simp only [getOrNull, signClaim, Dict.get_insert, String.reduceEq, if_false, if_true,
    Option.getD_some, JsonValue.asStr_str]

/-- The status of a claim with the provenance of a signed one. -/
theorem claimSignatureStatus_signed {claim received : Claim} {secret keyId : String}
    (same : received.provenance = (signClaim claim secret keyId).provenance)
    (keySecrets : Dict String String) :
    claimSignatureStatus received keySecrets =
      signatureStatus (some keyId) (some (signatureDigest (signaturePayload claim) secret))
        (signaturePayload received) keySecrets := by
  have keyGiven : (getOrNull received.provenance "signing_key_id").asStr? = some keyId := by
    rw [same, signClaim_keyId]
  have signatureGiven : (getOrNull received.provenance "signature").asStr? =
      some (signatureDigest (signaturePayload claim) secret) := by
    rw [getOrNull, same, signClaim_signature, Option.getD_some, JsonValue.asStr_str]
  rw [claimSignatureStatus, keyGiven, signatureGiven]

omit [Hmac] in
/-- A claim with a float confidence is read back unchanged, any other with another text. -/
theorem signaturePayload_decoded_iff (claim : Claim) :
    signaturePayload claim.decoded = signaturePayload claim ↔
      ∃ number, claim.confidence = .float number := by
  have confidence : ∀ claim : Claim,
      (signaturePayload claim)["confidence"]? = some (.number claim.confidence) := by
    intro claim
    rw [signaturePayload, Dict.get_insert_of_ne _ (by decide)]
    simp [Claim.toDict, get_withField, get_objectOf, List.lookup]
  constructor
  · intro same
    have numbers : some (JsonValue.number claim.decoded.confidence) =
        some (.number claim.confidence) := by
      rw [← confidence, ← confidence, same]
    injection numbers with numbers
    have read := congrArg JsonValue.asNumber? numbers
    rw [JsonValue.asNumber_number, JsonValue.asNumber_number] at read
    injection read with read
    exact ⟨_, read.symm⟩
  · rintro ⟨number, float⟩
    cases claim with
    | mk claimId key value confidence =>
        have isFloat : confidence = .float number := float
        subst isFloat
        rfl

omit [Hmac] in
/-- What a retraction signs does not depend on its key and its signature. -/
theorem retractionSignaturePayload_withSignature (retraction : ClaimRetracted)
    (keyId signature : String) :
    retractionSignaturePayload (retraction.withSignature keyId signature) =
      retractionSignaturePayload retraction := by
  apply Dict.ext
  intro key
  simp only [retractionSignaturePayload, Dict.get_erase]
  by_cases isKey : "signing_key_id" = key
  · rw [if_pos isKey, if_pos isKey]
  · by_cases isSignature : "signature" = key
    · simp only [if_pos isSignature]
    · have otherKey : (key == "signing_key_id") = false := by simp [Ne.symm isKey]
      have otherSignature : (key == "signature") = false := by simp [Ne.symm isSignature]
      rw [if_neg isKey, if_neg isSignature, if_neg isKey, if_neg isSignature, Op.toDict, Op.toDict,
        get_objectOf, get_objectOf]
      simp only [Op.payloadToDict, ClaimRetracted.payloadToDict, List.cons_append, List.nil_append,
        List.reverse_cons, List.reverse_nil, List.lookup, otherKey, otherSignature]
      rfl

theorem retractionSignatureStatus_signed (retraction : ClaimRetracted) (secret keyId : String)
    (keySecrets : Dict String String) :
    retractionSignatureStatus (signRetraction retraction secret keyId) keySecrets =
      signatureStatus (some keyId)
        (some (signatureDigest (retractionSignaturePayload retraction) secret))
        (retractionSignaturePayload retraction) keySecrets := by
  simp only [retractionSignatureStatus, signRetraction, retractionSignaturePayload_withSignature]
  rfl

/-! ## The signatures that survive -/

/-- After any number of passages the claim has a valid signature. -/
def ClaimSignatureSurvives (header : OpHeader) (claim : Claim) (secret keyId : String)
    (keySecrets : Dict String String) : Prop :=
  ∀ passages, ∃ received,
    transported passages (.claimAdded header (signClaim claim secret keyId)) =
      .ok (.claimAdded header received) ∧
    claimSignatureStatus received keySecrets = .ok .verified

/-- After any number of passages the retraction has a valid signature. -/
def RetractionSignatureSurvives (retraction : ClaimRetracted) (secret keyId : String)
    (keySecrets : Dict String String) : Prop :=
  ∀ passages, ∃ received,
    transported passages (.claimRetracted (signRetraction retraction secret keyId)) =
      .ok (.claimRetracted received) ∧
    retractionSignatureStatus received keySecrets = .ok .verified

variable {secret keyId : String} {keySecrets : Dict String String}

omit [Runtime] in
theorem not_verified_without_key {signature : Option String} {payload : JSONObject}
    (verified : signatureStatus (some keyId) signature payload keySecrets = .ok .verified) :
    keyId ≠ "" := by
  intro absent
  rw [absent, signatureStatus_without_key] at verified
  cases verified

theorem claimSignatureSurvives_iff (spelled : Hmac.Spelled) (collisionFree : Hmac.CollisionFree)
    (known : keySecrets[keyId]? = some secret) (header : OpHeader) (claim : Claim) :
    ClaimSignatureSurvives header claim secret keyId keySecrets ↔
      keyId ≠ "" ∧ ∃ number, claim.confidence = .float number := by
  constructor
  · intro survives
    rcases survives 1 with ⟨received, passed, verified⟩
    rw [transported_succ] at passed
    have isDecoded : (signClaim claim secret keyId).decoded = received := by
      injection passed with passed
      injection passed
    have provenance : (signClaim claim secret keyId).decoded.provenance =
        (signClaim claim secret keyId).provenance := rfl
    rw [← isDecoded, claimSignatureStatus_signed provenance] at verified
    have present := not_verified_without_key verified
    rw [signatureStatus_digest spelled known present] at verified
    have same : signatureDigest (signaturePayload claim) secret =
        signatureDigest (signaturePayload (signClaim claim secret keyId).decoded) secret := by
      by_contra different
      rw [if_neg different] at verified
      cases verified
    have payloads := signatureDigest_injective collisionFree same
    have decodedAgrees : signaturePayload (signClaim claim secret keyId).decoded =
        signaturePayload (signClaim claim secret keyId) := by
      rw [signaturePayload_signClaim, payloads]
    exact ⟨present, (signaturePayload_decoded_iff (signClaim claim secret keyId)).mp
      decodedAgrees⟩
  · intro conditions
    rcases conditions with ⟨present, float⟩
    have verified : ∀ received : Claim,
        received.provenance = (signClaim claim secret keyId).provenance →
        signaturePayload received = signaturePayload claim →
        claimSignatureStatus received keySecrets = .ok .verified := by
      intro received provenance payload
      rw [claimSignatureStatus_signed provenance, payload,
        signatureStatus_digest spelled known present, if_pos rfl]
    intro passages
    cases passages with
    | zero =>
        exact ⟨signClaim claim secret keyId, rfl,
          verified _ rfl (signaturePayload_signClaim claim secret keyId)⟩
    | succ passages =>
        have payload : signaturePayload (signClaim claim secret keyId).decoded =
            signaturePayload claim := by
          rw [(signaturePayload_decoded_iff (signClaim claim secret keyId)).mpr float,
            signaturePayload_signClaim]
        exact ⟨(signClaim claim secret keyId).decoded, transported_succ passages _,
          verified (signClaim claim secret keyId).decoded rfl payload⟩

theorem retractionSignatureSurvives_iff (spelled : Hmac.Spelled)
    (known : keySecrets[keyId]? = some secret) (retraction : ClaimRetracted) :
    RetractionSignatureSurvives retraction secret keyId keySecrets ↔ keyId ≠ "" := by
  constructor
  · intro survives
    rcases survives 0 with ⟨received, passed, verified⟩
    have isSigned : signRetraction retraction secret keyId = received := by
      injection passed with passed
      injection passed
    rw [← isSigned, retractionSignatureStatus_signed] at verified
    exact not_verified_without_key verified
  · intro present passages
    have passed : transported passages (.claimRetracted (signRetraction retraction secret keyId)) =
        .ok (.claimRetracted (signRetraction retraction secret keyId)) := by
      cases passages with
      | zero => rfl
      | succ passages => exact transported_succ passages _
    refine ⟨_, passed, ?_⟩
    rw [retractionSignatureStatus_signed, signatureStatus_digest spelled known present, if_pos rfl]

/-- The signature of a claim survives exactly when its key has an id and its confidence is a
float, that of a retraction exactly when its key has an id. -/
theorem signatures_survive_iff (spelled : Hmac.Spelled) (collisionFree : Hmac.CollisionFree)
    (known : keySecrets[keyId]? = some secret) :
    (∀ (header : OpHeader) (claim : Claim),
      ClaimSignatureSurvives header claim secret keyId keySecrets ↔
        keyId ≠ "" ∧ ∃ number, claim.confidence = .float number) ∧
    ∀ retraction : ClaimRetracted,
      RetractionSignatureSurvives retraction secret keyId keySecrets ↔ keyId ≠ "" :=
  ⟨claimSignatureSurvives_iff spelled collisionFree known,
    retractionSignatureSurvives_iff spelled known⟩

end Theory

/-! ## A claim with an integer confidence -/

namespace Reference

/-- A byte as two letters. -/
def spelledByte (byte : UInt8) : List Char :=
  [Char.ofNat (97 + byte.toNat / 16), Char.ofNat (97 + byte.toNat % 16)]

/-- A digest that spells the message after a mark, so that it is collision-free. -/
@[reducible] def spellingHmac : Hmac where
  hexdigest _ message := String.ofList ('m' :: message.data.toList.flatMap spelledByte)

attribute [local instance] spellingHmac

private theorem toNat_letter {number : Nat} (small : number < 16) :
    (Char.ofNat (97 + number)).toNat = 97 + number := by
  rw [Char.toNat_ofNat, if_pos (Or.inl (by omega))]

theorem spelledByte_injective {first second : UInt8}
    (same : spelledByte first = spelledByte second) : first = second := by
  have firstSmall := first.toNat_lt
  have secondSmall := second.toNat_lt
  simp only [spelledByte, List.cons.injEq, and_true] at same
  have high := congrArg Char.toNat same.1
  have low := congrArg Char.toNat same.2
  rw [toNat_letter (by omega), toNat_letter (by omega)] at high low
  apply UInt8.toNat_inj.mp
  omega

theorem flatMap_spelledByte_injective :
    Function.Injective (List.flatMap spelledByte) := by
  intro first
  induction first with
  | nil =>
      intro second same
      cases second with
      | nil => rfl
      | cons byte rest => cases same
  | cons byte rest inductionHypothesis =>
      intro second same
      cases second with
      | nil => cases same
      | cons other others =>
          simp only [List.flatMap_cons] at same
          rcases List.append_inj same rfl with ⟨heads, tails⟩
          rw [spelledByte_injective heads, inductionHypothesis tails]

theorem spellingHmac_collisionFree : Hmac.CollisionFree := by
  intro secret first second same
  have lists := String.ofList_injective same
  injection lists with _ lists
  exact ByteArray.ext (Array.ext' (flatMap_spelledByte_injective lists))

theorem spellingHmac_spelled : Hmac.Spelled where
  ascii := by
    intro secret message
    have small : ∀ char ∈ 'm' :: message.data.toList.flatMap spelledByte,
        char.toNat < 128 := by
      intro char listed
      rcases List.mem_cons.mp listed with isMark | ofByte
      · rw [isMark]
        decide
      · rcases List.mem_flatMap.mp ofByte with ⟨byte, _, inByte⟩
        have byteSmall := byte.toNat_lt
        simp only [spelledByte, List.mem_cons, List.not_mem_nil, or_false] at inByte
        rcases inByte with isHigh | isLow
        · rw [isHigh, toNat_letter (by omega)]
          omega
        · rw [isLow, toNat_letter (by omega)]
          omega
    have digest : Hmac.hexdigest secret message =
        String.ofList ('m' :: message.data.toList.flatMap spelledByte) := rfl
    rw [isAscii, digest, String.toList_ofList, List.all_eq_true]
    intro char listed
    exact decide_eq_true (small char listed)
  present := by
    intro secret message absent
    have digest : Hmac.hexdigest secret message =
        String.ofList ('m' :: message.data.toList.flatMap spelledByte) := rfl
    have chars := congrArg String.toList absent
    rw [digest, String.toList_ofList] at chars
    cases chars

end Reference

section Example

attribute [local instance] Reference.runtime Reference.spellingHmac

private def signingKeys : Dict String String := (∅ : Dict String String).insert "k" "secret"

private theorem signingKeys_known : signingKeys["k"]? = some "secret" := by
  simp [signingKeys]

private def signedHeader : OpHeader := ⟨"o", "r", Reference.timestamp⟩

private def unsignedClaim : Claim := Reference.fact "c" Reference.key (.str "v") []

private def unsignedRetraction : ClaimRetracted where
  opId := "t"
  replicaId := "r"
  timestamp := Reference.timestamp
  targetClaimId := some "c"
  targetClaimRef := none
  evidenceIds := []
  reason := "withdrawn"
  supersedesClaimId := none
  supersedesClaimRef := none
  signingKeyId := none
  signature := none
  checked := rfl

/-- With a float confidence the signature survives. -/
theorem signatures_survive_iff_float :
    ClaimSignatureSurvives signedHeader unsignedClaim.decoded "secret" "k" signingKeys ∧
      RetractionSignatureSurvives unsignedRetraction "secret" "k" signingKeys := by
  have exactly := signatures_survive_iff Reference.spellingHmac_spelled
    Reference.spellingHmac_collisionFree signingKeys_known
  exact ⟨(exactly.1 signedHeader unsignedClaim.decoded).mpr ⟨by decide, _, rfl⟩,
    (exactly.2 unsignedRetraction).mpr (by decide)⟩

/-- With the integer one as confidence the signature is verified until it is transported. -/
theorem signature_invalid_after_transport :
    claimSignatureStatus (signClaim unsignedClaim "secret" "k") signingKeys = .ok .verified ∧
      ∃ received,
        transported 1 (.claimAdded signedHeader (signClaim unsignedClaim "secret" "k")) =
          .ok (.claimAdded signedHeader received) ∧
        claimSignatureStatus received signingKeys = .ok .invalid := by
  constructor
  · rw [claimSignatureStatus_signed rfl, signaturePayload_signClaim,
      signatureStatus_digest Reference.spellingHmac_spelled signingKeys_known (by decide),
      if_pos rfl]
  · have different : signatureDigest (signaturePayload unsignedClaim) "secret" ≠
        signatureDigest (signaturePayload (signClaim unsignedClaim "secret" "k").decoded)
          "secret" := by
      intro same
      have payloads := signatureDigest_injective Reference.spellingHmac_collisionFree same
      rw [← signaturePayload_signClaim unsignedClaim "secret" "k"] at payloads
      rcases (signaturePayload_decoded_iff (signClaim unsignedClaim "secret" "k")).mp payloads.symm
        with ⟨number, float⟩
      cases float
    have provenance : (signClaim unsignedClaim "secret" "k").decoded.provenance =
        (signClaim unsignedClaim "secret" "k").provenance := rfl
    refine ⟨(signClaim unsignedClaim "secret" "k").decoded, transported_succ 0 _, ?_⟩
    rw [claimSignatureStatus_signed provenance,
      signatureStatus_digest Reference.spellingHmac_spelled signingKeys_known (by decide),
      if_neg different]

end Example

end Statefuse
