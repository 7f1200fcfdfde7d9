import Statefuse.Auth
import Statefuse.Merge

/-!
# Authenticated merge

A merge that takes over an operation of the other log only when its signature and its
timestamps pass, and that keeps the operations it rejects, with the reason.
-/

namespace Statefuse

open Foundation

variable [Runtime] [Hmac]

structure QuarantinedOp where
  opId : String
  keptOp : Op
  rejectedOp : Op
  reason : String

structure MergeReport where
  merged : OpLog
  addedOpIds : List String
  duplicateOpIds : List String
  quarantined : List QuarantinedOp

/-- The truth value of a JSON value. -/
def isTrue (value : JSONValue) : Bool :=
  match value.asStr?, value.asNumber?, value.asArr?, value.asObj? with
  | some text, _, _, _ => text ≠ ""
  | _, some number, _, _ => number.value ≠ 0
  | _, _, some items, _ => !items.isEmpty
  | _, _, _, some members => !members.isEmpty
  | _, _, _, _ => false

/-- The timestamps of an operation that an authenticated merge reads. -/
def checkedTimestamps (op : Op) : List String :=
  op.header.timestamp ::
    match op with
    | .claimAdded _ claim => [claim.timestamp]
    | .resolutionAdded _ resolution => [resolution.timestamp]
    | .conflictLifecycleEventAdded _ event => [event.timestamp]
    | _ => []

def timestampsParse (op : Op) : Bool :=
  (checkedTimestamps op).all fun timestamp => (parseUtcIso timestamp).toOption.isSome

/-- The reason of a signature by a key that may be revoked. -/
def signatureReason (subject keyId : String) (status : Result SignatureStatus)
    (revokedKeys : List String) (requireSigned : Bool) : Result (Option String) :=
  if keyId ≠ "" ∧ keyId ∈ revokedKeys then .ok (some (subject ++ "_signature_revoked"))
  else do
    let status ← status
    if requireSigned ∧ status ≠ .verified then
      return some (subject ++ "_signature_" ++ status.text)
    else if ¬requireSigned ∧ status = .invalid then return some (subject ++ "_signature_invalid")
    else return none

/-- Why an operation is rejected, if it is. -/
def authenticatedReason (keySecrets : Dict String String) (revokedKeys : List String)
    (requireSigned requireValidTimestamps : Bool) (op : Op) : Result (Option String) :=
  if requireValidTimestamps ∧ ¬timestampsParse op then .ok (some "invalid_timestamp")
  else
    match op with
    | .resolutionAdded .. | .conflictLifecycleEventAdded .. =>
        .ok (if requireSigned then some "authority_signature_unsupported" else none)
    | .claimAdded _ claim =>
        let keyId := claim.provenance["signing_key_id"]?.getD (.str "")
        signatureReason "claim" (if isTrue keyId then pyStr keyId else "")
          (claimSignatureStatus claim keySecrets) revokedKeys requireSigned
    | .claimRetracted retraction =>
        signatureReason "retraction" (retraction.signingKeyId.getD "")
          (retractionSignatureStatus retraction keySecrets) revokedKeys requireSigned
    | _ => .ok none

/-- One operation of the other log. -/
def mergeStep (keySecrets : Dict String String) (revokedKeys : List String)
    (requireSigned requireValidTimestamps : Bool) (report : MergeReport) (op : Op) :
    Result MergeReport := do
  let reason ← authenticatedReason keySecrets revokedKeys requireSigned requireValidTimestamps op
  match reason with
  | some reason =>
      return { report with quarantined := report.quarantined ++ [⟨op.opId, op, op, reason⟩] }
  | none =>
      match report.merged.ops[op.opId]? with
      | none =>
          return { report with
            merged := report.merged.insert op
            addedOpIds := report.addedOpIds ++ [op.opId] }
      | some existing =>
          if pyEq existing op then
            return { report with duplicateOpIds := report.duplicateOpIds ++ [op.opId] }
          else
            return { report with
              quarantined := report.quarantined ++
                [⟨op.opId, existing, op, "op_id collision with different payload"⟩] }

def mergeCheckedAuthenticated (first second : OpLog) (keySecrets : Dict String String)
    (revokedKeys : List String) (requireSigned requireValidTimestamps : Bool) :
    Result MergeReport := do
  let merged ← OpLog.ofOps first.iterOps
  second.iterOps.foldlM
    (mergeStep keySecrets revokedKeys requireSigned requireValidTimestamps) ⟨merged, [], [], []⟩

end Statefuse
