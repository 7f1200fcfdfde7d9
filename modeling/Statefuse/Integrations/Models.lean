import Statefuse.Materialize.Lifecycle

/-!
# Records of an external repository

The records that pass between a memory and a repository that searches its projections.
A score is a float other than nan, by its value: the infinite ones are the bounds of the
order, and of nan nothing could be said, since it compares with no number.
-/

namespace Statefuse

open Foundation

/-- A float other than nan. -/
abbrev SearchScore : Type := WithBot (WithTop ℚ)

structure RetrievalRecord where
  projectionId : String
  text : String
  nameSpace : String
  claimIds : List String
  conflictIds : List String
  metadata : JSONObject
  deriving DecidableEq

/-- A search; its constructor refuses a limit below one. -/
structure SearchRequest where
  query : String
  nameSpace : String
  limit : Int
  filters : JSONObject
  limitPositive : 1 ≤ limit

structure SearchHit where
  externalId : String
  projectionId : Option String
  text : String
  score : Option SearchScore
  claimIds : List String
  conflictIds : List String
  metadata : JSONObject
  deriving DecidableEq

inductive ProjectionOperation where
  | upsert | delete
  deriving DecidableEq

/-- A projection that the repository has not been told about yet. -/
structure PendingProjectionDelta where
  projectionId : String
  operation : ProjectionOperation
  record : Option RetrievalRecord
  recorded : record.isSome = true ↔ operation = .upsert

inductive ClaimStatus where
  | active | inactive
  deriving DecidableEq

variable [Runtime]

/-- What a memory knows about the hits of a search. -/
structure HydratedContext where
  claims : List Claim
  conflicts : List ConflictSet
  missingClaimIds : List String
  missingConflictIds : List String
  searchHits : List SearchHit
  claimStatuses : Dict String ClaimStatus
  conflictStatuses : Dict String LifecycleStatus
  resolutions : List ResolutionRecord
  resolutionStatuses : Dict String LifecycleStatus
  omittedClaimIds : List String
  omittedConflictIds : List String

end Statefuse
