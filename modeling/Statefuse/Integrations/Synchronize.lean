import Statefuse.Foundation.Outbox
import Statefuse.Integrations.Hydration
import Statefuse.Integrations.Projection

/-!
# Synchronizing a repository

A service keeps, for one namespace of a repository, a reference for every record that the
repository has acknowledged and a delta for every record that it has not been told about.
A synchronization first refreshes the deltas from the memory and then goes through them;
a call of the repository that raises may have taken effect or not, and its delta is kept.

A service remembers up to which cursor of the memory it has projected; one that has just
been started projects the whole state.
-/

namespace Statefuse

open Foundation

/-- The repository and the namespace of a reference are those of the service. -/
structure ExternalReference where
  projectionId : String
  externalId : String
  createdAt : String
  updatedAt : String
  metadata : JSONObject
  deriving DecidableEq

structure ExternalWriteResult where
  repository : String
  projectionId : String
  externalId : String
  created : Bool
  metadata : JSONObject

structure AdapterFailure where
  errorType : String
  message : String

structure SyncFailure where
  projectionId : String
  operation : ProjectionOperation
  failure : AdapterFailure

structure SyncReport where
  created : List String
  updated : List String
  deleted : List String
  unchanged : List String
  failed : List SyncFailure

namespace SyncReport

def empty : SyncReport := ⟨[], [], [], [], []⟩

/-- Everything that is reported. -/
def ids (report : SyncReport) : List String :=
  report.created ++ report.updated ++ report.deleted ++ report.unchanged ++
    report.failed.map SyncFailure.projectionId

end SyncReport

/-- How the repository answers a write.  A write that raises may have been stored. -/
inductive UpsertReply where
  | answered (result : ExternalWriteResult)
  | raised (failure : AdapterFailure) (stored : Bool)

/-- How the repository answers a deletion.  A deletion that raises may have been carried
out; an answer that is no boolean raises. -/
inductive DeleteReply where
  | answered (existed : Bool)
  | raised (failure : AdapterFailure) (removed : Bool)

/-- The answers during one synchronization, by projection id; every id is asked about
once at most. -/
structure Replies where
  upsert : String → UpsertReply
  delete : String → DeleteReply

/-- A deletion that raises has not been carried out. -/
def Replies.DeletesAtomically (replies : Replies) : Prop :=
  ∀ projectionId failure removed,
    replies.delete projectionId = .raised failure removed → removed = false

namespace PendingProjectionDelta

def ofRecord (record : RetrievalRecord) : PendingProjectionDelta :=
  ⟨record.projectionId, .upsert, some record, by simp⟩

def ofDeletion (projectionId : String) : PendingProjectionDelta :=
  ⟨projectionId, .delete, none, by simp⟩

end PendingProjectionDelta

/-- One namespace of a repository: what the service keeps about it, and what it holds. -/
structure Mirror where
  references : Dict String ExternalReference
  deltas : Dict String PendingProjectionDelta
  remote : Dict String RetrievalRecord

namespace Mirror

def empty : Mirror := ⟨∅, ∅, ∅⟩

variable [Runtime]

/-- The reference is of a record with the same fingerprint. -/
def isAcknowledged (reference : Option ExternalReference) (record : RetrievalRecord) : Bool :=
  reference.any fun reference =>
    pyEq (getOrNull reference.metadata "fingerprint") (JsonValue.str (fingerprint record))

/-- A record that is acknowledged needs no delta. -/
def offer (mirror : Mirror) (record : RetrievalRecord) : Mirror :=
  if isAcknowledged mirror.references[record.projectionId]? record then
    { mirror with deltas := mirror.deltas.erase record.projectionId }
  else
    { mirror with deltas := mirror.deltas.insert record.projectionId (.ofRecord record) }

def withdraw (mirror : Mirror) (projectionId : String) : Mirror :=
  { mirror with deltas := mirror.deltas.insert projectionId (.ofDeletion projectionId) }

/-- The projection of a whole state: what is known and not projected is deleted. -/
def rebuild (mirror : Mirror) (desired : Dict String RetrievalRecord) : ProjectionDelta where
  upserts := Dict.values desired
  deletes := (sortedSet (mirror.references.keys ++ mirror.deltas.keys)).filter
    fun projectionId => !desired.contains projectionId

/-- `_refresh_pending_deltas` -/
def refresh (mirror : Mirror) (nameSpace : String) (state : MemoryState)
    (delta : MaterializationDelta) : Mirror :=
  if delta.isEmpty then mirror
  else
    let projection :=
      if delta.fullRebuild then mirror.rebuild (projected state nameSpace)
      else projectStateDelta state nameSpace delta
    projection.deletes.foldl withdraw (projection.upserts.foldl offer mirror)

/-- A deletion.  Its delta and its reference go when the repository has answered. -/
def applyDelete (replies : Replies) (mirror : Mirror) (report : SyncReport)
    (projectionId : String) : Mirror × SyncReport :=
  match replies.delete projectionId with
  | .answered _ =>
      ({ references := mirror.references.erase projectionId
         deltas := mirror.deltas.erase projectionId
         remote := mirror.remote.erase projectionId },
        { report with deleted := report.deleted ++ [projectionId] })
  | .raised failure removed =>
      ({ mirror with
          remote := if removed then mirror.remote.erase projectionId else mirror.remote },
        { report with failed := report.failed ++ [⟨projectionId, .delete, failure⟩] })

/-- The result of a write is about the record that was written. -/
def isWriteOf (repository projectionId : String) (result : ExternalWriteResult) : Bool :=
  result.repository = repository ∧ result.projectionId = projectionId ∧ result.externalId ≠ ""

def invalidWrite (projectionId : String) : AdapterFailure :=
  ⟨"AdapterProtocolError", "Adapter returned an invalid write result for " ++ projectionId ++ "."⟩

/-- A write has failed.  The reference goes, so that the record is written again. -/
def failWrite (reference : Option ExternalReference) (mirror : Mirror) (report : SyncReport)
    (projectionId : String) (failure : AdapterFailure) : Mirror × SyncReport :=
  ({ mirror with
      references := if reference.isSome then mirror.references.erase projectionId
        else mirror.references },
    { report with failed := report.failed ++ [⟨projectionId, .upsert, failure⟩] })

def referenceTo (reference : Option ExternalReference) (record : RetrievalRecord)
    (result : ExternalWriteResult) (projectionId now : String) : ExternalReference where
  projectionId := projectionId
  externalId := result.externalId
  createdAt := (reference.map ExternalReference.createdAt).getD now
  updatedAt := now
  metadata := (result.metadata.insert "fingerprint" (.str (fingerprint record))).insert
    "projection_version" (.number (.int 1))

/-- A write.  Nothing is written where the reference is of the same record. -/
def applyUpsert (repository now : String) (replies : Replies)
    (known : Dict String ExternalReference) (mirror : Mirror) (report : SyncReport)
    (projectionId : String) (record : RetrievalRecord) : Mirror × SyncReport :=
  let reference := known[projectionId]?
  if isAcknowledged reference record then
    ({ mirror with deltas := mirror.deltas.erase projectionId },
      { report with unchanged := report.unchanged ++ [projectionId] })
  else match replies.upsert projectionId with
    | .raised failure stored =>
        failWrite reference
          { mirror with
            remote := if stored then mirror.remote.insert projectionId record else mirror.remote }
          report projectionId failure
    | .answered result =>
        let written := { mirror with remote := mirror.remote.insert projectionId record }
        if isWriteOf repository projectionId result then
          ({ written with
              references := mirror.references.insert projectionId
                (referenceTo reference record result projectionId now)
              deltas := mirror.deltas.erase projectionId },
            if reference.isSome then { report with updated := report.updated ++ [projectionId] }
            else { report with created := report.created ++ [projectionId] })
        else failWrite reference written report projectionId (invalidWrite projectionId)

/-- One pending delta. -/
def applyDelta (repository now : String) (replies : Replies)
    (known : Dict String ExternalReference) (state : Mirror × SyncReport)
    (delta : PendingProjectionDelta) : Mirror × SyncReport :=
  match delta.record with
  | none => applyDelete replies state.1 state.2 delta.projectionId
  | some record =>
      applyUpsert repository now replies known state.1 state.2 delta.projectionId record

/-- `ProjectionService.synchronize`, after the refresh. -/
def deliver (mirror : Mirror) (repository now : String) (replies : Replies) :
    Mirror × SyncReport :=
  let pending := Dict.values mirror.deltas
  if pending = [] then (mirror, { SyncReport.empty with unchanged := mirror.references.keys })
  else pending.foldl (applyDelta repository now replies mirror.references) (mirror, .empty)

end Mirror

/-- A memory, and the mirror of one namespace of a repository. -/
structure Installation [Runtime] where
  memory : Memory
  mirror : Mirror

/-- The calls on one namespace. -/
inductive ServiceCall [Runtime] (nameSpace : String) where
  | memory (call : Memory.Call)
  | search (request : {request : SearchRequest // request.nameSpace = nameSpace})
      (reply : Except AdapterFailure (List SearchHit))
  | synchronize (now : String) (replies : Replies)

namespace Installation

variable [Runtime] (codec : CheckpointCodec) (repository nameSpace : String)

/-- What searching and synchronizing begin with.  A service that has just been started
has no cursor; otherwise it has the one that the last refresh returned. -/
def refresh (installation : Installation) (cursor : Option Nat) : Result Nat × Installation :=
  match installation.memory.materializeWithDelta codec cursor with
  | (.error failure, memory) => (.error failure, { installation with memory := memory })
  | (.ok (state, delta), memory) =>
      (.ok delta.cursorAfter, ⟨memory, installation.mirror.refresh nameSpace state delta⟩)

/-- `ProjectionService.synchronize` -/
def synchronize (installation : Installation) (cursor : Option Nat) (now : String)
    (replies : Replies) : Result (Nat × SyncReport) × Installation :=
  match installation.refresh codec nameSpace cursor with
  | (.error failure, next) => (.error failure, next)
  | (.ok cursorAfter, next) =>
      let delivered := next.mirror.deliver repository now replies
      (.ok (cursorAfter, delivered.2), { next with mirror := delivered.1 })

/-- `ProjectionService.search`.  A search that raises finds nothing in the repository. -/
def search [WordSplitting] (installation : Installation) (cursor : Option Nat)
    (request : SearchRequest) (reply : Except AdapterFailure (List SearchHit)) :
    Result (Nat × HydratedContext × Option AdapterFailure) × Installation :=
  match installation.refresh codec request.nameSpace cursor with
  | (.error failure, next) => (.error failure, next)
  | (.ok cursorAfter, next) =>
      let externalHits := reply.toOption.getD []
      let raised := match reply with
        | .ok _ => none
        | .error failure => some failure
      let hits := mergeSearchHits externalHits (Dict.values next.mirror.deltas) request
      let hydrated := hydrateSearchHits codec next.memory hits 32 128
      (hydrated.1.map fun context => (cursorAfter, context, raised),
        { next with memory := hydrated.2 })

/-- The installation after a call, of a service that has just been started. -/
def after [WordSplitting] (installation : Installation) : ServiceCall nameSpace → Installation
  | .memory call => { installation with memory := installation.memory.after codec call }
  | .search request reply => (installation.search codec none request.val reply).2
  | .synchronize now replies =>
      (installation.synchronize codec repository nameSpace none now replies).2

def run [WordSplitting] (installation : Installation) (calls : List (ServiceCall nameSpace)) :
    Installation :=
  calls.foldl (after codec repository nameSpace) installation

end Installation

end Statefuse
