import Statefuse.Integrations.Synchronize

/-!
# The repository in memory

The repository that the program brings along keeps records in a table, raises the failures
that are injected into it, and can be made unavailable.  A service is run with it here: the
repository answers while the deltas are gone through, one after another.
-/

namespace Statefuse

open Foundation

instance : PyEq RetrievalRecord where
  Key := (String × String × String) × (List String × List String) × Json ℚ
  decidableKey := inferInstance
  key record := ((record.projectionId, record.text, record.nameSpace),
    (record.claimIds, record.conflictIds), PyEq.key record.metadata)

section Theory

variable [Runtime]

/-- The records are filed under their namespaces and projection ids. -/
structure FakeMemoryRepositoryAdapter where
  available : Bool
  records : Dict (String ×ₗ String) RetrievalRecord
  failures : Dict String (List AdapterFailure)
  writeCount : Nat
  duplicateWriteCount : Nat

namespace FakeMemoryRepositoryAdapter

def name : String := "fake"

def empty : FakeMemoryRepositoryAdapter := ⟨true, ∅, ∅, 0, 0⟩

def injectFailure (fake : FakeMemoryRepositoryAdapter) (operation : String)
    (error : Option AdapterFailure) : FakeMemoryRepositoryAdapter :=
  { fake with
    failures := fake.failures.insert operation (fake.failures[operation]?.getD [] ++
      [error.getD ⟨"AdapterUnavailableError", "Injected " ++ operation ++ " failure."⟩]) }

/-- `_raise_injected` -/
def raiseInjected (fake : FakeMemoryRepositoryAdapter) (operation : String) :
    Except AdapterFailure Unit × FakeMemoryRepositoryAdapter :=
  match fake.failures[operation]?.getD [] with
  | [] => (.ok (), fake)
  | failure :: rest =>
      (.error failure, { fake with failures := fake.failures.insert operation rest })

/-- `_check` -/
def check (fake : FakeMemoryRepositoryAdapter) (operation : String) :
    Except AdapterFailure Unit × FakeMemoryRepositoryAdapter :=
  match fake.raiseInjected operation with
  | (.error failure, next) => (.error failure, next)
  | (.ok (), next) =>
      if next.available then (.ok (), next)
      else (.error ⟨"AdapterUnavailableError", "Fake memory repository is unavailable."⟩, next)

def externalId (nameSpace projectionId : String) : String :=
  "fake:" ++ digestJsonValue (.obj (objectOf [
    ("namespace", .str nameSpace), ("projection_id", .str projectionId)]))

def upsert (fake : FakeMemoryRepositoryAdapter) (record : RetrievalRecord) :
    Except AdapterFailure ExternalWriteResult × FakeMemoryRepositoryAdapter :=
  match fake.check "upsert" with
  | (.error failure, next) => (.error failure, next)
  | (.ok (), next) =>
      let key := toLex (record.nameSpace, record.projectionId)
      let previous := next.records[key]?
      (.ok {
          repository := name
          projectionId := record.projectionId
          externalId := externalId record.nameSpace record.projectionId
          created := previous.isNone
          metadata := record.metadata },
        if previous.any (pyEq · record) then
          { next with duplicateWriteCount := next.duplicateWriteCount + 1 }
        else
          { next with
            records := next.records.insert key record
            writeCount := next.writeCount + 1 })

def delete (fake : FakeMemoryRepositoryAdapter) (projectionId nameSpace : String) :
    Except AdapterFailure Bool × FakeMemoryRepositoryAdapter :=
  match fake.check "delete" with
  | (.error failure, next) => (.error failure, next)
  | (.ok (), next) =>
      let key := toLex (nameSpace, projectionId)
      (.ok (next.records.contains key), { next with records := next.records.erase key })

/-- The records as `==` sees them. -/
def view (fake : FakeMemoryRepositoryAdapter) (nameSpace projectionId : String) :
    Option (PyEq.Key RetrievalRecord) :=
  fake.records[toLex (nameSpace, projectionId)]?.map PyEq.key

/-- The share of the words of the query that the text has. -/
def score [WordSplitting] (query text : String) : ℚ :=
  binary64 ((wordTokens query ∩ wordTokens text).card / max 1 (wordTokens query).card)

/-- The hit for one record, when the request asks for it. -/
def hitFor [WordSplitting] (request : SearchRequest)
    (entry : (String ×ₗ String) × RetrievalRecord) : Option SearchHit :=
  let nameSpace := (ofLex entry.1).1
  let projectionId := (ofLex entry.1).2
  if nameSpace ≠ request.nameSpace ∨ request.filters.toList.any
      fun filter => !pyEq (getOrNull entry.2.metadata filter.1) filter.2 then none
  else if wordTokens request.query ≠ ∅ ∧ score request.query entry.2.text = 0 then none
  else some {
    externalId := externalId nameSpace projectionId
    projectionId := some projectionId
    text := entry.2.text
    score := some ((score request.query entry.2.text : WithTop ℚ) : WithBot (WithTop ℚ))
    claimIds := entry.2.claimIds
    conflictIds := entry.2.conflictIds
    metadata := entry.2.metadata }

def search [WordSplitting] (fake : FakeMemoryRepositoryAdapter) (request : SearchRequest) :
    Except AdapterFailure (List SearchHit) × FakeMemoryRepositoryAdapter :=
  match fake.check "search" with
  | (.error failure, next) => (.error failure, next)
  | (.ok (), next) =>
      let hits := next.records.toList.filterMap (hitFor request)
      (.ok ((sortBy (fun hit : SearchHit => toLex (OrderDual.toDual hit.rank, hit.externalId))
        hits).take request.limit.toNat), next)

end FakeMemoryRepositoryAdapter

/-! ## A service with this repository -/

/-- What a service sees of an answer to a write. -/
def UpsertReply.ofAnswer : Except AdapterFailure ExternalWriteResult → UpsertReply
  | .ok result => .answered result
  | .error failure => .raised failure false

def DeleteReply.ofAnswer : Except AdapterFailure Bool → DeleteReply
  | .ok existed => .answered existed
  | .error failure => .raised failure false

variable (now nameSpace : String) (known : Dict String ExternalReference)

/-- The answers of the repository to one delta. -/
def FakeMemoryRepositoryAdapter.replies (fake : FakeMemoryRepositoryAdapter)
    (delta : PendingProjectionDelta) : Replies where
  upsert projectionId := match delta.record with
    | none => .raised ⟨"", projectionId⟩ false
    | some record => .ofAnswer (fake.upsert record).1
  delete projectionId := .ofAnswer (fake.delete projectionId nameSpace).1

/-- The repository after one delta; it is not called for a record that is acknowledged. -/
def FakeMemoryRepositoryAdapter.afterDelta (fake : FakeMemoryRepositoryAdapter)
    (delta : PendingProjectionDelta) : FakeMemoryRepositoryAdapter :=
  match delta.record with
  | none => (fake.delete delta.projectionId nameSpace).2
  | some record =>
      if Mirror.isAcknowledged known[delta.projectionId]? record then fake
      else (fake.upsert record).2

/-- One pending delta. -/
def Mirror.applyDeltaTo (state : (Mirror × SyncReport) × FakeMemoryRepositoryAdapter)
    (delta : PendingProjectionDelta) : (Mirror × SyncReport) × FakeMemoryRepositoryAdapter :=
  (applyDelta FakeMemoryRepositoryAdapter.name now (state.2.replies nameSpace delta) known
    state.1 delta, state.2.afterDelta nameSpace known delta)

/-- `ProjectionService.synchronize` with this repository, after the refresh. -/
def Mirror.deliverTo (mirror : Mirror) (fake : FakeMemoryRepositoryAdapter) :
    (Mirror × SyncReport) × FakeMemoryRepositoryAdapter :=
  let pending := Dict.values mirror.deltas
  if pending = [] then
    ((mirror, { SyncReport.empty with unchanged := mirror.references.keys }), fake)
  else pending.foldl (applyDeltaTo now nameSpace mirror.references) ((mirror, .empty), fake)

/-- A service, and the repository that it writes to. -/
structure FakeService where
  installation : Installation
  fake : FakeMemoryRepositoryAdapter

/-- The calls on a service and on its repository. -/
inductive FakeCall (nameSpace : String) where
  | memory (call : Memory.Call)
  | search (request : {request : SearchRequest // request.nameSpace = nameSpace})
  | synchronize (now : String)
  | injectFailure (operation : String) (error : Option AdapterFailure)
  | setAvailable (available : Bool)

namespace FakeService

variable (codec : CheckpointCodec)

def synchronize (service : FakeService) (now : String) :
    Result (Nat × SyncReport) × FakeService :=
  match service.installation.refresh codec nameSpace none with
  | (.error failure, next) => (.error failure, ⟨next, service.fake⟩)
  | (.ok cursorAfter, next) =>
      let delivered := next.mirror.deliverTo now nameSpace service.fake
      (.ok (cursorAfter, delivered.1.2), ⟨{ next with mirror := delivered.1.1 }, delivered.2⟩)

/-- The repository is asked only when the refresh has returned. -/
def search [WordSplitting] (service : FakeService) (request : SearchRequest) :
    Result (Nat × HydratedContext × Option AdapterFailure) × FakeService :=
  match service.installation.refresh codec request.nameSpace none with
  | (.error failure, next) => (.error failure, ⟨next, service.fake⟩)
  | (.ok _, _) =>
      let answered := service.fake.search request
      let found := service.installation.search codec none request answered.1
      (found.1, ⟨found.2, answered.2⟩)

def after [WordSplitting] (service : FakeService) : FakeCall nameSpace → FakeService
  | .memory call =>
      { service with
        installation := { service.installation with
          memory := service.installation.memory.after codec call } }
  | .search request => (service.search codec request.val).2
  | .synchronize now => (service.synchronize nameSpace codec now).2
  | .injectFailure operation error =>
      { service with fake := service.fake.injectFailure operation error }
  | .setAvailable available =>
      { service with fake := { service.fake with available := available } }

def run [WordSplitting] (service : FakeService) (calls : List (FakeCall nameSpace)) :
    FakeService :=
  calls.foldl (after nameSpace codec) service

end FakeService

end Theory

end Statefuse
