import Statefuse.Conflict.Index
import Statefuse.Foundation.Tables

/-!
# Resolution lifecycle

Resolutions and lifecycle events are grouped into lanes, one for each conflict
reference and scope.  A first pass folds the timeline of every lane; a second
pass judges the resolution that is left in a lane against the current conflict.

The timestamps of resolutions and events are read by `instantOf`, which cannot
fail on a record: its constructor has read the same timestamp.
-/

namespace Statefuse

open Foundation

/-- A conflict reference and a scope; no scope means every scope. -/
structure Lane where
  conflictRef : String
  scope : Option String
  deriving DecidableEq

namespace Lane

/-- Lanes without a scope come first. -/
def tuple (lane : Lane) : String ×ₗ WithBot String := toLex (lane.conflictRef, lane.scope)

theorem tuple_injective : Function.Injective tuple := by
  intro first second same
  have pairs : (first.conflictRef, first.scope) = (second.conflictRef, second.scope) := same
  injection pairs with refs scopes
  cases first
  cases second
  cases refs
  cases scopes
  rfl

instance : LinearOrder Lane := LinearOrder.lift' tuple tuple_injective

/-- The lane of every scope. -/
def global (conflictRef : String) : Lane := ⟨conflictRef, none⟩

end Lane

variable [Runtime]

/-- The instant of a timestamp that a constructor has already read. -/
def instantOf (timestamp : String) : Instant :=
  match parseUtcIso timestamp with
  | .ok instant => instant
  | .error _ => 0

def ResolutionRecord.lane (resolution : ResolutionRecord) : Lane :=
  ⟨resolution.conflictRef, resolution.scope⟩

def ConflictLifecycleEvent.lane (event : ConflictLifecycleEvent) : Lane :=
  ⟨event.conflictRef, event.scope⟩

/-- Resolutions are ordered by time, then by id. -/
def ResolutionRecord.order (resolution : ResolutionRecord) : Instant ×ₗ String :=
  toLex (instantOf resolution.timestamp, resolution.resolutionId)

def ConflictLifecycleEvent.order (event : ConflictLifecycleEvent) : Instant ×ₗ String :=
  toLex (instantOf event.timestamp, event.eventId)

def groupResolutionHistory (resolutionsById : Dict String ResolutionRecord) :
    Dict String (List ResolutionRecord) × Dict Lane (List ResolutionRecord) :=
  let resolutions := Dict.values resolutionsById
  (sortGroups ResolutionRecord.order (groupBy (·.conflictRef) resolutions),
    sortGroups ResolutionRecord.order (groupBy ResolutionRecord.lane resolutions))

def groupLifecycleHistory (eventsById : Dict String ConflictLifecycleEvent) :
    Dict String (List ConflictLifecycleEvent) × Dict Lane (List ConflictLifecycleEvent) :=
  let events := Dict.values eventsById
  (sortGroups ConflictLifecycleEvent.order (groupBy (·.conflictRef) events),
    sortGroups ConflictLifecycleEvent.order (groupBy ConflictLifecycleEvent.lane events))

inductive TimelineEntry where
  | resolution (record : ResolutionRecord)
  | event (record : ConflictLifecycleEvent)
  deriving DecidableEq

/-- Entries are ordered by time; a resolution comes before an event of the same
time, and equal kinds by id. -/
def TimelineEntry.order : TimelineEntry → Instant ×ₗ Nat ×ₗ String
  | .resolution record => toLex (instantOf record.timestamp, toLex (0, record.resolutionId))
  | .event record => toLex (instantOf record.timestamp, toLex (1, record.eventId))

/-- A resolution applies at an instant; without one it always does. -/
def resolutionApplies (resolution : ResolutionRecord) (validAt : Option String) : Result Bool :=
  match validAt with
  | none => .ok true
  | some validAt => do
      let instant ← parseUtcIso validAt
      let validFrom ← readBound (truthy resolution.validFrom)
      let validUntil ← readBound (truthy resolution.validUntil)
      return boundsContain (validFrom, validUntil) instant

/-- The active resolution and the status of a lane. -/
structure LaneState where
  active : Option ResolutionRecord
  status : Option LifecycleStatus
  deriving DecidableEq

def LaneState.start : LaneState := ⟨none, none⟩

/-- A resolution takes over its lane; abstaining defers it. -/
def LaneState.resolvedBy (resolution : ResolutionRecord) : LaneState :=
  ⟨some resolution, some (if resolution.outcome = .abstain then .deferred else .resolved)⟩

/-- The resolution that a `resolved` event designates, when it is of the same
lane and the same observed conflict and applies. -/
def designated (resolutionsById : Dict String ResolutionRecord) (validAt : Option String)
    (event : ConflictLifecycleEvent) : Result (Option ResolutionRecord) :=
  match resolutionsById[event.resolutionId.getD ""]? with
  | none => .ok none
  | some resolution =>
      if resolution.conflictRef ≠ event.conflictRef ∨ resolution.scope ≠ event.scope ∨
          resolution.observedConflictId ≠ event.observedConflictId then .ok none
      else do
        let applies ← resolutionApplies resolution validAt
        return if applies then some resolution else none

/-- One entry of a timeline. -/
def timelineStep (resolutionsById : Dict String ResolutionRecord) (validAt : Option String)
    (_state : LaneState) (entry : TimelineEntry) : Result LaneState :=
  match entry with
  | .resolution resolution => .ok (.resolvedBy resolution)
  | .event event =>
      if event.status ≠ .resolved then .ok ⟨none, some event.status⟩
      else do
        let resolution ← designated resolutionsById validAt event
        match resolution with
        | none => return ⟨none, some .opened⟩
        | some resolution => return .resolvedBy resolution

/-- The timeline of a lane: the resolutions that apply, and all events. -/
def timelineOf (resolutions : List ResolutionRecord) (events : List ConflictLifecycleEvent)
    (validAt : Option String) : Result (List TimelineEntry) := do
  let applicable ← resolutions.filterM fun resolution => resolutionApplies resolution validAt
  return sortBy TimelineEntry.order
    (applicable.map TimelineEntry.resolution ++ events.map TimelineEntry.event)

def foldLane (resolutionsById : Dict String ResolutionRecord)
    (resolutions : List ResolutionRecord) (events : List ConflictLifecycleEvent)
    (validAt : Option String) : Result LaneState := do
  let timeline ← timelineOf resolutions events validAt
  timeline.foldlM (timelineStep resolutionsById validAt) .start

/-! ## Judging against the current conflict -/

/-- The ids a resolution takes a stand on. -/
def classifiedIds (resolution : ResolutionRecord) : List String :=
  sortedSet (resolution.selectedClaimIds ++ resolution.rejectedClaimIds ++
    resolution.retainedClaimIds)

/-- The resolution was made about exactly the claims it classifies. -/
def observedMatches (conflict : ConflictSet) (resolution : ResolutionRecord) : Bool :=
  resolution.observedConflictId = deriveConflictId conflict.key (classifiedIds resolution)
    conflict.conflictType conflict.keys conflict.detectorId

/-- Every current candidate is classified. -/
def coversCandidates (conflict : ConflictSet) (resolution : ResolutionRecord) : Bool :=
  conflict.candidates.all fun claim => claim.claimId ∈ classifiedIds resolution

/-- The resolution keeps all current candidates side by side. -/
def preserves (conflict : ConflictSet) (resolution : ResolutionRecord) : Bool :=
  resolution.outcome = .preserve ∧ resolution.selectedClaimIds = [] ∧
    resolution.rejectedClaimIds = [] ∧
    conflict.candidates.all fun claim => claim.claimId ∈ resolution.retainedClaimIds

/-- The resolution picks exactly one of the current candidates. -/
def selects (conflict : ConflictSet) (resolution : ResolutionRecord) : Bool :=
  (resolution.outcome = .select ∨ resolution.outcome = .replace ∨ resolution.outcome = .merge) ∧
    (conflict.candidates.filter fun claim =>
      claim.claimId ∈ resolution.selectedClaimIds).length = 1

/-- Whether an active resolution is effective for the conflict, and the status of
its lane. -/
def judge (conflict : ConflictSet) (resolution : ResolutionRecord) : Bool × LifecycleStatus :=
  let current := observedMatches conflict resolution && coversCandidates conflict resolution
  if resolution.outcome = .abstain then (false, if current then .deferred else .reopened)
  else if current && (preserves conflict resolution || selects conflict resolution) then
    (true, .resolved)
  else (false, .reopened)

structure LifecycleFold where
  active : Dict Lane ResolutionRecord
  effective : Dict Lane ResolutionRecord
  statuses : Dict Lane LifecycleStatus

namespace LifecycleFold

def empty : LifecycleFold := ⟨∅, ∅, ∅⟩

/-- Enter the state of a folded lane. -/
def enter (fold : LifecycleFold) (lane : Lane) (state : LaneState) : LifecycleFold where
  active :=
    match state.active with
    | none => fold.active
    | some resolution => fold.active.insert lane resolution
  effective := fold.effective
  statuses :=
    match state.status with
    | none => fold.statuses
    | some status => fold.statuses.insert lane status

/-- Judge the active resolution of one lane of a conflict. -/
def judgeLane (fold : LifecycleFold) (conflict : ConflictSet) (lane : Lane) : LifecycleFold :=
  match fold.active[lane]? with
  | none => fold
  | some resolution =>
      let judged := judge conflict resolution
      { active := fold.active
        effective := if judged.1 then fold.effective.insert lane resolution else fold.effective
        statuses := fold.statuses.insert lane judged.2 }

/-- `statuses.setdefault(lane, "open")`. -/
def openByDefault (fold : LifecycleFold) (lane : Lane) : LifecycleFold :=
  { fold with
    statuses := if lane ∈ fold.statuses then fold.statuses else fold.statuses.insert lane .opened }

/-- All lanes of one conflict. -/
def judgeConflict (lanes : List Lane) (fold : LifecycleFold)
    (entry : String × ConflictSet) : LifecycleFold :=
  let conflictLanes :=
    sortedSet (Lane.global entry.1 :: lanes.filter fun lane => lane.conflictRef = entry.1)
  conflictLanes.foldl (fun fold lane => fold.judgeLane entry.2 lane)
    (fold.openByDefault (Lane.global entry.1))

end LifecycleFold

def foldLifecycle (resolutionsById : Dict String ResolutionRecord)
    (resolutionsByLane : Dict Lane (List ResolutionRecord))
    (eventsByLane : Dict Lane (List ConflictLifecycleEvent))
    (conflictsByRef : Dict String ConflictSet) (validAt : Option String) :
    Result LifecycleFold := do
  let lanes := sortedSet (resolutionsByLane.keys ++ eventsByLane.keys)
  let fold ← lanes.foldlM (fun (fold : LifecycleFold) lane => do
    let state ← foldLane resolutionsById (resolutionsByLane[lane]?.getD [])
      (eventsByLane[lane]?.getD []) validAt
    return fold.enter lane state) .empty
  return conflictsByRef.toList.foldl (LifecycleFold.judgeConflict lanes) fold

end Statefuse
