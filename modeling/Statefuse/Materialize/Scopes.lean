import Statefuse.Materialize.Acceptance
import Statefuse.Materialize.Effective

/-!
# Resolutions of other scopes

Resolutions and lifecycle events that belong to a scope say nothing about the lanes of another
scope, nor about the lanes of every scope.  A log with more of them materializes to the same
claims and conflicts and to the same lanes (`materialize_without`), unless a bound of an added
resolution cannot be read (`materialize_with_iff`).
-/

namespace Statefuse

open Foundation

variable [Runtime]

/-- A resolution or a lifecycle event of a scope of its own, other than the given one. -/
def Op.isOfOtherScope (scope : Option String) : Op → Bool
  | .resolutionAdded _ resolution => resolution.scope ≠ none ∧ resolution.scope ≠ scope
  | .conflictLifecycleEventAdded _ event => event.scope ≠ none ∧ event.scope ≠ scope
  | _ => false

/-- Two resolutions, or two events, with one id. -/
def Op.sharesRecordId : Op → Op → Bool
  | .resolutionAdded _ first, .resolutionAdded _ second =>
      first.resolutionId = second.resolutionId
  | .conflictLifecycleEventAdded _ first, .conflictLifecycleEventAdded _ second =>
      first.eventId = second.eventId
  | _, _ => false

/-- Both computations raise, or both return results that are related. -/
def RelatedOutcomes {α β : Type} (related : α → β → Prop) (first : Result α)
    (second : Result β) : Prop :=
  (∃ left right, first = .ok left ∧ second = .ok right ∧ related left right) ∨
    ∃ left right, first = .error left ∧ second = .error right

/-- A table with the records of another one and some new ones, all of them listed. -/
structure Enlarges {α : Type} (key : α → String) (isNew isListed : α → Prop)
    (narrow wide : Dict String α) : Prop where
  found : ∀ (recordId : String) (record : α), wide[recordId]? = some record ↔
    narrow[recordId]? = some record ∨ isNew record ∧ key record = recordId
  listed : ∀ (recordId : String) (record : α), wide[recordId]? = some record →
    isListed record ∧ key record = recordId

namespace Enlarges

variable {α : Type} {key : α → String} {isNew isListed : α → Prop} {narrow wide : Dict String α}

omit [Runtime] in
theorem mono {alsoNew alsoListed : α → Prop} (enlarges : Enlarges key isNew isListed narrow wide)
    (sameNew : ∀ record, alsoNew record ↔ isNew record)
    (more : ∀ record, isListed record → alsoListed record) :
    Enlarges key alsoNew alsoListed narrow wide := by
  constructor
  · intro recordId record
    rw [enlarges.found, sameNew]
  · intro recordId record found
    rcases enlarges.listed recordId record found with ⟨isOne, isId⟩
    exact ⟨more record isOne, isId⟩

variable [PyEq α]

omit [Runtime] in
/-- A record whose id no new one has is bound in both tables or in none. -/
theorem bind_kept (enlarges : Enlarges key isNew isListed narrow wide) (record : α)
    (fresh : ∀ other, isNew other → key other ≠ key record) (isOne : isListed record)
    (name : String) :
    RelatedOutcomes (Enlarges key isNew isListed) (bindRecord narrow (key record) record name)
      (bindRecord wide (key record) record name) := by
  have here : narrow[key record]? = wide[key record]? := by
    apply Option.ext
    intro other
    rw [enlarges.found]
    constructor
    · exact Or.inl
    · intro either
      rcases either with found | ⟨added, sameId⟩
      · exact found
      · exact absurd sameId (fresh other added)
  have next : Enlarges key isNew isListed (narrow.insert (key record) record)
      (wide.insert (key record) record) := by
    constructor
    · intro recordId other
      rw [Dict.get_insert, Dict.get_insert]
      by_cases isHere : key record = recordId
      · rw [if_pos isHere, if_pos isHere]
        constructor
        · exact Or.inl
        · intro either
          rcases either with found | ⟨added, sameId⟩
          · exact found
          · exact absurd (sameId.trans isHere.symm) (fresh other added)
      · rw [if_neg isHere, if_neg isHere, enlarges.found]
    · intro recordId other found
      rw [Dict.get_insert] at found
      by_cases isHere : key record = recordId
      · rw [if_pos isHere] at found
        injection found with found
        rw [← found]
        exact ⟨isOne, isHere⟩
      · rw [if_neg isHere] at found
        exact enlarges.listed recordId other found
  unfold bindRecord
  rw [here]
  cases wide[key record]? with
  | none => exact Or.inl ⟨_, _, rfl, rfl, next⟩
  | some existing =>
      by_cases equal : pyEq existing record = true
      · simp only [if_pos equal]
        exact Or.inl ⟨_, _, rfl, rfl, next⟩
      · simp only [if_neg equal]
        exact Or.inr ⟨_, _, rfl, rfl⟩

omit [Runtime] in
/-- A new record whose id no listed one has enters the larger table. -/
theorem bind_added (enlarges : Enlarges key isNew isListed narrow wide) (record : α)
    (apart : ∀ other, isListed other → key other ≠ key record) (name : String) :
    ∃ next, bindRecord wide (key record) record name = .ok next ∧
      Enlarges key (fun other => isNew other ∨ other = record)
        (fun other => isListed other ∨ other = record) narrow next := by
  have free : wide[key record]? = none := by
    cases found : wide[key record]? with
    | none => rfl
    | some other =>
        rcases enlarges.listed _ other found with ⟨isOne, sameId⟩
        exact absurd sameId (apart other isOne)
  refine ⟨wide.insert (key record) record, by rw [bindRecord, free], ?_⟩
  constructor
  · intro recordId other
    rw [Dict.get_insert]
    by_cases isHere : key record = recordId
    · rw [if_pos isHere]
      constructor
      · intro isRecord
        injection isRecord with isRecord
        rw [← isRecord]
        exact Or.inr ⟨Or.inr rfl, isHere⟩
      · intro either
        rw [← isHere] at either
        rcases either with found | ⟨isOne | same, sameId⟩
        · rw [(enlarges.found _ other).mpr (Or.inl found)] at free
          cases free
        · rw [(enlarges.found _ other).mpr (Or.inr ⟨isOne, sameId⟩)] at free
          cases free
        · rw [same]
    · rw [if_neg isHere, enlarges.found]
      constructor
      · intro either
        rcases either with found | ⟨isOne, sameId⟩
        · exact Or.inl found
        · exact Or.inr ⟨Or.inl isOne, sameId⟩
      · intro either
        rcases either with found | ⟨isOne | same, sameId⟩
        · exact Or.inl found
        · exact Or.inr ⟨isOne, sameId⟩
        · rw [same] at sameId
          exact absurd sameId isHere
  · intro recordId other found
    rw [Dict.get_insert] at found
    by_cases isHere : key record = recordId
    · rw [if_pos isHere] at found
      injection found with found
      rw [← found]
      exact ⟨Or.inr rfl, isHere⟩
    · rw [if_neg isHere] at found
      rcases enlarges.listed recordId other found with ⟨isOne, sameId⟩
      exact ⟨Or.inl isOne, sameId⟩

end Enlarges

/-- Some operation adds the record. -/
def AddsResolution (ops : List Op) (isOne : Op → Bool) (record : ResolutionRecord) : Prop :=
  ∃ header, Op.resolutionAdded header record ∈ ops ∧ isOne (.resolutionAdded header record) = true

def AddsEvent (ops : List Op) (isOne : Op → Bool) (record : ConflictLifecycleEvent) : Prop :=
  ∃ header, Op.conflictLifecycleEventAdded header record ∈ ops ∧
    isOne (.conflictLifecycleEventAdded header record) = true

/-- The same records, and some more resolutions and events. -/
structure Collected.Widens (isAdded : Op → Bool) (done : List Op) (narrow wide : Collected) :
    Prop where
  same : wide = { narrow with
    resolutionsById := wide.resolutionsById
    lifecycleEventsById := wide.lifecycleEventsById }
  resolutions : Enlarges (fun record : ResolutionRecord => record.resolutionId)
    (AddsResolution done isAdded) (AddsResolution done fun _ => true) narrow.resolutionsById
    wide.resolutionsById
  events : Enlarges (fun record : ConflictLifecycleEvent => record.eventId)
    (AddsEvent done isAdded) (AddsEvent done fun _ => true) narrow.lifecycleEventsById
    wide.lifecycleEventsById

section Collecting

variable {registry : PredicateRegistry} {isAdded isOne : Op → Bool} {done : List Op}
  {narrow wide : Collected} {op : Op}

theorem addsResolution_append {record : ResolutionRecord} :
    AddsResolution (done ++ [op]) isOne record ↔ AddsResolution done isOne record ∨
      AddsResolution [op] isOne record := by
  constructor
  · intro adds
    rcases adds with ⟨header, listed, included⟩
    exact (List.mem_append.mp listed).imp (fun earlier => ⟨header, earlier, included⟩)
      (fun isLast => ⟨header, isLast, included⟩)
  · intro either
    rcases either with ⟨header, earlier, included⟩ | ⟨header, isLast, included⟩
    · exact ⟨header, List.mem_append_left _ earlier, included⟩
    · exact ⟨header, List.mem_append_right _ isLast, included⟩

theorem addsEvent_append {record : ConflictLifecycleEvent} :
    AddsEvent (done ++ [op]) isOne record ↔ AddsEvent done isOne record ∨
      AddsEvent [op] isOne record := by
  constructor
  · intro adds
    rcases adds with ⟨header, listed, included⟩
    exact (List.mem_append.mp listed).imp (fun earlier => ⟨header, earlier, included⟩)
      (fun isLast => ⟨header, isLast, included⟩)
  · intro either
    rcases either with ⟨header, earlier, included⟩ | ⟨header, isLast, included⟩
    · exact ⟨header, List.mem_append_left _ earlier, included⟩
    · exact ⟨header, List.mem_append_right _ isLast, included⟩

theorem addsResolution_one {header : OpHeader} {resolution : ResolutionRecord}
    (included : isOne (.resolutionAdded header resolution) = true) (record : ResolutionRecord) :
    AddsResolution [.resolutionAdded header resolution] isOne record ↔ record = resolution := by
  constructor
  · intro adds
    rcases adds with ⟨other, isLast, _⟩
    injection List.mem_singleton.mp isLast
  · intro same
    rw [same]
    exact ⟨header, List.mem_singleton_self _, included⟩

theorem addsEvent_one {header : OpHeader} {event : ConflictLifecycleEvent}
    (included : isOne (.conflictLifecycleEventAdded header event) = true)
    (record : ConflictLifecycleEvent) :
    AddsEvent [.conflictLifecycleEventAdded header event] isOne record ↔ record = event := by
  constructor
  · intro adds
    rcases adds with ⟨other, isLast, _⟩
    injection List.mem_singleton.mp isLast
  · intro same
    rw [same]
    exact ⟨header, List.mem_singleton_self _, included⟩

/-- An operation that both logs have adds nothing new. -/
theorem not_addsResolution (kept : isAdded op = false) (record : ResolutionRecord) :
    ¬AddsResolution [op] isAdded record := by
  intro adds
  rcases adds with ⟨header, isLast, included⟩
  rw [List.mem_singleton.mp isLast, kept] at included
  cases included

theorem not_addsEvent (kept : isAdded op = false) (record : ConflictLifecycleEvent) :
    ¬AddsEvent [op] isAdded record := by
  intro adds
  rcases adds with ⟨header, isLast, included⟩
  rw [List.mem_singleton.mp isLast, kept] at included
  cases included

/-- The tables of resolutions keep their relation beyond an operation that both logs have. -/
theorem enlarges_resolutions {first second : Dict String ResolutionRecord}
    (enlarges : Enlarges (fun record : ResolutionRecord => record.resolutionId)
      (AddsResolution done isAdded) (AddsResolution (done ++ [op]) fun _ => true) first second)
    (kept : isAdded op = false) :
    Enlarges (fun record : ResolutionRecord => record.resolutionId)
      (AddsResolution (done ++ [op]) isAdded) (AddsResolution (done ++ [op]) fun _ => true) first
      second := by
  refine enlarges.mono (fun record => ?_) (fun record => id)
  rw [addsResolution_append]
  exact or_iff_left (not_addsResolution kept record)

theorem enlarges_events {first second : Dict String ConflictLifecycleEvent}
    (enlarges : Enlarges (fun record : ConflictLifecycleEvent => record.eventId)
      (AddsEvent done isAdded) (AddsEvent (done ++ [op]) fun _ => true) first second)
    (kept : isAdded op = false) :
    Enlarges (fun record : ConflictLifecycleEvent => record.eventId)
      (AddsEvent (done ++ [op]) isAdded) (AddsEvent (done ++ [op]) fun _ => true) first
      second := by
  refine enlarges.mono (fun record => ?_) (fun record => id)
  rw [addsEvent_append]
  exact or_iff_left (not_addsEvent kept record)

/-- More operations are listed after each step. -/
theorem Collected.Widens.moreListed (widens : narrow.Widens isAdded done wide) (op : Op) :
    Enlarges (fun record : ResolutionRecord => record.resolutionId)
        (AddsResolution done isAdded) (AddsResolution (done ++ [op]) fun _ => true)
        narrow.resolutionsById wide.resolutionsById ∧
      Enlarges (fun record : ConflictLifecycleEvent => record.eventId)
        (AddsEvent done isAdded) (AddsEvent (done ++ [op]) fun _ => true)
        narrow.lifecycleEventsById wide.lifecycleEventsById :=
  ⟨widens.resolutions.mono (fun _ => Iff.rfl) fun _ adds => addsResolution_append.mpr (Or.inl adds),
    widens.events.mono (fun _ => Iff.rfl) fun _ adds => addsEvent_append.mpr (Or.inl adds)⟩

/-- The tables stay related when a step leaves resolutions and events alone. -/
theorem Collected.Widens.frame {narrowNext wideNext : Collected}
    (widens : narrow.Widens isAdded done wide) (kept : isAdded op = false)
    (narrowResolutions : narrowNext.resolutionsById = narrow.resolutionsById)
    (narrowEvents : narrowNext.lifecycleEventsById = narrow.lifecycleEventsById)
    (same : wideNext = { narrowNext with
      resolutionsById := wide.resolutionsById
      lifecycleEventsById := wide.lifecycleEventsById }) :
    narrowNext.Widens isAdded (done ++ [op]) wideNext := by
  have resolutions : wideNext.resolutionsById = wide.resolutionsById := by rw [same]
  have events : wideNext.lifecycleEventsById = wide.lifecycleEventsById := by rw [same]
  rcases widens.moreListed op with ⟨moreResolutions, moreEvents⟩
  constructor
  · rw [resolutions, events]
    exact same
  · rw [resolutions, narrowResolutions]
    exact enlarges_resolutions moreResolutions kept
  · rw [events, narrowEvents]
    exact enlarges_events moreEvents kept

/-- A binding that succeeds or fails in both logs. -/
theorem relatedOutcomes_bind {α : Type} {first second : Result α} {between : α → α → Prop}
    (outcomes : RelatedOutcomes between first second) {narrowNext wideNext : α → Collected}
    {related : Collected → Collected → Prop}
    (each : ∀ left right, between left right → related (narrowNext left) (wideNext right)) :
    RelatedOutcomes related (first >>= fun records => .ok (narrowNext records))
      (second >>= fun records => .ok (wideNext records)) := by
  rcases outcomes with ⟨left, right, isLeft, isRight, linked⟩ | ⟨left, right, isLeft, isRight⟩
  · rw [isLeft, isRight]
    exact Or.inl ⟨_, _, rfl, rfl, each left right linked⟩
  · rw [isLeft, isRight]
    exact Or.inr ⟨left, right, rfl, rfl⟩

omit [Runtime] in
theorem relatedOutcomes_of_eq {α : Type} {first second : Result α} (same : first = second) :
    RelatedOutcomes Eq first second := by
  rw [← same]
  cases first with
  | error failure => exact Or.inr ⟨failure, failure, rfl, rfl⟩
  | ok records => exact Or.inl ⟨records, records, rfl, rfl, rfl⟩

/-- An operation that both logs have. -/
theorem collectStep_kept (widens : narrow.Widens isAdded done wide) (kept : isAdded op = false)
    (fresh : ∀ other ∈ done, isAdded other = true → other.sharesRecordId op = false) :
    RelatedOutcomes (Collected.Widens isAdded (done ++ [op])) (collectStep registry narrow op)
      (collectStep registry wide op) := by
  have same := widens.same
  rcases widens.moreListed op with ⟨moreResolutions, moreEvents⟩
  cases op with
  | sourceAdded header source =>
      have table : narrow.sourcesById = wide.sourcesById := by rw [same]
      refine relatedOutcomes_bind (relatedOutcomes_of_eq (by rw [table])) fun records _ equal => ?_
      refine widens.frame kept rfl rfl ?_
      rw [same, equal]
  | evidenceAdded header evidence =>
      have table : narrow.evidenceById = wide.evidenceById := by rw [same]
      refine relatedOutcomes_bind (relatedOutcomes_of_eq (by rw [table])) fun records _ equal => ?_
      refine widens.frame kept rfl rfl ?_
      rw [same, equal]
  | claimAdded header claim =>
      have table : narrow.claimsById = wide.claimsById := by rw [same]
      refine relatedOutcomes_bind (relatedOutcomes_of_eq (by rw [table])) fun records _ equal => ?_
      refine widens.frame kept rfl rfl ?_
      rw [same, equal]
  | claimRetracted retraction =>
      refine Or.inl ⟨_, _, rfl, rfl, widens.frame kept rfl rfl ?_⟩
      rw [same]
  | decisionAdded header decision =>
      have table : narrow.decisionsById = wide.decisionsById := by rw [same]
      refine relatedOutcomes_bind (relatedOutcomes_of_eq (by rw [table])) fun records _ equal => ?_
      refine widens.frame kept rfl rfl ?_
      rw [same, equal]
  | derivationAdded header derivation =>
      have table : narrow.derivationsById = wide.derivationsById := by rw [same]
      refine relatedOutcomes_bind (relatedOutcomes_of_eq (by rw [table])) fun records _ equal => ?_
      refine widens.frame kept rfl rfl ?_
      rw [same, equal]
  | resolutionAdded header resolution =>
      refine relatedOutcomes_bind (moreResolutions.bind_kept resolution ?_
        ⟨header, by simp, rfl⟩ "resolution_id") fun left right linked => ?_
      · intro other adds sameId
        rcases adds with ⟨otherHeader, listed, isOne⟩
        have apart := fresh _ listed isOne
        simp [Op.sharesRecordId, sameId] at apart
      · constructor
        · rw [same]
        · exact enlarges_resolutions linked kept
        · exact enlarges_events moreEvents kept
  | conflictLifecycleEventAdded header event =>
      refine relatedOutcomes_bind (moreEvents.bind_kept event ?_
        ⟨header, by simp, rfl⟩ "event_id") fun left right linked => ?_
      · intro other adds sameId
        rcases adds with ⟨otherHeader, listed, isOne⟩
        have apart := fresh _ listed isOne
        simp [Op.sharesRecordId, sameId] at apart
      · constructor
        · rw [same]
        · exact enlarges_resolutions moreResolutions kept
        · exact enlarges_events linked kept

/-- An added operation enters the wider tables. -/
theorem collectStep_added {scope : Option String} (widens : narrow.Widens isAdded done wide)
    (isOne : isAdded op = true) (foreign : op.isOfOtherScope scope = true)
    (apart : ∀ other ∈ done, op.sharesRecordId other = false) :
    ∃ next, collectStep registry wide op = .ok next ∧
      narrow.Widens isAdded (done ++ [op]) next := by
  have same := widens.same
  cases op with
  | resolutionAdded header resolution =>
      have different : ∀ other, AddsResolution done (fun _ => true) other →
          other.resolutionId ≠ resolution.resolutionId := by
        intro other adds sameId
        rcases adds with ⟨otherHeader, listed, _⟩
        have distinct := apart _ listed
        simp [Op.sharesRecordId, sameId] at distinct
      rcases widens.resolutions.bind_added resolution different "resolution_id" with
        ⟨next, bound, enlarges⟩
      refine ⟨_, bind_of_ok bound, ?_⟩
      constructor
      · rw [same]
      · refine enlarges.mono (fun record => ?_) (fun record adds => ?_)
        · rw [addsResolution_append]
          exact or_congr Iff.rfl (addsResolution_one isOne record)
        · rw [addsResolution_append]
          refine adds.imp id (fun isRecord => ?_)
          rw [isRecord]
          exact ⟨header, List.mem_singleton_self _, rfl⟩
      · refine widens.events.mono (fun record => ?_) (fun record adds => ?_)
        · rw [addsEvent_append]
          exact or_iff_left (by simp [AddsEvent])
        · exact addsEvent_append.mpr (Or.inl adds)
  | conflictLifecycleEventAdded header event =>
      have different : ∀ other, AddsEvent done (fun _ => true) other →
          other.eventId ≠ event.eventId := by
        intro other adds sameId
        rcases adds with ⟨otherHeader, listed, _⟩
        have distinct := apart _ listed
        simp [Op.sharesRecordId, sameId] at distinct
      rcases widens.events.bind_added event different "event_id" with ⟨next, bound, enlarges⟩
      refine ⟨_, bind_of_ok bound, ?_⟩
      constructor
      · rw [same]
      · refine widens.resolutions.mono (fun record => ?_) (fun record adds => ?_)
        · rw [addsResolution_append]
          exact or_iff_left (by simp [AddsResolution])
        · exact addsResolution_append.mpr (Or.inl adds)
      · refine enlarges.mono (fun record => ?_) (fun record adds => ?_)
        · rw [addsEvent_append]
          exact or_congr Iff.rfl (addsEvent_one isOne record)
        · rw [addsEvent_append]
          refine adds.imp id (fun isRecord => ?_)
          rw [isRecord]
          exact ⟨header, List.mem_singleton_self _, rfl⟩
  | _ => cases foreign

/-- The operations that are added are of other scopes, and their records have ids of their
own. -/
structure AddsScoped (isAdded : Op → Bool) (scope : Option String) (ops : List Op) : Prop where
  distinct : ops.Nodup
  foreign : ∀ op ∈ ops, isAdded op = true → op.isOfOtherScope scope = true
  apart : ∀ first ∈ ops, ∀ second ∈ ops, first ≠ second → isAdded first = true →
    first.sharesRecordId second = false

variable (registry) in
/-- Collecting with and without the added operations. -/
theorem collect_widened {scope : Option String} {ops : List Op}
    (adds : AddsScoped isAdded scope ops) :
    RelatedOutcomes (Collected.Widens isAdded ops)
      ((ops.filter fun op => !isAdded op).foldlM (collectStep registry) .empty)
      (ops.foldlM (collectStep registry) .empty) := by
  have general : ∀ (rest done : List Op) (narrow wide : Collected), ops = done ++ rest →
      narrow.Widens isAdded done wide →
      RelatedOutcomes (Collected.Widens isAdded ops)
        ((rest.filter fun op => !isAdded op).foldlM (collectStep registry) narrow)
        (rest.foldlM (collectStep registry) wide) := by
    intro rest
    induction rest with
    | nil =>
        intro done narrow wide split widens
        rw [List.append_nil] at split
        rw [split]
        exact Or.inl ⟨narrow, wide, rfl, rfl, widens⟩
    | cons op rest inductionHypothesis =>
        intro done narrow wide split widens
        have inOps : op ∈ ops := by
          rw [split]
          simp
        have distinct := adds.distinct
        rw [split] at distinct
        have different : ∀ other ∈ done, other ≠ op := by
          intro other earlier same
          exact (List.nodup_append.mp distinct).2.2 other earlier op List.mem_cons_self same
        have earlierOps : ∀ other ∈ done, other ∈ ops := by
          intro other earlier
          rw [split]
          exact List.mem_append_left _ earlier
        have nextSplit : ops = (done ++ [op]) ++ rest := by
          rw [split, List.append_assoc, List.singleton_append]
        cases isOne : isAdded op with
        | true =>
            rw [List.filter_cons_of_neg (by simp [isOne])]
            rcases collectStep_added widens isOne
              (adds.foreign op inOps isOne)
              (fun other earlier => adds.apart op inOps other (earlierOps other earlier)
                (Ne.symm (different other earlier)) isOne) with ⟨next, step, after⟩
            rw [List.foldlM_cons, bind_of_ok step]
            exact inductionHypothesis (done ++ [op]) narrow next nextSplit after
        | false =>
            rw [List.filter_cons_of_pos (by simp [isOne]), List.foldlM_cons, List.foldlM_cons]
            rcases collectStep_kept widens isOne
              (fun other earlier isOther => adds.apart other (earlierOps other earlier) op inOps
                (different other earlier) isOther) with
              ⟨left, right, first, second, after⟩ | ⟨left, right, first, second⟩
            · rw [bind_of_ok first, bind_of_ok second]
              exact inductionHypothesis (done ++ [op]) left right nextSplit after
            · rw [first, second]
              exact Or.inr ⟨left, right, rfl, rfl⟩
  apply general ops [] .empty .empty rfl
  have noResolution : ∀ isOne record, ¬AddsResolution [] isOne record := by
    intro isOne record adds
    rcases adds with ⟨header, impossible, _⟩
    cases impossible
  have noEvent : ∀ isOne record, ¬AddsEvent [] isOne record := by
    intro isOne record adds
    rcases adds with ⟨header, impossible, _⟩
    cases impossible
  refine ⟨rfl, ⟨?_, ?_⟩, ⟨?_, ?_⟩⟩
  · intro recordId record
    exact (or_iff_left (fun both => noResolution _ _ both.1)).symm
  · intro recordId record found
    simp [Collected.empty] at found
  · intro recordId record
    exact (or_iff_left (fun both => noEvent _ _ both.1)).symm
  · intro recordId record found
    simp [Collected.empty] at found

end Collecting

/-! ## Lanes -/

/-- The lanes that a view of a scope looks at. -/
def Lane.VisibleIn (lane : Lane) (scope : Option String) : Prop :=
  lane.scope = none ∨ lane.scope = scope

/-- Tables with the same resolutions of a lane group them alike. -/
theorem resolutionsOfLane_eq {first second : Dict String ResolutionRecord}
    (firstKeyed : Keyed first (·.resolutionId)) (secondKeyed : Keyed second (·.resolutionId))
    {lane : Lane} (same : ∀ record : ResolutionRecord, record.lane = lane →
      (first[record.resolutionId]? = some record ↔ second[record.resolutionId]? = some record)) :
    (groupResolutionHistory first).2[lane]?.getD [] =
      (groupResolutionHistory second).2[lane]?.getD [] := by
  have sorted : ∀ table : Dict String ResolutionRecord, Keyed table (·.resolutionId) →
      ((groupResolutionHistory table).2[lane]?.getD []).Pairwise
        (fun one other => one.order < other.order) := by
    intro table keyed
    have grouped : Groups ResolutionRecord.order
        (groupBy ResolutionRecord.lane (Dict.values table)) _ :=
      groups_groupBy ResolutionRecord.lane (keyed.lists.values_distinct.imp
        (fun {first second} below same => ne_of_lt below (congrArg Prod.snd same)))
    exact grouped.sortGroups.getD_sorted lane
  apply eq_of_strictly_sorted (sorted first firstKeyed) (sorted second secondKeyed)
  intro record
  rw [mem_resolutionsOfLane firstKeyed, mem_resolutionsOfLane secondKeyed]
  constructor
  · intro listed
    exact ⟨(same record listed.2).mp listed.1, listed.2⟩
  · intro listed
    exact ⟨(same record listed.2).mpr listed.1, listed.2⟩

theorem eventsOfLane_eq {first second : Dict String ConflictLifecycleEvent}
    (firstKeyed : Keyed first (·.eventId)) (secondKeyed : Keyed second (·.eventId)) {lane : Lane}
    (same : ∀ record : ConflictLifecycleEvent, record.lane = lane →
      (first[record.eventId]? = some record ↔ second[record.eventId]? = some record)) :
    (groupLifecycleHistory first).2[lane]?.getD [] =
      (groupLifecycleHistory second).2[lane]?.getD [] := by
  have sorted : ∀ table : Dict String ConflictLifecycleEvent, Keyed table (·.eventId) →
      ((groupLifecycleHistory table).2[lane]?.getD []).Pairwise
        (fun one other => one.order < other.order) := by
    intro table keyed
    have grouped : Groups ConflictLifecycleEvent.order
        (groupBy ConflictLifecycleEvent.lane (Dict.values table)) _ :=
      groups_groupBy ConflictLifecycleEvent.lane (keyed.lists.values_distinct.imp
        (fun {first second} below same => ne_of_lt below (congrArg Prod.snd same)))
    exact grouped.sortGroups.getD_sorted lane
  apply eq_of_strictly_sorted (sorted first firstKeyed) (sorted second secondKeyed)
  intro record
  rw [mem_eventsOfLane firstKeyed, mem_eventsOfLane secondKeyed]
  constructor
  · intro listed
    exact ⟨(same record listed.2).mp listed.1, listed.2⟩
  · intro listed
    exact ⟨(same record listed.2).mpr listed.1, listed.2⟩

/-- A timeline is folded alike with tables in which its events designate the same
resolutions. -/
theorem foldLane_of_designated {first second : Dict String ResolutionRecord}
    {resolutions : List ResolutionRecord} {events : List ConflictLifecycleEvent}
    {validAt : Option String}
    (same : ∀ event ∈ events, designated first validAt event = designated second validAt event) :
    foldLane first resolutions events validAt = foldLane second resolutions events validAt := by
  unfold foldLane
  cases timed : timelineOf resolutions events validAt with
  | error failure => rfl
  | ok timeline =>
      have among : ∀ event, TimelineEntry.event event ∈ timeline → event ∈ events := by
        intro event listed
        rcases ((timelineOf_ok timed).1 _).mp listed with
          ⟨_, _, _, impossible⟩ | ⟨other, isOne, isEvent⟩
        · cases impossible
        · injection isEvent with isEvent
          rw [← isEvent]
          exact isOne
      have steps : ∀ entry ∈ timeline, ∀ state,
          timelineStep first validAt state entry = timelineStep second validAt state entry := by
        intro entry listed state
        cases entry with
        | resolution record => rfl
        | event event =>
            unfold timelineStep
            simp only [same event (among event listed)]
      have folds : ∀ (rest : List TimelineEntry) (state : LaneState),
          (∀ entry ∈ rest, entry ∈ timeline) →
          rest.foldlM (timelineStep first validAt) state =
            rest.foldlM (timelineStep second validAt) state := by
        intro rest
        induction rest with
        | nil =>
            intro state _
            rfl
        | cons entry rest inductionHypothesis =>
            intro state within
            rw [List.foldlM_cons, List.foldlM_cons, steps entry (within entry List.mem_cons_self)]
            congr 1
            funext next
            exact inductionHypothesis next
              (fun other listed => within other (List.mem_cons_of_mem _ listed))
      exact folds timeline .start (fun _ listed => listed)

/-- An event names a resolution of its own lane, or none. -/
theorem designated_exists {resolutionsById : Dict String ResolutionRecord}
    (keyed : Keyed resolutionsById (·.resolutionId)) {lane : Lane}
    {event : ConflictLifecycleEvent} (own : event.lane = lane) {validAt : Option String}
    (each : ∀ record : ResolutionRecord, resolutionsById[record.resolutionId]? = some record →
      record.lane = lane → ∃ applies, resolutionApplies record validAt = .ok applies) :
    ∃ named, designated resolutionsById validAt event = .ok named := by
  unfold designated
  cases found : resolutionsById[event.resolutionId.getD ""]? with
  | none => exact ⟨none, rfl⟩
  | some record =>
      simp only
      by_cases other : record.conflictRef ≠ event.conflictRef ∨ record.scope ≠ event.scope ∨
          record.observedConflictId ≠ event.observedConflictId
      · rw [if_pos other]
        exact ⟨none, rfl⟩
      · rw [if_neg other]
        simp only [not_or, not_not] at other
        have isId : record.resolutionId = event.resolutionId.getD "" := keyed _ _ found
        have isLane : record.lane = lane := by
          rw [← own, ResolutionRecord.lane, ConflictLifecycleEvent.lane, other.1, other.2.1]
        rcases each record (by rw [isId]; exact found) isLane with ⟨applies, decided⟩
        rw [bind_of_ok decided]
        exact ⟨_, rfl⟩

/-- A timeline can be folded when all resolutions of its lane can be compared with the
instant. -/
theorem foldLane_ok_iff {resolutionsById : Dict String ResolutionRecord}
    (keyed : Keyed resolutionsById (·.resolutionId)) {lane : Lane}
    {events : List ConflictLifecycleEvent} (own : ∀ event ∈ events, event.lane = lane)
    (validAt : Option String) :
    (∃ folded, foldLane resolutionsById
        ((groupResolutionHistory resolutionsById).2[lane]?.getD []) events validAt = .ok folded) ↔
      ∀ record : ResolutionRecord, resolutionsById[record.resolutionId]? = some record →
        record.lane = lane → ∃ applies, resolutionApplies record validAt = .ok applies := by
  constructor
  · intro success
    rcases success with ⟨folded, run⟩
    rcases bind_ok_iff.mp run with ⟨timeline, timed, _⟩
    rcases bind_ok_iff.mp timed with ⟨applicable, filtered, _⟩
    intro record found isLane
    exact (filterM_ok_iff.mp filtered).1 record
      ((mem_resolutionsOfLane keyed lane record).mpr ⟨found, isLane⟩)
  · intro each
    have filtered : ∀ record ∈ (groupResolutionHistory resolutionsById).2[lane]?.getD [],
        ∃ applies, resolutionApplies record validAt = .ok applies := by
      intro record listed
      rcases (mem_resolutionsOfLane keyed lane record).mp listed with ⟨found, isLane⟩
      exact each record found isLane
    have timed : ∃ timeline, timelineOf ((groupResolutionHistory resolutionsById).2[lane]?.getD [])
        events validAt = .ok timeline := by
      rw [timelineOf, bind_of_ok (filterM_of_decided filtered)]
      exact ⟨_, rfl⟩
    rcases timed with ⟨timeline, timed⟩
    have steps : ∀ state, ∀ entry ∈ timeline,
        ∃ next, timelineStep resolutionsById validAt state entry = .ok next := by
      intro state entry listed
      cases entry with
      | resolution record => exact ⟨_, rfl⟩
      | event event =>
          by_cases isOpen : event.status ≠ .resolved
          · rw [timelineStep, if_pos isOpen]
            exact ⟨_, rfl⟩
          · have isEvent : event ∈ events := by
              rcases ((timelineOf_ok timed).1 _).mp listed with
                ⟨_, _, _, impossible⟩ | ⟨other, isOne, same⟩
              · cases impossible
              · injection same with same
                rw [← same]
                exact isOne
            rcases designated_exists keyed (own event isEvent) each with ⟨named, isNamed⟩
            rw [timelineStep, if_neg isOpen, bind_of_ok isNamed]
            cases named with
            | none => exact ⟨_, rfl⟩
            | some record => exact ⟨_, rfl⟩
    rcases exists_foldlM_ok steps .start with ⟨folded, looped⟩
    exact ⟨folded, by rw [foldLane, bind_of_ok timed, looped]⟩

/-- The lifecycle can be folded when all resolutions can be compared with the instant. -/
theorem foldLifecycle_ok_iff {resolutionsById : Dict String ResolutionRecord}
    {eventsById : Dict String ConflictLifecycleEvent}
    (keyed : Keyed resolutionsById (·.resolutionId)) (eventsKeyed : Keyed eventsById (·.eventId))
    (conflictsByRef : Dict String ConflictSet) (validAt : Option String) :
    (∃ fold, foldLifecycle resolutionsById (groupResolutionHistory resolutionsById).2
        (groupLifecycleHistory eventsById).2 conflictsByRef validAt = .ok fold) ↔
      ∀ (recordId : String) (record : ResolutionRecord), resolutionsById[recordId]? = some record →
        ∃ applies, resolutionApplies record validAt = .ok applies := by
  have own : ∀ lane : Lane, ∀ event ∈ (groupLifecycleHistory eventsById).2[lane]?.getD [],
      event.lane = lane := fun lane event listed => ((mem_eventsOfLane eventsKeyed lane event).mp
    listed).2
  constructor
  · intro success
    rcases success with ⟨fold, run⟩
    intro recordId record found
    have isId : record.resolutionId = recordId := keyed recordId record found
    rcases foldLifecycle_lookup run record.lane with ⟨folded, laneRun, _⟩
    exact (foldLane_ok_iff keyed (own record.lane) validAt).mp ⟨folded, laneRun⟩ record
      (by rw [isId]; exact found) rfl
  · intro each
    apply foldLifecycle_ok
    intro lane
    apply (foldLane_ok_iff keyed (own lane) validAt).mpr
    intro record found _
    exact each _ record found

section Widened

variable {isAdded : Op → Bool} {scope : Option String} {ops : List Op}
  {narrow wide : Collected}

/-- An added resolution is of another scope. -/
theorem Collected.Widens.foreign_resolution (widens : narrow.Widens isAdded ops wide)
    (adds : AddsScoped isAdded scope ops) {recordId : String} {record : ResolutionRecord}
    (found : wide.resolutionsById[recordId]? = some record)
    (visible : record.scope = none ∨ record.scope = scope) :
    narrow.resolutionsById[recordId]? = some record := by
  rcases (widens.resolutions.found recordId record).mp found with
    also | ⟨⟨header, listed, isOne⟩, _⟩
  · exact also
  · have foreign := adds.foreign _ listed isOne
    simp only [Op.isOfOtherScope, decide_eq_true_eq] at foreign
    rcases visible with global | same
    · exact absurd global foreign.1
    · exact absurd same foreign.2

theorem Collected.Widens.foreign_event (widens : narrow.Widens isAdded ops wide)
    (adds : AddsScoped isAdded scope ops) {recordId : String} {record : ConflictLifecycleEvent}
    (found : wide.lifecycleEventsById[recordId]? = some record)
    (visible : record.scope = none ∨ record.scope = scope) :
    narrow.lifecycleEventsById[recordId]? = some record := by
  rcases (widens.events.found recordId record).mp found with also | ⟨⟨header, listed, isOne⟩, _⟩
  · exact also
  · have foreign := adds.foreign _ listed isOne
    simp only [Op.isOfOtherScope, decide_eq_true_eq] at foreign
    rcases visible with global | same
    · exact absurd global foreign.1
    · exact absurd same foreign.2

/-- An event of a visible lane designates the same resolution, even when it names an added
one. -/
theorem designated_widened (widens : narrow.Widens isAdded ops wide)
    (adds : AddsScoped isAdded scope ops) {event : ConflictLifecycleEvent}
    (visible : event.scope = none ∨ event.scope = scope) (validAt : Option String) :
    designated narrow.resolutionsById validAt event =
      designated wide.resolutionsById validAt event := by
  unfold designated
  cases found : wide.resolutionsById[event.resolutionId.getD ""]? with
  | none =>
      have missing : narrow.resolutionsById[event.resolutionId.getD ""]? = none := by
        cases also : narrow.resolutionsById[event.resolutionId.getD ""]? with
        | none => rfl
        | some record =>
            rw [(widens.resolutions.found _ record).mpr (Or.inl also)] at found
            cases found
      rw [missing]
  | some record =>
      by_cases sameScope : record.scope = event.scope
      · rw [widens.foreign_resolution adds found (by rw [sameScope]; exact visible)]
      · -- The record is of another scope, whether it was added or not.
        cases also : narrow.resolutionsById[event.resolutionId.getD ""]? with
        | none =>
            simp only
            rw [if_pos (Or.inr (Or.inl sameScope))]
        | some other =>
            have isOther := (widens.resolutions.found _ other).mpr (Or.inl also)
            rw [found] at isOther
            injection isOther with isOther
            rw [isOther]

/-- The lanes that the view of the scope looks at are folded alike. -/
theorem foldLane_widened (widens : narrow.Widens isAdded ops wide)
    (adds : AddsScoped isAdded scope ops) (narrowKeyed : narrow.RecordsKeyed)
    (wideKeyed : wide.RecordsKeyed) {lane : Lane} (visible : lane.VisibleIn scope)
    (validAt : Option String) :
    (groupResolutionHistory narrow.resolutionsById).2[lane]?.getD [] =
        (groupResolutionHistory wide.resolutionsById).2[lane]?.getD [] ∧
      (groupLifecycleHistory narrow.lifecycleEventsById).2[lane]?.getD [] =
        (groupLifecycleHistory wide.lifecycleEventsById).2[lane]?.getD [] ∧
      foldLane narrow.resolutionsById
          ((groupResolutionHistory narrow.resolutionsById).2[lane]?.getD [])
          ((groupLifecycleHistory narrow.lifecycleEventsById).2[lane]?.getD []) validAt =
        foldLane wide.resolutionsById
          ((groupResolutionHistory wide.resolutionsById).2[lane]?.getD [])
          ((groupLifecycleHistory wide.lifecycleEventsById).2[lane]?.getD []) validAt := by
  have resolutions : (groupResolutionHistory narrow.resolutionsById).2[lane]?.getD [] =
      (groupResolutionHistory wide.resolutionsById).2[lane]?.getD [] := by
    apply resolutionsOfLane_eq narrowKeyed.resolutions wideKeyed.resolutions
    intro record isLane
    constructor
    · intro found
      exact (widens.resolutions.found _ record).mpr (Or.inl found)
    · intro found
      rw [← isLane] at visible
      exact widens.foreign_resolution adds found visible
  have events : (groupLifecycleHistory narrow.lifecycleEventsById).2[lane]?.getD [] =
      (groupLifecycleHistory wide.lifecycleEventsById).2[lane]?.getD [] := by
    apply eventsOfLane_eq narrowKeyed.events wideKeyed.events
    intro record isLane
    constructor
    · intro found
      exact (widens.events.found _ record).mpr (Or.inl found)
    · intro found
      rw [← isLane] at visible
      exact widens.foreign_event adds found visible
  refine ⟨resolutions, events, ?_⟩
  rw [resolutions, events]
  apply foldLane_of_designated
  intro event listed
  have isLane := ((mem_eventsOfLane wideKeyed.events lane event).mp listed).2
  rw [← isLane] at visible
  exact designated_widened widens adds visible validAt

end Widened

/-! ## Materializing -/

/-- The bounds that a resolution gives for its validity. -/
def ResolutionRecord.givenBounds (resolution : ResolutionRecord) : List String :=
  [truthy resolution.validFrom, truthy resolution.validUntil].reduceOption

/-- A resolution can be compared with an instant when the bounds it gives are timestamps. -/
theorem resolutionApplies_exists_iff (resolution : ResolutionRecord) {validAt : Option String}
    (instant : checkInstant validAt = .ok ()) :
    (∃ applies, resolutionApplies resolution validAt = .ok applies) ↔
      (validAt = none ∨ ∀ bound ∈ resolution.givenBounds, Parses bound) := by
  cases validAt with
  | none => exact ⟨fun _ => Or.inl rfl, fun _ => ⟨true, rfl⟩⟩
  | some text =>
      rcases map_ok_iff.mp instant with ⟨time, parsed, _⟩
      have bounds : (∀ bound ∈ resolution.givenBounds, Parses bound) ↔
          (∃ start, readBound (truthy resolution.validFrom) = .ok start) ∧
            ∃ stop, readBound (truthy resolution.validUntil) = .ok stop := by
        rw [readBound_exists_iff, readBound_exists_iff, ResolutionRecord.givenBounds]
        simp only [List.reduceOption_mem_iff, List.mem_cons, List.not_mem_nil, or_false]
        constructor
        · intro parses
          exact ⟨fun text given => parses text (Or.inl given.symm),
            fun text given => parses text (Or.inr given.symm)⟩
        · intro parses text given
          rcases given with isFrom | isUntil
          · exact parses.1 text isFrom.symm
          · exact parses.2 text isUntil.symm
      rw [bounds]
      constructor
      · intro success
        rcases success with ⟨applies, decided⟩
        rw [resolutionApplies, bind_of_ok parsed] at decided
        rcases bind_ok_iff.mp decided with ⟨start, readFrom, rest⟩
        rcases bind_ok_iff.mp rest with ⟨stop, readUntil, _⟩
        exact Or.inr ⟨⟨start, readFrom⟩, ⟨stop, readUntil⟩⟩
      · intro either
        rcases either with impossible | ⟨⟨start, readFrom⟩, ⟨stop, readUntil⟩⟩
        · cases impossible
        · rw [resolutionApplies, bind_of_ok parsed, bind_of_ok readFrom, bind_of_ok readUntil]
          exact ⟨_, rfl⟩

/-- The state without its resolutions, its events and what is derived from them. -/
def MemoryState.withoutResolutions (state : MemoryState) : MemoryState :=
  { state with
    resolutionsById := ∅
    lifecycleEventsById := ∅
    resolutionsByConflictRef := ∅
    resolutionsByConflictRefAndScope := ∅
    lifecycleHistoryByConflictRef := ∅
    lifecycleHistoryByConflictRefAndScope := ∅
    effectiveResolutionsByConflictRefAndScope := ∅
    activeResolutionsByConflictRefAndScope := ∅
    lifecycleStatusByConflictRefAndScope := ∅
    resolutionIdsByClaimId := ∅ }

/-- Two states that differ in the lanes of other scopes at most. -/
structure MemoryState.AgreesOn (scope : Option String) (first second : MemoryState) : Prop where
  same : first.withoutResolutions = second.withoutResolutions
  history : ∀ lane : Lane, lane.VisibleIn scope →
    ((lane ∈ first.resolutionsByConflictRefAndScope ∨
        lane ∈ first.lifecycleHistoryByConflictRefAndScope) ↔
      (lane ∈ second.resolutionsByConflictRefAndScope ∨
        lane ∈ second.lifecycleHistoryByConflictRefAndScope))
  active : ∀ lane : Lane, lane.VisibleIn scope →
    first.activeResolutionsByConflictRefAndScope[lane]? =
      second.activeResolutionsByConflictRefAndScope[lane]?
  effective : ∀ lane : Lane, lane.VisibleIn scope →
    first.effectiveResolutionsByConflictRefAndScope[lane]? =
      second.effectiveResolutionsByConflictRefAndScope[lane]?
  statuses : ∀ lane : Lane, lane.VisibleIn scope →
    first.lifecycleStatusByConflictRefAndScope[lane]? =
      second.lifecycleStatusByConflictRefAndScope[lane]?

section States

variable {isAdded : Op → Bool} {scope : Option String} {ops : List Op}
  {narrow wide : Collected} {registry : PredicateRegistry} {validAt : Option String}
  {context : JSONObject}

theorem Collected.Widens.partitionClaims_eq (widens : narrow.Widens isAdded ops wide) :
    partitionClaims wide (inactiveIds wide) validAt context =
      partitionClaims narrow (inactiveIds narrow) validAt context := by
  rw [widens.same]
  rfl

theorem Collected.Widens.detectionContext_eq (widens : narrow.Widens isAdded ops wide)
    (active : Dict ClaimKey (List Claim)) (decisions : List Decision) :
    detectionContext registry active wide.evidenceById wide.sourcesById wide.derivationsById
        decisions =
      detectionContext registry active narrow.evidenceById narrow.sourcesById
        narrow.derivationsById decisions := by
  rw [widens.same]

/-- A visible lane is listed in both states or in neither. -/
theorem history_widened (widens : narrow.Widens isAdded ops wide)
    (adds : AddsScoped isAdded scope ops) (narrowKeyed : narrow.RecordsKeyed)
    (wideKeyed : wide.RecordsKeyed) {lane : Lane} (visible : lane.VisibleIn scope) :
    (lane ∈ (groupResolutionHistory narrow.resolutionsById).2 ∨
        lane ∈ (groupLifecycleHistory narrow.lifecycleEventsById).2) ↔
      (lane ∈ (groupResolutionHistory wide.resolutionsById).2 ∨
        lane ∈ (groupLifecycleHistory wide.lifecycleEventsById).2) := by
  apply or_congr
  · rw [mem_resolutionLanes narrowKeyed.resolutions, mem_resolutionLanes wideKeyed.resolutions]
    constructor
    · intro listed
      rcases listed with ⟨record, found, isLane⟩
      exact ⟨record, (widens.resolutions.found _ record).mpr (Or.inl found), isLane⟩
    · intro listed
      rcases listed with ⟨record, found, isLane⟩
      rw [← isLane] at visible
      exact ⟨record, widens.foreign_resolution adds found visible, isLane⟩
  · rw [mem_eventLanes narrowKeyed.events, mem_eventLanes wideKeyed.events]
    constructor
    · intro listed
      rcases listed with ⟨record, found, isLane⟩
      exact ⟨record, (widens.events.found _ record).mpr (Or.inl found), isLane⟩
    · intro listed
      rcases listed with ⟨record, found, isLane⟩
      rw [← isLane] at visible
      exact ⟨record, widens.foreign_event adds found visible, isLane⟩

/-- A visible lane ends alike in both states. -/
theorem foldLifecycle_widened (widens : narrow.Widens isAdded ops wide)
    (adds : AddsScoped isAdded scope ops) (narrowKeyed : narrow.RecordsKeyed)
    (wideKeyed : wide.RecordsKeyed) {conflictsByRef : Dict String ConflictSet}
    {narrowFold wideFold : LifecycleFold}
    (narrowRun : foldLifecycle narrow.resolutionsById
      (groupResolutionHistory narrow.resolutionsById).2
      (groupLifecycleHistory narrow.lifecycleEventsById).2 conflictsByRef validAt =
        .ok narrowFold)
    (wideRun : foldLifecycle wide.resolutionsById (groupResolutionHistory wide.resolutionsById).2
      (groupLifecycleHistory wide.lifecycleEventsById).2 conflictsByRef validAt = .ok wideFold)
    {lane : Lane} (visible : lane.VisibleIn scope) :
    narrowFold.view lane = wideFold.view lane := by
  rcases foldLifecycle_lookup narrowRun lane with ⟨narrowState, narrowLane, narrowView⟩
  rcases foldLifecycle_lookup wideRun lane with ⟨wideState, wideLane, wideView⟩
  have same := (foldLane_widened widens adds narrowKeyed wideKeyed visible validAt).2.2
  rw [narrowLane, wideLane] at same
  injection same with same
  rw [narrowView, wideView, same]

/-- The states that are computed from the two collections agree. -/
theorem state_widened (widens : narrow.Widens isAdded ops wide)
    (adds : AddsScoped isAdded scope ops) (narrowKeyed : narrow.RecordsKeyed)
    (wideKeyed : wide.RecordsKeyed) (active : Dict ClaimKey (List Claim))
    (inapplicable : PySet String) (decisions : List Decision) (conflicts : List ConflictSet)
    (indexes : Dict ClaimKey DirectConflictIndex) {narrowFold wideFold : LifecycleFold}
    (narrowRun : foldLifecycle narrow.resolutionsById
      (groupResolutionHistory narrow.resolutionsById).2
      (groupLifecycleHistory narrow.lifecycleEventsById).2
      (Dict.ofItems (·.conflictRef) conflicts) validAt = .ok narrowFold)
    (wideRun : foldLifecycle wide.resolutionsById (groupResolutionHistory wide.resolutionsById).2
      (groupLifecycleHistory wide.lifecycleEventsById).2
      (Dict.ofItems (·.conflictRef) conflicts) validAt = .ok wideFold) :
    (narrow.state registry active inapplicable decisions conflicts indexes narrowFold).AgreesOn
      scope (wide.state registry active inapplicable decisions conflicts indexes wideFold) := by
  have view : ∀ lane : Lane, lane.VisibleIn scope → narrowFold.view lane = wideFold.view lane :=
    fun lane visible => foldLifecycle_widened widens adds narrowKeyed wideKeyed narrowRun wideRun
      visible
  constructor
  · rw [widens.same]
    rfl
  · exact fun lane visible => history_widened widens adds narrowKeyed wideKeyed visible
  · exact fun lane visible => congrArg LaneView.active (view lane visible)
  · exact fun lane visible => congrArg LaneView.effective (view lane visible)
  · exact fun lane visible => congrArg LaneView.status (view lane visible)

end States

section Logs

variable {isAdded : Op → Bool} {scope : Option String} {log wide : OpLog}
  {registry : PredicateRegistry} {detectors : List ConflictDetector} {validAt : Option String}
  {context : JSONObject} {state : MemoryState}

/-- Leaving the added operations out changes nothing about the visible lanes. -/
theorem materialize_without (parts : log.iterOps = wide.iterOps.filter fun op => !isAdded op)
    (adds : AddsScoped isAdded scope wide.iterOps)
    (run : materialize wide registry detectors validAt context = .ok state) :
    ∃ narrowState, materialize log registry detectors validAt context = .ok narrowState ∧
      narrowState.AgreesOn scope state := by
  rcases materialize_ok_iff.mp run with ⟨instant, collected, isCollected, active, isActive,
    decisions, isDecisions, conflicts, isConflicts, indexes, isIndexes, fold, isFold, isState⟩
  rcases collect_widened registry adds with
    ⟨narrow, other, narrowCollected, alsoCollected, widens⟩ | ⟨_, failure, _, fails⟩
  · rw [isCollected] at alsoCollected
    injection alsoCollected with same
    subst same
    rw [← parts] at narrowCollected
    have narrowKeyed := collect_keyed narrowCollected
    have wideKeyed := collect_keyed isCollected
    have readable := (foldLifecycle_ok_iff wideKeyed.resolutions wideKeyed.events _ validAt).mp
      ⟨fold, isFold⟩
    rcases (foldLifecycle_ok_iff narrowKeyed.resolutions narrowKeyed.events
      (Dict.ofItems (·.conflictRef) conflicts) validAt).mpr (fun recordId record found =>
        readable recordId record
          ((widens.resolutions.found recordId record).mpr (Or.inl found))) with
      ⟨narrowFold, narrowFolds⟩
    have decisionsById : collected.decisionsById = narrow.decisionsById := by rw [widens.same]
    refine ⟨_, materialize_ok_iff.mpr ⟨instant, narrow, narrowCollected, active, ?_, decisions,
      ?_, conflicts, ?_, indexes, isIndexes, narrowFold, narrowFolds, rfl⟩, ?_⟩
    · rw [← widens.partitionClaims_eq]
      exact isActive
    · rw [← decisionsById]
      exact isDecisions
    · rw [← widens.detectionContext_eq]
      exact isConflicts
    · rw [← isState]
      exact state_widened widens adds narrowKeyed wideKeyed _ _ _ _ _ narrowFolds isFold
  · rw [isCollected] at fails
    cases fails

/-- With the added operations, the log can be materialized when the resolutions among them can
be compared with the instant. -/
theorem materialize_with_iff (parts : log.iterOps = wide.iterOps.filter fun op => !isAdded op)
    (adds : AddsScoped isAdded scope wide.iterOps)
    (run : materialize log registry detectors validAt context = .ok state) :
    (∃ wideState, materialize wide registry detectors validAt context = .ok wideState) ↔
      (validAt = none ∨ ∀ header resolution, Op.resolutionAdded header resolution ∈ wide.iterOps →
        isAdded (.resolutionAdded header resolution) = true →
          ∀ bound ∈ resolution.givenBounds, Parses bound) := by
  rcases materialize_ok_iff.mp run with ⟨instant, narrow, isCollected, active, isActive,
    decisions, isDecisions, conflicts, isConflicts, indexes, isIndexes, fold, isFold, isState⟩
  have narrowKeyed := collect_keyed isCollected
  have readable := (foldLifecycle_ok_iff narrowKeyed.resolutions narrowKeyed.events _ validAt).mp
    ⟨fold, isFold⟩
  have widened := collect_widened registry adds
  rw [← parts, isCollected] at widened
  rcases widened with ⟨other, collected, same, wideCollected, widens⟩ | ⟨_, _, fails, _⟩
  · injection same with same
    subst same
    have wideKeyed := collect_keyed wideCollected
    have all : (∀ (recordId : String) (record : ResolutionRecord),
        collected.resolutionsById[recordId]? = some record →
          ∃ applies, resolutionApplies record validAt = .ok applies) ↔
        (validAt = none ∨ ∀ header resolution,
          Op.resolutionAdded header resolution ∈ wide.iterOps →
          isAdded (.resolutionAdded header resolution) = true →
            ∀ bound ∈ resolution.givenBounds, Parses bound) := by
      constructor
      · intro each
        by_cases timeless : validAt = none
        · exact Or.inl timeless
        · refine Or.inr (fun header resolution listed isOne => ?_)
          have found := (widens.resolutions.found resolution.resolutionId resolution).mpr
            (Or.inr ⟨⟨header, listed, isOne⟩, rfl⟩)
          exact ((resolutionApplies_exists_iff resolution instant).mp
            (each _ resolution found)).resolve_left timeless
      · intro given recordId record found
        rcases (widens.resolutions.found recordId record).mp found with
          also | ⟨⟨header, listed, isOne⟩, _⟩
        · exact readable recordId record also
        · apply (resolutionApplies_exists_iff record instant).mpr
          exact given.imp_right (fun each => each header record listed isOne)
    rw [← all, ← foldLifecycle_ok_iff wideKeyed.resolutions wideKeyed.events
      (Dict.ofItems (·.conflictRef) conflicts) validAt]
    constructor
    · intro success
      rcases success with ⟨wideState, wideRun⟩
      rcases materialize_ok_iff.mp wideRun with ⟨_, again, alsoCollected, wideActive, isWideActive,
        wideDecisions, isWideDecisions, wideConflicts, isWideConflicts, _, _, wideFold,
        isWideFold, _⟩
      rw [wideCollected] at alsoCollected
      injection alsoCollected with same
      subst same
      rw [widens.partitionClaims_eq, isActive] at isWideActive
      injection isWideActive with same
      subst same
      have decisionsById : collected.decisionsById = narrow.decisionsById := by rw [widens.same]
      rw [decisionsById, isDecisions] at isWideDecisions
      injection isWideDecisions with same
      subst same
      rw [widens.detectionContext_eq, isConflicts] at isWideConflicts
      injection isWideConflicts with same
      subst same
      exact ⟨wideFold, isWideFold⟩
    · intro success
      rcases success with ⟨wideFold, isWideFold⟩
      have decisionsById : collected.decisionsById = narrow.decisionsById := by rw [widens.same]
      refine ⟨_, materialize_ok_iff.mpr ⟨instant, collected, wideCollected, active, ?_, decisions,
        ?_, conflicts, ?_, indexes, isIndexes, wideFold, isWideFold, rfl⟩⟩
      · rw [widens.partitionClaims_eq]
        exact isActive
      · rw [decisionsById]
        exact isDecisions
      · rw [widens.detectionContext_eq]
        exact isConflicts
  · cases fails

end Logs

end Statefuse
