import Statefuse.Conflict.DetectionSpec
import Statefuse.Foundation.Outcome
import Statefuse.Materialize.Full
import Statefuse.Materialize.LifecycleSpec
import Statefuse.Reference

/-!
# Effective resolutions

Which resolution is effective in a lane of a current conflict, in terms of the
records of the state: the last entry of the lane's timeline designates it, and it
settles the conflict as it is now (`effective_resolution_iff`).
-/

namespace Statefuse

open Foundation

private theorem filter_length_one_iff {α : Type} {items : List α} (distinct : items.Nodup)
    (keep : α → Bool) :
    (items.filter keep).length = 1 ↔ ∃! item, item ∈ items ∧ keep item = true := by
  rw [List.length_eq_one_iff]
  constructor
  · rintro ⟨item, single⟩
    have members : ∀ other, other ∈ items ∧ keep other = true ↔ other = item := by
      intro other
      rw [← List.mem_filter, single, List.mem_singleton]
    exact ⟨item, (members item).mpr rfl, fun other kept => (members other).mp kept⟩
  · rintro ⟨item, kept, only⟩
    refine ⟨item, List.perm_singleton.mp ?_⟩
    rw [List.perm_ext_iff_of_nodup (distinct.filter keep) (List.nodup_singleton item)]
    intro other
    rw [List.mem_filter, List.mem_singleton]
    constructor
    · exact only other
    · rintro rfl
      exact kept

theorem bindRecord_ok {α : Type} [PyEq α] {records next : Dict String α} {recordId name : String}
    {record : α} (run : bindRecord records recordId record name = .ok next) :
    next = records.insert recordId record := by
  unfold bindRecord at run
  split at run
  · split at run
    · injection run with run
      exact run.symm
    · cases run
  · injection run with run
    exact run.symm

section Characterization

variable [Runtime]

/-- The entries of the timeline of a lane: its resolutions that apply, and its events. -/
inductive MemoryState.InTimeline (state : MemoryState) (validAt : Option String) (lane : Lane) :
    TimelineEntry → Prop
  | resolution (record : ResolutionRecord)
      (known : state.resolutionsById[record.resolutionId]? = some record)
      (here : record.lane = lane) (applies : resolutionApplies record validAt = .ok true) :
      InTimeline state validAt lane (.resolution record)
  | event (record : ConflictLifecycleEvent)
      (known : state.lifecycleEventsById[record.eventId]? = some record)
      (here : record.lane = lane) : InTimeline state validAt lane (.event record)

/-- No entry of the timeline comes after this one. -/
def MemoryState.IsLastEntry (state : MemoryState) (validAt : Option String) (lane : Lane)
    (entry : TimelineEntry) : Prop :=
  state.InTimeline validAt lane entry ∧
    ∀ other, state.InTimeline validAt lane other → other.order ≤ entry.order

/-- The resolution an entry stands for: itself, or the one a `resolved` event names. -/
inductive MemoryState.Designates (state : MemoryState) (validAt : Option String) :
    TimelineEntry → ResolutionRecord → Prop
  | itself (record : ResolutionRecord) : Designates state validAt (.resolution record) record
  | named (event : ConflictLifecycleEvent) (record : ResolutionRecord)
      (resolved : event.status = .resolved)
      (named : event.resolutionId = some record.resolutionId)
      (known : state.resolutionsById[record.resolutionId]? = some record)
      (sameRef : record.conflictRef = event.conflictRef) (sameScope : record.scope = event.scope)
      (sameConflict : record.observedConflictId = event.observedConflictId)
      (applies : resolutionApplies record validAt = .ok true) :
      Designates state validAt (.event event) record

/-- A resolution settles a conflict as it is now. -/
structure Settles (resolution : ResolutionRecord) (conflict : ConflictSet) : Prop where
  observed : resolution.observedConflictId = deriveConflictId conflict.key
    (sortedSet (resolution.selectedClaimIds ++ resolution.rejectedClaimIds ++
      resolution.retainedClaimIds)) conflict.conflictType conflict.keys conflict.detectorId
  covered : ∀ claim ∈ conflict.candidates, claim.claimId ∈ resolution.selectedClaimIds ∨
    claim.claimId ∈ resolution.rejectedClaimIds ∨ claim.claimId ∈ resolution.retainedClaimIds
  decided :
    (resolution.outcome = .preserve ∧ resolution.selectedClaimIds = [] ∧
      resolution.rejectedClaimIds = [] ∧
      ∀ claim ∈ conflict.candidates, claim.claimId ∈ resolution.retainedClaimIds) ∨
    ((resolution.outcome = .select ∨ resolution.outcome = .replace ∨ resolution.outcome = .merge) ∧
      ∃! claim, claim ∈ conflict.candidates ∧ claim.claimId ∈ resolution.selectedClaimIds)

/-- The verdict on an active resolution says whether it settles the conflict. -/
theorem judge_effective_iff (conflict : ConflictSet) (resolution : ResolutionRecord) :
    (judge conflict resolution).1 = true ↔ Settles resolution conflict := by
  have observed : observedMatches conflict resolution = true ↔
      resolution.observedConflictId = deriveConflictId conflict.key
        (sortedSet (resolution.selectedClaimIds ++ resolution.rejectedClaimIds ++
          resolution.retainedClaimIds)) conflict.conflictType conflict.keys
        conflict.detectorId := by
    rw [observedMatches, decide_eq_true_eq, classifiedIds]
  have covered : coversCandidates conflict resolution = true ↔
      ∀ claim ∈ conflict.candidates, claim.claimId ∈ resolution.selectedClaimIds ∨
        claim.claimId ∈ resolution.rejectedClaimIds ∨
        claim.claimId ∈ resolution.retainedClaimIds := by
    simp only [coversCandidates, classifiedIds, List.all_eq_true, decide_eq_true_eq,
      mem_sortedSet, List.mem_append, or_assoc]
  have preserved : preserves conflict resolution = true ↔
      resolution.outcome = .preserve ∧ resolution.selectedClaimIds = [] ∧
        resolution.rejectedClaimIds = [] ∧
        ∀ claim ∈ conflict.candidates, claim.claimId ∈ resolution.retainedClaimIds := by
    simp only [preserves, List.all_eq_true, decide_eq_true_eq]
  have selected : selects conflict resolution = true ↔
      (resolution.outcome = .select ∨ resolution.outcome = .replace ∨
        resolution.outcome = .merge) ∧
        ∃! claim, claim ∈ conflict.candidates ∧ claim.claimId ∈ resolution.selectedClaimIds := by
    have one := filter_length_one_iff conflict.candidates_nodup
      (fun claim => decide (claim.claimId ∈ resolution.selectedClaimIds))
    simp only [decide_eq_true_eq] at one
    simp only [selects, decide_eq_true_eq, one]
  by_cases abstains : resolution.outcome = .abstain
  · constructor
    · intro effective
      simp [judge, abstains] at effective
    · intro settles
      rcases settles.decided with ⟨outcome, _⟩ | ⟨outcome | outcome | outcome, _⟩ <;>
        rw [abstains] at outcome <;> cases outcome
  · have verdict : (judge conflict resolution).1 = true ↔
        (observedMatches conflict resolution = true ∧ coversCandidates conflict resolution = true) ∧
          (preserves conflict resolution = true ∨ selects conflict resolution = true) := by
      rw [judge, if_neg abstains, ← Bool.and_eq_true, ← Bool.or_eq_true, ← Bool.and_eq_true]
      cases (observedMatches conflict resolution && coversCandidates conflict resolution) &&
        (preserves conflict resolution || selects conflict resolution) <;> simp
    rw [verdict, observed, covered, preserved, selected]
    constructor
    · rintro ⟨⟨observed, covered⟩, decided⟩
      exact ⟨observed, covered, decided⟩
    · rintro ⟨observed, covered, decided⟩
      exact ⟨⟨observed, covered⟩, decided⟩

/-- Only an effective resolution makes a lane resolved. -/
theorem judge_resolved_iff (conflict : ConflictSet) (resolution : ResolutionRecord) :
    (judge conflict resolution).2 = .resolved ↔ (judge conflict resolution).1 = true := by
  unfold judge
  simp only
  split
  · split <;> simp
  · split <;> simp

/-- What one step of a timeline leaves, whatever was before. -/
private theorem timelineStep_ok {resolutionsById : Dict String ResolutionRecord}
    {validAt : Option String} {before after : LaneState} {entry : TimelineEntry}
    (run : timelineStep resolutionsById validAt before entry = .ok after) :
    (∃ resolution, after = .resolvedBy resolution ∧
      (entry = .resolution resolution ∨ ∃ event, entry = .event event ∧
        event.status = .resolved ∧
        designated resolutionsById validAt event = .ok (some resolution))) ∨
    (after.active = none ∧ (∃ status, after.status = some status ∧ status ≠ .resolved) ∧
      ∃ event, entry = .event event ∧ (event.status ≠ .resolved ∨
        designated resolutionsById validAt event = .ok none)) := by
  cases entry with
  | resolution resolution =>
      injection run with run
      exact Or.inl ⟨resolution, run.symm, Or.inl rfl⟩
  | event event =>
      rw [timelineStep] at run
      by_cases unresolved : event.status ≠ .resolved
      · rw [if_pos unresolved] at run
        injection run with run
        subst run
        exact Or.inr ⟨rfl, ⟨event.status, rfl, unresolved⟩, event, rfl, Or.inl unresolved⟩
      · rw [if_neg unresolved, bind_ok_iff] at run
        obtain ⟨found, named, run⟩ := run
        cases found with
        | none =>
            simp only [pure_ok_iff] at run
            subst run
            exact Or.inr ⟨rfl, ⟨.opened, rfl, by simp⟩, event, rfl, Or.inr named⟩
        | some resolution =>
            simp only [pure_ok_iff] at run
            subst run
            exact Or.inl ⟨resolution, rfl, Or.inr ⟨event, rfl, not_not.mp unresolved, named⟩⟩

/-- A timeline without entries leaves the start; otherwise the last entry decides. -/
private theorem foldlM_timelineStep {resolutionsById : Dict String ResolutionRecord}
    {validAt : Option String} {timeline : List TimelineEntry} {result : LaneState}
    (run : timeline.foldlM (timelineStep resolutionsById validAt) .start = .ok result) :
    (timeline = [] ∧ result = .start) ∨
      ∃ entries last, timeline = entries ++ [last] ∧
        timelineStep resolutionsById validAt .start last = .ok result := by
  rcases List.eq_nil_or_concat' timeline with empty | ⟨entries, last, split⟩
  · subst empty
    rw [List.foldlM_nil, pure_ok_iff] at run
    exact Or.inl ⟨rfl, run.symm⟩
  · subst split
    rw [List.foldlM_append, bind_ok_iff] at run
    obtain ⟨before, _, run⟩ := run
    rw [List.foldlM_cons, bind_ok_iff] at run
    obtain ⟨after, stepped, run⟩ := run
    rw [List.foldlM_nil, pure_ok_iff] at run
    subst run
    exact Or.inr ⟨entries, last, rfl, stepped⟩

/-! ## The records of a state -/

/-- Resolutions and events are under their own ids. -/
structure Collected.RecordsKeyed (collected : Collected) : Prop where
  resolutions : Keyed collected.resolutionsById (·.resolutionId)
  events : Keyed collected.lifecycleEventsById (·.eventId)

private theorem collectStep_keyed {registry : PredicateRegistry} {before after : Collected}
    {op : Op}
    (keyed : before.RecordsKeyed) (run : collectStep registry before op = .ok after) :
    after.RecordsKeyed := by
  cases op with
  | resolutionAdded header resolution =>
      rw [collectStep, bind_ok_iff] at run
      obtain ⟨records, bound, run⟩ := run
      rw [pure_ok_iff] at run
      rw [bindRecord_ok bound] at run
      subst run
      exact ⟨keyed.resolutions.insert resolution, keyed.events⟩
  | conflictLifecycleEventAdded header event =>
      rw [collectStep, bind_ok_iff] at run
      obtain ⟨records, bound, run⟩ := run
      rw [pure_ok_iff] at run
      rw [bindRecord_ok bound] at run
      subst run
      exact ⟨keyed.resolutions, keyed.events.insert event⟩
  | claimRetracted retraction =>
      injection run with run
      subst run
      exact ⟨keyed.resolutions, keyed.events⟩
  | _ =>
      rw [collectStep, bind_ok_iff] at run
      obtain ⟨records, bound, run⟩ := run
      rw [pure_ok_iff] at run
      subst run
      exact ⟨keyed.resolutions, keyed.events⟩

theorem collect_keyed {registry : PredicateRegistry} {ops : List Op} {collected : Collected}
    (run : ops.foldlM (collectStep registry) .empty = .ok collected) : collected.RecordsKeyed :=
  foldlM_invariant (fun _ state => state.RecordsKeyed) ops _ _ run
    ⟨Keyed.empty, Keyed.empty⟩
    (fun _ _ _ _ keyed _ stepped => collectStep_keyed keyed stepped)

/-- The resolutions of a lane, as grouped for the fold. -/
theorem mem_resolutionsOfLane {resolutionsById : Dict String ResolutionRecord}
    (keyed : Keyed resolutionsById (·.resolutionId)) (lane : Lane) (record : ResolutionRecord) :
    record ∈ (groupResolutionHistory resolutionsById).2[lane]?.getD [] ↔
      resolutionsById[record.resolutionId]? = some record ∧ record.lane = lane := by
  have grouped : Groups ResolutionRecord.order
      (groupBy ResolutionRecord.lane (Dict.values resolutionsById)) _ :=
    groups_groupBy ResolutionRecord.lane (keyed.lists.values_distinct.imp
      (fun {first second} below same => ne_of_lt below (congrArg Prod.snd same)))
  rw [groupResolutionHistory, grouped.sortGroups.mem_getD, keyed.lists record.resolutionId record]
  simp

/-- The events of a lane, as grouped for the fold. -/
theorem mem_eventsOfLane {eventsById : Dict String ConflictLifecycleEvent}
    (keyed : Keyed eventsById (·.eventId)) (lane : Lane) (record : ConflictLifecycleEvent) :
    record ∈ (groupLifecycleHistory eventsById).2[lane]?.getD [] ↔
      eventsById[record.eventId]? = some record ∧ record.lane = lane := by
  have grouped : Groups ConflictLifecycleEvent.order
      (groupBy ConflictLifecycleEvent.lane (Dict.values eventsById)) _ :=
    groups_groupBy ConflictLifecycleEvent.lane (keyed.lists.values_distinct.imp
      (fun {first second} below same => ne_of_lt below (congrArg Prod.snd same)))
  rw [groupLifecycleHistory, grouped.sortGroups.mem_getD, keyed.lists record.eventId record]
  simp

/-- A lane is listed when some record has it. -/
theorem mem_resolutionLanes {resolutionsById : Dict String ResolutionRecord}
    (keyed : Keyed resolutionsById (·.resolutionId)) (lane : Lane) :
    lane ∈ (groupResolutionHistory resolutionsById).2 ↔
      ∃ record : ResolutionRecord, resolutionsById[record.resolutionId]? = some record ∧
        record.lane = lane := by
  have grouped : Groups ResolutionRecord.order
      (groupBy ResolutionRecord.lane (Dict.values resolutionsById)) _ :=
    groups_groupBy ResolutionRecord.lane (keyed.lists.values_distinct.imp
      (fun {first second} below same => ne_of_lt below (congrArg Prod.snd same)))
  rw [groupResolutionHistory]
  refine (grouped.sortGroups.isSome_iff lane).trans ?_
  simp only [Dict.mem_values]
  constructor
  · rintro ⟨record, ⟨resolutionId, found⟩, here⟩
    have own : record.resolutionId = resolutionId := keyed resolutionId record found
    rw [← own] at found
    exact ⟨record, found, here⟩
  · rintro ⟨record, found, here⟩
    exact ⟨record, ⟨_, found⟩, here⟩

theorem mem_eventLanes {eventsById : Dict String ConflictLifecycleEvent}
    (keyed : Keyed eventsById (·.eventId)) (lane : Lane) :
    lane ∈ (groupLifecycleHistory eventsById).2 ↔
      ∃ record : ConflictLifecycleEvent, eventsById[record.eventId]? = some record ∧
        record.lane = lane := by
  have grouped : Groups ConflictLifecycleEvent.order
      (groupBy ConflictLifecycleEvent.lane (Dict.values eventsById)) _ :=
    groups_groupBy ConflictLifecycleEvent.lane (keyed.lists.values_distinct.imp
      (fun {first second} below same => ne_of_lt below (congrArg Prod.snd same)))
  rw [groupLifecycleHistory]
  refine (grouped.sortGroups.isSome_iff lane).trans ?_
  simp only [Dict.mem_values]
  constructor
  · rintro ⟨record, ⟨eventId, found⟩, here⟩
    have own : record.eventId = eventId := keyed eventId record found
    rw [← own] at found
    exact ⟨record, found, here⟩
  · rintro ⟨record, found, here⟩
    exact ⟨record, ⟨_, found⟩, here⟩

/-- What a `resolved` event designates, in terms of the records. -/
private theorem designated_ok_iff {resolutionsById : Dict String ResolutionRecord}
    (keyed : Keyed resolutionsById (·.resolutionId)) (validAt : Option String)
    (event : ConflictLifecycleEvent) (record : ResolutionRecord) :
    designated resolutionsById validAt event = .ok (some record) ↔
      event.resolutionId = some record.resolutionId ∧
      resolutionsById[record.resolutionId]? = some record ∧
      record.conflictRef = event.conflictRef ∧ record.scope = event.scope ∧
      record.observedConflictId = event.observedConflictId ∧
      resolutionApplies record validAt = .ok true := by
  rw [designated]
  constructor
  · intro named
    cases found : resolutionsById[event.resolutionId.getD ""]? with
    | none =>
        simp only [found] at named
        injection named with impossible
        cases impossible
    | some candidate =>
        simp only [found] at named
        by_cases other : candidate.conflictRef ≠ event.conflictRef ∨
            candidate.scope ≠ event.scope ∨
            candidate.observedConflictId ≠ event.observedConflictId
        · rw [if_pos other] at named
          injection named with impossible
          cases impossible
        · rw [if_neg other, bind_ok_iff] at named
          obtain ⟨applies, decided, same⟩ := named
          rw [pure_ok_iff] at same
          cases applies with
          | false =>
              injection same
          | true =>
              injection same with same
              subst same
              have ownId : candidate.resolutionId = _ := keyed _ _ found
              simp only [not_or, not_not] at other
              refine ⟨?_, ?_, other.1, other.2.1, other.2.2, decided⟩
              · cases absent : event.resolutionId with
                | none =>
                    rw [absent, Option.getD_none] at ownId
                    exact absurd ownId candidate.valid.identifiersPresent.1
                | some resolutionId =>
                    rw [absent, Option.getD_some] at ownId
                    rw [ownId]
              · rw [ownId]
                exact found
  · rintro ⟨named, found, sameRef, sameScope, sameConflict, applies⟩
    simp only [named, Option.getD_some, found, sameRef, sameScope, sameConflict, ne_eq,
      not_true_eq_false, or_self, if_false]
    rw [bind_ok_iff]
    exact ⟨true, applies, rfl⟩

/-- The entries of a timeline, and their order. -/
theorem timelineOf_ok {resolutions : List ResolutionRecord}
    {events : List ConflictLifecycleEvent} {validAt : Option String}
    {timeline : List TimelineEntry} (run : timelineOf resolutions events validAt = .ok timeline) :
    (∀ entry, entry ∈ timeline ↔
      (∃ record ∈ resolutions, resolutionApplies record validAt = .ok true ∧
        TimelineEntry.resolution record = entry) ∨
      ∃ record ∈ events, TimelineEntry.event record = entry) ∧
    timeline.Pairwise (fun first second => first.order ≤ second.order) := by
  rw [timelineOf, bind_ok_iff] at run
  obtain ⟨applicable, filtered, same⟩ := run
  rw [pure_ok_iff] at same
  obtain ⟨_, kept⟩ := filterM_ok_iff.mp filtered
  subst same
  subst kept
  refine ⟨?_, sortBy_pairwise _ _⟩
  intro entry
  simp only [mem_sortBy, List.mem_append, List.mem_map, List.mem_filter, passes_iff, and_assoc]

section Lanes

variable {state : MemoryState} {validAt : Option String}

/-- Entries of one timeline are told apart by the order. -/
private theorem inTimeline_unique {lane : Lane} {first second : TimelineEntry}
    (firstListed : state.InTimeline validAt lane first)
    (secondListed : state.InTimeline validAt lane second) (same : first.order = second.order) :
    first = second := by
  cases firstListed with
  | resolution record known here applies =>
      cases secondListed with
      | resolution other otherKnown otherHere otherApplies =>
          have ids : record.resolutionId = other.resolutionId :=
            congrArg (fun order => (ofLex (ofLex order).2).2) same
          rw [ids, otherKnown, Option.some.injEq] at known
          rw [known]
      | event other otherKnown otherHere =>
          have kinds : (0 : Nat) = 1 := congrArg (fun order => (ofLex (ofLex order).2).1) same
          cases kinds
  | event record known here =>
      cases secondListed with
      | resolution other otherKnown otherHere otherApplies =>
          have kinds : (1 : Nat) = 0 := congrArg (fun order => (ofLex (ofLex order).2).1) same
          cases kinds
      | event other otherKnown otherHere =>
          have ids : record.eventId = other.eventId :=
            congrArg (fun order => (ofLex (ofLex order).2).2) same
          rw [ids, otherKnown, Option.some.injEq] at known
          rw [known]

/-- An entry designates at most one resolution. -/
private theorem designates_unique {entry : TimelineEntry} {first second : ResolutionRecord}
    (firstShown : state.Designates validAt entry first)
    (secondShown : state.Designates validAt entry second) : first = second := by
  cases firstShown with
  | itself =>
      cases secondShown
      rfl
  | named event _ _ firstName firstKnown =>
      cases secondShown with
      | named _ _ _ secondName secondKnown =>
          rw [firstName, Option.some.injEq] at secondName
          rw [secondName, secondKnown, Option.some.injEq] at firstKnown
          exact firstKnown.symm

/-- What a folded lane says: the active resolution is the one its last entry designates,
without one the lane is not resolved, and a lane without entries has no status. -/
structure LaneState.Folds (folded : LaneState) (state : MemoryState) (validAt : Option String)
    (lane : Lane) : Prop where
  active : ∀ resolution, folded.active = some resolution ↔
    ∃ entry, state.IsLastEntry validAt lane entry ∧ state.Designates validAt entry resolution
  idle : folded.active = none → folded.status ≠ some .resolved
  untouched : folded.status = none ↔ ∀ entry, ¬state.InTimeline validAt lane entry

private theorem foldLane_folds {lane : Lane} {folded : LaneState}
    (resolutionsKeyed : Keyed state.resolutionsById (·.resolutionId))
    (eventsKeyed : Keyed state.lifecycleEventsById (·.eventId))
    (run : foldLane state.resolutionsById
      ((groupResolutionHistory state.resolutionsById).2[lane]?.getD [])
      ((groupLifecycleHistory state.lifecycleEventsById).2[lane]?.getD []) validAt = .ok folded) :
    folded.Folds state validAt lane := by
  rw [foldLane, bind_ok_iff] at run
  obtain ⟨timeline, built, run⟩ := run
  obtain ⟨entries, ordered⟩ := timelineOf_ok built
  have listed : ∀ entry, entry ∈ timeline ↔ state.InTimeline validAt lane entry := by
    intro entry
    rw [entries entry]
    constructor
    · rintro (⟨record, member, applies, same⟩ | ⟨record, member, same⟩)
      · obtain ⟨known, here⟩ := (mem_resolutionsOfLane resolutionsKeyed lane record).mp member
        subst same
        exact .resolution record known here applies
      · obtain ⟨known, here⟩ := (mem_eventsOfLane eventsKeyed lane record).mp member
        subst same
        exact .event record known here
    · intro entered
      cases entered with
      | resolution record known here applies =>
          exact Or.inl ⟨record,
            (mem_resolutionsOfLane resolutionsKeyed lane record).mpr ⟨known, here⟩, applies, rfl⟩
      | event record known here =>
          exact Or.inr ⟨record, (mem_eventsOfLane eventsKeyed lane record).mpr ⟨known, here⟩, rfl⟩
  rcases foldlM_timelineStep run with ⟨empty, same⟩ | ⟨before, last, split, stepped⟩
  · subst same
    have nothing : ∀ entry, ¬state.InTimeline validAt lane entry := by
      intro entry entered
      rw [← listed, empty] at entered
      cases entered
    refine ⟨?_, fun _ => by simp [LaneState.start], fun _ => nothing, fun _ => rfl⟩
    intro resolution
    constructor
    · intro impossible
      cases impossible
    · rintro ⟨entry, ⟨entered, _⟩, _⟩
      exact absurd entered (nothing entry)
  · have lastEntry : state.IsLastEntry validAt lane last := by
      refine ⟨(listed last).mp (by simp [split]), ?_⟩
      intro other entered
      rw [← listed, split, List.mem_append, List.mem_singleton] at entered
      rw [split] at ordered
      rcases entered with earlier | same
      · exact (List.pairwise_append.mp ordered).2.2 other earlier last (List.mem_singleton_self _)
      · rw [same]
    have only : ∀ entry, state.IsLastEntry validAt lane entry → entry = last := by
      intro entry isLast
      exact inTimeline_unique isLast.1 lastEntry.1
        (le_antisymm (lastEntry.2 entry isLast.1) (isLast.2 last lastEntry.1))
    have stated : ∀ {status : Option LifecycleStatus}, status ≠ none →
        (status = none ↔ ∀ entry, ¬state.InTimeline validAt lane entry) :=
      fun present => ⟨fun absent => absurd absent present,
        fun nothing => absurd lastEntry.1 (nothing last)⟩
    rcases timelineStep_ok stepped with ⟨resolution, same, designates⟩ | ⟨idle, open_, reason⟩
    · subst same
      refine ⟨?_, fun idle => (by cases idle), stated (by simp [LaneState.resolvedBy])⟩
      have shown : state.Designates validAt last resolution := by
        rcases designates with entry | ⟨event, entry, resolved, named⟩
        · rw [entry]
          exact .itself resolution
        · obtain ⟨name, known, sameRef, sameScope, sameConflict, applies⟩ :=
            (designated_ok_iff resolutionsKeyed validAt event resolution).mp named
          rw [entry]
          exact .named event resolution resolved name known sameRef sameScope sameConflict applies
      intro other
      constructor
      · intro active
        injection active with active
        subst active
        exact ⟨last, lastEntry, shown⟩
      · rintro ⟨entry, isLast, othersShown⟩
        rw [only entry isLast] at othersShown
        rw [designates_unique othersShown shown]
        rfl
    · obtain ⟨status, statusIs, unresolvedStatus⟩ := open_
      refine ⟨?_, fun _ => by simp [statusIs, unresolvedStatus], stated (by simp [statusIs])⟩
      intro resolution
      rw [idle]
      constructor
      · intro impossible
        cases impossible
      · rintro ⟨entry, isLast, shown⟩
        obtain ⟨event, same, unresolved⟩ := reason
        rw [only entry isLast, same] at shown
        cases shown with
        | named _ _ resolved name known sameRef sameScope sameConflict applies =>
            rcases unresolved with unresolved | unnamed
            · exact absurd resolved unresolved
            · have named := (designated_ok_iff resolutionsKeyed validAt event resolution).mpr
                ⟨name, known, sameRef, sameScope, sameConflict, applies⟩
              rw [unnamed] at named
              injection named with impossible

end Lanes

section Current

variable {log : OpLog} {registry : PredicateRegistry} {detectors : List ConflictDetector}
  {validAt : Option String} {context : JSONObject} {state : MemoryState} {conflict : ConflictSet}

/-- What a state says about a lane of one of its conflicts. -/
theorem materialize_lane (run : materialize log registry detectors validAt context = .ok state)
    (current : conflict ∈ state.conflicts) (scope : Option String) :
    ∃ folded : LaneState, folded.Folds state validAt ⟨conflict.conflictRef, scope⟩ ∧
      state.effectiveResolutionsByConflictRefAndScope[Lane.mk conflict.conflictRef scope]? =
        folded.effective (some conflict) ∧
      state.lifecycleStatusByConflictRefAndScope[Lane.mk conflict.conflictRef scope]? =
        folded.finalStatus (some conflict) ⟨conflict.conflictRef, scope⟩ := by
  obtain ⟨_, collected, collects, active, _, decisions, _, conflicts, detected, indexes, _,
    lifecycle, folds, same⟩ := materialize_ok_iff.mp run
  obtain ⟨resolutionsKeyed, eventsKeyed⟩ := collect_keyed collects
  have resolutions : collected.resolutionsById = state.resolutionsById := by
    rw [← same]
    rfl
  have events : collected.lifecycleEventsById = state.lifecycleEventsById := by
    rw [← same]
    rfl
  have reported : conflicts = state.conflicts := by
    rw [← same]
    rfl
  have effectiveIs :
      state.effectiveResolutionsByConflictRefAndScope = lifecycle.effective := by
    rw [← same]
    rfl
  have statusIs : state.lifecycleStatusByConflictRefAndScope = lifecycle.statuses := by
    rw [← same]
    rfl
  rw [resolutions] at resolutionsKeyed folds
  rw [events] at eventsKeyed folds
  rw [← reported] at current
  have found := (runConflictDetectors_refs detected).get_key current
  obtain ⟨folded, laneRun, viewed⟩ := foldLifecycle_lookup folds ⟨conflict.conflictRef, scope⟩
  simp only at viewed
  rw [found] at viewed
  rw [effectiveIs, statusIs]
  exact ⟨folded, foldLane_folds resolutionsKeyed eventsKeyed laneRun,
    congrArg LaneView.effective viewed, congrArg LaneView.status viewed⟩

/-- An effective resolution settles its conflict. -/
theorem effective_settles
    (run : materialize log registry detectors validAt context = .ok state)
    (current : conflict ∈ state.conflicts) {scope : Option String} {resolution : ResolutionRecord}
    (effective : state.effectiveResolutionsByConflictRefAndScope[
      Lane.mk conflict.conflictRef scope]? = some resolution) : Settles resolution conflict := by
  obtain ⟨folded, _, effectiveIs, _⟩ := materialize_lane run current scope
  rw [effectiveIs] at effective
  cases activeIs : folded.active with
  | none =>
      simp [LaneState.effective, activeIs] at effective
  | some active =>
      simp only [LaneState.effective, activeIs] at effective
      split at effective
      · rename_i settles
        injection effective with effective
        subst effective
        exact (judge_effective_iff conflict active).mp settles
      · cases effective

/-- A lane of a current conflict is resolved when it has an effective resolution. -/
theorem resolved_iff_effective
    (run : materialize log registry detectors validAt context = .ok state)
    (current : conflict ∈ state.conflicts) (scope : Option String) :
    state.lifecycleStatusByConflictRefAndScope[Lane.mk conflict.conflictRef scope]? =
        some .resolved ↔
      ∃ resolution, state.effectiveResolutionsByConflictRefAndScope[
        Lane.mk conflict.conflictRef scope]? = some resolution := by
  obtain ⟨folded, folds, effectiveIs, statusIs⟩ := materialize_lane run current scope
  rw [effectiveIs, statusIs]
  cases activeIs : folded.active with
  | none =>
      have unresolved := folds.idle activeIs
      simp only [LaneState.effective, LaneState.finalStatus, activeIs, reduceCtorEq, exists_false,
        iff_false]
      intro resolved
      split at resolved
      · injection resolved with resolved
        cases status : folded.status with
        | none =>
            rw [status] at resolved
            cases resolved
        | some earlier =>
            rw [status, Option.getD_some] at resolved
            rw [status, resolved] at unresolved
            exact unresolved rfl
      · exact unresolved resolved
  | some resolution =>
      simp only [LaneState.effective, LaneState.finalStatus, activeIs, Option.some.injEq,
        judge_resolved_iff]
      by_cases settles : (judge conflict resolution).1 = true
      · simp [settles]
      · simp [settles]

end Current

/-- The effective resolution of a lane of a current conflict is the one that the last
entry of the lane designates, provided it settles the conflict; the lane is resolved
exactly when it has an effective resolution. -/
theorem effective_resolution_iff {log : OpLog} {registry : PredicateRegistry}
    {detectors : List ConflictDetector} {validAt : Option String} {context : JSONObject}
    {state : MemoryState} (run : materialize log registry detectors validAt context = .ok state)
    {conflict : ConflictSet} (current : conflict ∈ state.conflicts) (scope : Option String) :
    (∀ resolution, state.effectiveResolutionsByConflictRefAndScope[
        Lane.mk conflict.conflictRef scope]? = some resolution ↔
      (∃ entry, state.IsLastEntry validAt ⟨conflict.conflictRef, scope⟩ entry ∧
        state.Designates validAt entry resolution) ∧ Settles resolution conflict) ∧
    (state.lifecycleStatusByConflictRefAndScope[Lane.mk conflict.conflictRef scope]? =
        some .resolved ↔
      ∃ resolution, state.effectiveResolutionsByConflictRefAndScope[
        Lane.mk conflict.conflictRef scope]? = some resolution) := by
  refine ⟨?_, resolved_iff_effective run current scope⟩
  intro resolution
  obtain ⟨folded, folds, effectiveIs, _⟩ := materialize_lane run current scope
  rw [effectiveIs, ← folds.active resolution]
  cases activeIs : folded.active with
  | none => simp [LaneState.effective, activeIs]
  | some active =>
      simp only [LaneState.effective, activeIs, Option.some.injEq]
      by_cases settles : (judge conflict active).1 = true
      · rw [if_pos settles, Option.some.injEq]
        constructor
        · intro same
          subst same
          exact ⟨rfl, (judge_effective_iff conflict active).mp settles⟩
        · exact And.left
      · rw [if_neg settles]
        constructor
        · intro impossible
          cases impossible
        · rintro ⟨same, settled⟩
          subst same
          exact absurd ((judge_effective_iff conflict active).mpr settled) settles

end Characterization

section Example

attribute [local instance] Reference.runtime

/-- Two values for one key, and a resolution that selects the first. -/
def resolvedOps : List Op :=
  [.claimAdded ⟨"op-a", "r", "t"⟩ (Reference.fact "a" Reference.key (.str "x") []),
    .claimAdded ⟨"op-b", "r", "t"⟩ (Reference.fact "b" Reference.key (.str "y") []),
    .resolutionAdded ⟨"op-c", "r", "t"⟩ (Reference.selection "c" "a" "b"
      Reference.c_ne_empty Reference.a_ne_b)]

theorem effective_resolution_iff_selected :
    ∃ state conflict resolution,
      materialize (Reference.logOf resolvedOps) .empty [] none ∅ = .ok state ∧
      conflict ∈ state.conflicts ∧
      state.effectiveResolutionsByConflictRefAndScope[
        Lane.mk conflict.conflictRef none]? = some resolution ∧
      Settles resolution conflict ∧
      state.lifecycleStatusByConflictRefAndScope[Lane.mk conflict.conflictRef none]? =
        some .resolved := by
  have computed : ((materialize (Reference.logOf resolvedOps) .empty [] none ∅).toOption.map
      fun state => state.conflicts.map fun conflict =>
        (state.effectiveResolutionsByConflictRefAndScope[
          Lane.mk conflict.conflictRef none]?).isSome) = some [true] := by
    decide +kernel
  cases run : materialize (Reference.logOf resolvedOps) .empty [] none ∅ with
  | error failure =>
      rw [run] at computed
      cases computed
  | ok state =>
      rw [run] at computed
      injection computed with computed
      obtain ⟨conflict, single, effective⟩ := List.map_eq_singleton_iff.mp computed
      have current : conflict ∈ state.conflicts := by
        rw [single]
        exact List.mem_singleton_self conflict
      obtain ⟨resolution, found⟩ := Option.isSome_iff_exists.mp effective
      obtain ⟨characterized, resolved⟩ := effective_resolution_iff run current none
      exact ⟨state, conflict, resolution, rfl, current, found,
        ((characterized resolution).mp found).2, resolved.mpr ⟨resolution, found⟩⟩

end Example

end Statefuse
