import Statefuse.Codec
import Statefuse.Materialize.ContextQueries

/-!
# The scopes of an incompatible pair

A state without a scope reports two claims as an incompatible pair when some instant and some
context let both apply: the detector compares intervals and contexts, and a materialization
for a scope keeps the claims that apply there.  Both describe the same situations
(`incompatible_pair_iff`), and the interval and the context of the pair's witness are exactly
those in which both claims apply (`withinWitness_iff`, `extendsWitness_iff`).

Two claims that both end, and do not begin, overlap before the earlier end.  That there are
timestamps before it is a property of the clock, which is stated as such
(`HasInstantBefore`).
-/

namespace Statefuse

open Foundation

section Theory

variable [Runtime]

/-- No other text is before the one that is chosen. -/
private theorem extremum_spec {before : Instant → Instant → Bool}
    (irreflexive : ∀ instant, before instant instant = false)
    (transitive : ∀ first best next, before first best = false → before next best = true →
      before first next = false)
    {texts : List String} {found : Option String} (run : extremum before texts = .ok found) :
    (found = none → texts = []) ∧ ∀ best, found = some best → best ∈ texts ∧
      ∃ instant, parseUtcIso best = .ok instant ∧ ∀ text ∈ texts, ∀ other,
        parseUtcIso text = .ok other → before other instant = false := by
  cases texts with
  | nil =>
      injection run with run
      rw [← run]
      exact ⟨fun _ => rfl, fun best impossible => by cases impossible⟩
  | cons first rest =>
      rw [extremum, bind_ok_iff] at run
      rcases run with ⟨start, parsed, run⟩
      rw [bind_ok_iff] at run
      rcases run with ⟨last, looped, run⟩
      rw [pure_ok_iff] at run
      rw [← run]
      constructor
      · intro impossible
        cases impossible
      intro best same
      injection same with same
      obtain ⟨listed, read, all⟩ := foldlM_invariant
        (fun done (best : String × Instant) => best.1 ∈ first :: done ∧
          parseUtcIso best.1 = .ok best.2 ∧ ∀ text ∈ first :: done, ∀ other,
            parseUtcIso text = .ok other → before other best.2 = false)
        rest (first, start) last looped (by
          refine ⟨List.mem_cons_self, parsed, ?_⟩
          intro text listed other read
          rw [List.mem_singleton.mp listed, parsed] at read
          injection read with read
          rw [read]
          exact irreflexive other) (by
        rintro done text best next ⟨listed, read, all⟩ _ stepped
        simp only [bind_ok_iff, pure_ok_iff] at stepped
        rcases stepped with ⟨instant, textRead, same⟩
        by_cases better : before instant best.2 = true
        · rw [if_pos better] at same
          rw [← same]
          refine ⟨by simp, textRead, ?_⟩
          intro other otherListed otherInstant otherRead
          rw [← List.cons_append, List.mem_append, List.mem_singleton] at otherListed
          rcases otherListed with earlier | last
          · exact transitive otherInstant best.2 instant (all other earlier otherInstant otherRead)
              better
          · rw [last, textRead] at otherRead
            injection otherRead with otherRead
            rw [← otherRead]
            exact irreflexive instant
        · rw [if_neg better] at same
          rw [← same]
          refine ⟨?_, read, ?_⟩
          · rw [← List.cons_append]
            exact List.mem_append_left _ listed
          · intro other otherListed otherInstant otherRead
            rw [← List.cons_append, List.mem_append, List.mem_singleton] at otherListed
            rcases otherListed with earlier | last
            · exact all other earlier otherInstant otherRead
            · rw [last, textRead] at otherRead
              injection otherRead with otherRead
              rw [← otherRead]
              exact Bool.eq_false_iff.mpr better)
      rw [same] at listed read
      exact ⟨listed, last.2, read, all⟩

/-- The latest of some texts, none for no text. -/
theorem latest_spec {texts : List String} {found : Option String}
    (run : latest texts = .ok found) :
    (found = none → texts = []) ∧ ∀ best, found = some best → best ∈ texts ∧
      ∃ instant, parseUtcIso best = .ok instant ∧ ∀ text ∈ texts, ∀ other,
        parseUtcIso text = .ok other → other ≤ instant := by
  have spec := extremum_spec (fun instant => by simp) (by
    intro first best next notFirst isNext
    simp only [decide_eq_false_iff_not, decide_eq_true_eq, not_lt] at notFirst isNext ⊢
    exact le_trans notFirst isNext.le) run
  refine ⟨spec.1, ?_⟩
  intro best same
  rcases spec.2 best same with ⟨listed, instant, read, all⟩
  refine ⟨listed, instant, read, ?_⟩
  intro text member other otherRead
  simpa using all text member other otherRead

/-- The earliest of some texts. -/
theorem earliest_spec {texts : List String} {found : Option String}
    (run : earliest texts = .ok found) :
    (found = none → texts = []) ∧ ∀ best, found = some best → best ∈ texts ∧
      ∃ instant, parseUtcIso best = .ok instant ∧ ∀ text ∈ texts, ∀ other,
        parseUtcIso text = .ok other → instant ≤ other := by
  have spec := extremum_spec (fun instant => by simp) (by
    intro first best next notFirst isNext
    simp only [decide_eq_false_iff_not, decide_eq_true_eq, not_lt] at notFirst isNext ⊢
    exact le_trans isNext.le notFirst) run
  refine ⟨spec.1, ?_⟩
  intro best same
  rcases spec.2 best same with ⟨listed, instant, read, all⟩
  refine ⟨listed, instant, read, ?_⟩
  intro text member other otherRead
  simpa using all text member other otherRead

/-- The instant lies in the interval that a witness records. -/
def WithinWitness (witness : JSONObject) (instant : Instant) : Prop :=
  (∀ text start, getOrNull witness "valid_from" = .str text → parseUtcIso text = .ok start →
    start ≤ instant) ∧
  ∀ text stop, getOrNull witness "valid_until" = .str text → parseUtcIso text = .ok stop →
    instant < stop

/-- The assignment gives the names of a witness's context the values it records. -/
def ExtendsWitness (witness assignment : JSONObject) : Prop :=
  ∀ context, getOrNull witness "context" = .obj context →
    ∀ (name : String) (value : JSONValue), context[name]? = some value →
      ∃ assigned, assignment[name]? = some assigned ∧ pyEq assigned value = true

/-- The validity of the claim contains the instant. -/
def ValidAt (claim : Claim) (instant : Instant) : Prop :=
  ∃ bounds, validityBounds claim.validity = .ok bounds ∧ boundsContain bounds instant = true

section Witness

variable {left right : Claim} {witness : JSONObject}

private theorem validAt_iff {claim : Claim} (readable : Readable claim) (instant : Instant) :
    ValidAt claim instant ↔
      (∀ text start, claim.validity.bind (·.validFrom) = some text →
        parseUtcIso text = .ok start → start ≤ instant) ∧
      ∀ text stop, claim.validity.bind (·.validUntil) = some text →
        parseUtcIso text = .ok stop → instant < stop := by
  rcases readable with ⟨⟨first, last⟩, read⟩
  rcases validityBounds_ok_iff.mp read with ⟨readFirst, readLast⟩
  have bound : ∀ {given : Option String} {instant : Option Instant},
      readBound given = .ok instant → ∀ value, instant = some value ↔
        ∃ text, given = some text ∧ parseUtcIso text = .ok value := by
    intro given instant readGiven value
    rw [← readBound_some, readGiven]
    simp
  have contains : ValidAt claim instant ↔ boundsContain (first, last) instant = true := by
    constructor
    · rintro ⟨bounds, other, contains⟩
      rw [read] at other
      injection other with other
      rw [other]
      exact contains
    · exact fun contains => ⟨_, read, contains⟩
  rw [contains, boundsContain_iff]
  constructor
  · rintro ⟨after, before⟩
    exact ⟨fun text start given parsed =>
        after start ((bound readFirst start).mpr ⟨text, given, parsed⟩),
      fun text stop given parsed => before stop ((bound readLast stop).mpr ⟨text, given, parsed⟩)⟩
  · rintro ⟨after, before⟩
    refine ⟨?_, ?_⟩
    · intro start isStart
      rcases (bound readFirst start).mp isStart with ⟨text, given, parsed⟩
      exact after text start given parsed
    · intro stop isStop
      rcases (bound readLast stop).mp isStop with ⟨text, given, parsed⟩
      exact before text stop given parsed

/-- The interval of a witness is the intersection of the two validities. -/
theorem withinWitness_iff (leftReadable : Readable left) (rightReadable : Readable right)
    (computed : overlapWitness left right = .ok witness) (instant : Instant) :
    WithinWitness witness instant ↔ ValidAt left instant ∧ ValidAt right instant := by
  simp only [overlapWitness, bind_ok_iff, pure_ok_iff] at computed
  rcases computed with ⟨validFrom, isLatest, validUntil, isEarliest, same⟩
  have fromIs : getOrNull witness "valid_from" = optionalStr validFrom := by
    rw [← same]
    simp [getOrNull, get_objectOf, List.lookup]
  have untilIs : getOrNull witness "valid_until" = optionalStr validUntil := by
    rw [← same]
    simp [getOrNull, get_objectOf, List.lookup]
  have text_of : ∀ {given : Option String} {text : String},
      optionalStr given = .str text ↔ given = some text := by
    intro given text
    cases given with
    | none =>
        constructor
        · intro impossible
          have strings : none = some text := congrArg JsonValue.asStr? impossible
          cases strings
        · intro impossible
          cases impossible
    | some other =>
        constructor
        · intro equal
          have strings : some other = some text := congrArg JsonValue.asStr? equal
          exact strings
        · intro equal
          injection equal with equal
          rw [equal]
          rfl
  rw [validAt_iff leftReadable, validAt_iff rightReadable, WithinWitness, fromIs, untilIs]
  simp only [text_of]
  rcases latest_spec isLatest with ⟨noStart, someStart⟩
  rcases earliest_spec isEarliest with ⟨noStop, someStop⟩
  have starts : (∀ text start, validFrom = some text → parseUtcIso text = .ok start →
      start ≤ instant) ↔ ∀ text ∈ [left.validity.bind (·.validFrom),
        right.validity.bind (·.validFrom)].reduceOption, ∀ start,
          parseUtcIso text = .ok start → start ≤ instant := by
    cases chosen : validFrom with
    | none => simp [noStart chosen]
    | some best =>
        rcases someStart best chosen with ⟨listed, latest, read, all⟩
        constructor
        · intro after text member start parsed
          exact le_trans (all text member start parsed) (after best latest rfl read)
        · intro after text start same parsed
          injection same with same
          exact after text (same ▸ listed) start parsed
  have stops : (∀ text stop, validUntil = some text → parseUtcIso text = .ok stop →
      instant < stop) ↔ ∀ text ∈ [left.validity.bind (·.validUntil),
        right.validity.bind (·.validUntil)].reduceOption, ∀ stop,
          parseUtcIso text = .ok stop → instant < stop := by
    cases chosen : validUntil with
    | none => simp [noStop chosen]
    | some best =>
        rcases someStop best chosen with ⟨listed, earliest, read, all⟩
        constructor
        · intro before text member stop parsed
          exact lt_of_lt_of_le (before best earliest rfl read) (all text member stop parsed)
        · intro before text stop same parsed
          injection same with same
          exact before text (same ▸ listed) stop parsed
  rw [starts, stops]
  simp only [List.reduceOption_mem_iff, List.mem_cons, List.not_mem_nil, or_false]
  constructor
  · rintro ⟨after, before⟩
    exact ⟨⟨fun text start given => after text (Or.inl given.symm) start,
        fun text stop given => before text (Or.inl given.symm) stop⟩,
      fun text start given => after text (Or.inr given.symm) start,
      fun text stop given => before text (Or.inr given.symm) stop⟩
  · rintro ⟨⟨leftAfter, leftBefore⟩, rightAfter, rightBefore⟩
    constructor
    · rintro text (given | given) start
      · exact leftAfter text start given.symm
      · exact rightAfter text start given.symm
    · rintro text (given | given) stop
      · exact leftBefore text stop given.symm
      · exact rightBefore text stop given.symm

/-- An assignment of all the names lets both claims apply exactly when it extends the
context of the witness. -/
theorem extendsWitness_iff (overlap : contextsOverlap left.context right.context = true)
    (computed : overlapWitness left right = .ok witness) {assignment : JSONObject}
    (assigns : Assigns assignment [left, right]) :
    ExtendsWitness witness assignment ↔
      contextExcludes left assignment = false ∧ contextExcludes right assignment = false := by
  simp only [overlapWitness, bind_ok_iff, pure_ok_iff] at computed
  rcases computed with ⟨_, _, _, _, same⟩
  have contextIs : getOrNull witness "context" =
      .obj (mergeContexts left.context right.context) := by
    rw [← same]
    simp [getOrNull, get_objectOf]
  rw [← agreesWith_merged overlap, agreesWith_iff, ExtendsWitness, contextIs]
  constructor
  · intro extends_ name value other bound own
    rcases extends_ _ rfl name other own with ⟨assigned, found, equal⟩
    rw [bound, Option.some.injEq] at found
    rw [found]
    exact pyEq_symm equal
  · intro agrees context sameContext name value own
    rw [← JsonValue.obj_injective sameContext] at own
    have bound : ∃ assigned, assignment[name]? = some assigned := by
      have both := own
      rw [get_mergeContexts] at both
      cases rightBound : right.context[name]? with
      | none =>
          rw [rightBound] at both
          exact assigns left (by simp) name value both
      | some second => exact assigns right (by simp) name second rightBound
    rcases bound with ⟨assigned, bound⟩
    exact ⟨assigned, bound, pyEq_symm (agrees name assigned value bound own)⟩

/-- Some timestamp comes before the ends of the claims. -/
def HasInstantBefore (claims : List Claim) : Prop :=
  ∃ text instant, parseUtcIso text = .ok instant ∧ ∀ claim ∈ claims, ∀ bounds,
    validityBounds claim.validity = .ok bounds → ∀ stop, bounds.2 = some stop → instant < stop

private theorem bounds_ordered {claim : Claim} {bounds : ValidityBounds}
    (read : validityBounds claim.validity = .ok bounds) {start stop : Instant}
    (isStart : bounds.1 = some start) (isStop : bounds.2 = some stop) : start ≤ stop := by
  rcases validityBounds_ok_iff.mp read with ⟨readFirst, readLast⟩
  rw [isStart, readBound_some] at readFirst
  rw [isStop, readBound_some] at readLast
  rcases readFirst with ⟨startText, startGiven, startParsed⟩
  rcases readLast with ⟨stopText, stopGiven, stopParsed⟩
  cases validity : claim.validity with
  | none =>
      rw [validity] at startGiven
      cases startGiven
  | some interval =>
      rw [validity, Option.bind_some] at startGiven stopGiven
      obtain ⟨first, isFirst, last, isLast, ordered⟩ :=
        interval.ordered startText startGiven stopText stopGiven
      rw [startParsed] at isFirst
      rw [stopParsed] at isLast
      rw [Option.mem_some_iff.mp isFirst, Option.mem_some_iff.mp isLast]
      exact ordered

omit [Runtime] in
private theorem ne_of_not_empty {bounds : ValidityBounds} (full : emptyBounds bounds = false)
    {start stop : Instant} (isStart : bounds.1 = some start) (isStop : bounds.2 = some stop) :
    start ≠ stop := by
  rcases bounds with ⟨first, last⟩
  subst isStart isStop
  simpa [emptyBounds] using full

omit [Runtime] in
private theorem lt_of_not_endsBefore {first second : ValidityBounds}
    (meets : endsBefore first second = false) {start stop : Instant}
    (isStart : second.1 = some start) (isStop : first.2 = some stop) : start < stop := by
  simpa [endsBefore, isStart, isStop] using meets

/-- Validities that overlap start before they stop. -/
private theorem starts_before_stops {leftBounds rightBounds : ValidityBounds}
    (leftRead : validityBounds left.validity = .ok leftBounds)
    (rightRead : validityBounds right.validity = .ok rightBounds)
    (overlap : validityBoundsOverlap leftBounds rightBounds = true) :
    ∀ start, (leftBounds.1 = some start ∨ rightBounds.1 = some start) →
      ∀ stop, (leftBounds.2 = some stop ∨ rightBounds.2 = some stop) → start < stop := by
  simp only [validityBoundsOverlap, Bool.and_eq_true, Bool.not_eq_true'] at overlap
  rcases overlap with ⟨⟨⟨leftFull, rightFull⟩, leftMeets⟩, rightMeets⟩
  rintro start (isStart | isStart) stop (isStop | isStop)
  · exact lt_of_le_of_ne (bounds_ordered leftRead isStart isStop)
      (ne_of_not_empty leftFull isStart isStop)
  · exact lt_of_not_endsBefore rightMeets isStart isStop
  · exact lt_of_not_endsBefore leftMeets isStart isStop
  · exact lt_of_le_of_ne (bounds_ordered rightRead isStart isStop)
      (ne_of_not_empty rightFull isStart isStop)

omit [Runtime] in
/-- Of two optional instants, one of which is there, one is the latest. -/
private theorem exists_latest {first second : Option Instant} {start : Instant}
    (present : first = some start ∨ second = some start) :
    ∃ last, (first = some last ∨ second = some last) ∧
      ∀ start, (first = some start ∨ second = some start) → start ≤ last := by
  cases first with
  | none =>
      cases second with
      | none => simp at present
      | some two => exact ⟨two, Or.inr rfl, by simp⟩
  | some one =>
      cases second with
      | none => exact ⟨one, Or.inl rfl, by simp⟩
      | some two =>
          rcases le_total one two with below | above
          · refine ⟨two, Or.inr rfl, ?_⟩
            rintro start (same | same)
            · exact Option.some.inj same ▸ below
            · exact le_of_eq (Option.some.inj same).symm
          · refine ⟨one, Or.inl rfl, ?_⟩
            rintro start (same | same)
            · exact le_of_eq (Option.some.inj same).symm
            · exact Option.some.inj same ▸ above

/-- Two validities that overlap contain a common timestamp. -/
theorem exists_common_text {leftBounds rightBounds : ValidityBounds}
    (leftRead : validityBounds left.validity = .ok leftBounds)
    (rightRead : validityBounds right.validity = .ok rightBounds)
    (overlap : validityBoundsOverlap leftBounds rightBounds = true)
    (early : HasInstantBefore [left, right]) :
    ∃ text instant, parseUtcIso text = .ok instant ∧ ValidAt left instant ∧
      ValidAt right instant := by
  have separated := starts_before_stops leftRead rightRead overlap
  have texts : ∀ start, (leftBounds.1 = some start ∨ rightBounds.1 = some start) →
      ∃ text, parseUtcIso text = .ok start := by
    rintro start (isStart | isStart)
    · have read := (validityBounds_ok_iff.mp leftRead).1
      rw [isStart, readBound_some] at read
      rcases read with ⟨text, _, parsed⟩
      exact ⟨text, parsed⟩
    · have read := (validityBounds_ok_iff.mp rightRead).1
      rw [isStart, readBound_some] at read
      rcases read with ⟨text, _, parsed⟩
      exact ⟨text, parsed⟩
  have pick : ∃ text instant, parseUtcIso text = .ok instant ∧
      (∀ start, (leftBounds.1 = some start ∨ rightBounds.1 = some start) → start ≤ instant) ∧
      ∀ stop, (leftBounds.2 = some stop ∨ rightBounds.2 = some stop) → instant < stop := by
    by_cases started : ∃ last, (leftBounds.1 = some last ∨ rightBounds.1 = some last) ∧
        ∀ start, (leftBounds.1 = some start ∨ rightBounds.1 = some start) → start ≤ last
    · rcases started with ⟨last, isStart, latest⟩
      rcases texts last isStart with ⟨text, parsed⟩
      exact ⟨text, last, parsed, latest, separated last isStart⟩
    · rcases early with ⟨text, instant, parsed, before⟩
      refine ⟨text, instant, parsed, ?_, ?_⟩
      · intro start isStart
        exact absurd (exists_latest isStart) started
      · rintro stop (isStop | isStop)
        · exact before left (by simp) leftBounds leftRead stop isStop
        · exact before right (by simp) rightBounds rightRead stop isStop
  rcases pick with ⟨text, instant, parsed, after, before⟩
  exact ⟨text, instant, parsed,
    ⟨leftBounds, leftRead, (boundsContain_iff _ _).mpr
      ⟨fun start isStart => after start (Or.inl isStart),
        fun stop isStop => before stop (Or.inl isStop)⟩⟩,
    ⟨rightBounds, rightRead, (boundsContain_iff _ _).mpr
      ⟨fun start isStart => after start (Or.inr isStart),
        fun stop isStop => before stop (Or.inr isStop)⟩⟩⟩

end Witness

/-! ## The pairs that a state reports -/

/-- A conflict of the state lists the two claims as an incompatible pair, with a witness. -/
def MemoryState.ReportsPair (state : MemoryState) (first second : Claim) (witness : JSONObject) :
    Prop :=
  ∃ conflict ∈ state.conflicts, .obj witness ∈ conflict.incompatiblePairs ∧
    (getOrNull witness "claim_ids" = strList [first.claimId, second.claimId] ∨
      getOrNull witness "claim_ids" = strList [second.claimId, first.claimId])

section Pairs

variable {log : OpLog} {registry : PredicateRegistry} {validAt : Option String}
  {context : JSONObject} {state : MemoryState}

theorem claimIds_of_overlapWitness {first second : Claim} {witness : JSONObject}
    (computed : overlapWitness first second = .ok witness) :
    getOrNull witness "claim_ids" = strList [first.claimId, second.claimId] := by
  simp only [overlapWitness, bind_ok_iff, pure_ok_iff] at computed
  rcases computed with ⟨_, _, _, _, same⟩
  rw [← same]
  simp [getOrNull, get_objectOf, List.lookup]

/-- An id names one applicable claim. -/
private theorem applicable_of_id {first second : Claim}
    (isFirst : state.Applicable validAt context first)
    (isSecond : state.Applicable validAt context second)
    (same : first.claimId = second.claimId) : first = second := by
  have found := isFirst.1
  rw [same, isSecond.1, Option.some.injEq] at found
  exact found.symm

/-- An ordered pair of claims that the state applies is reported when it clashes. -/
private theorem reports_ordered (run : materialize log registry [] validAt context = .ok state)
    {first second : Claim} (isFirst : state.Applicable validAt context first)
    (isSecond : state.Applicable validAt context second) (witness : JSONObject) :
    (∃ conflict ∈ state.conflicts, .obj witness ∈ conflict.incompatiblePairs ∧
      getOrNull witness "claim_ids" = strList [first.claimId, second.claimId]) ↔
      second.key = first.key ∧ Clash registry first.key first second ∧
        overlapWitness first second = .ok witness := by
  rcases mem_conflicts_iff run with ⟨grouped, readable, members⟩
  have sameRegistry : state.context.predicateRegistry = registry := materialize_registry run
  constructor
  · rintro ⟨conflict, current, listed, ids⟩
    rcases (members conflict).mp current with ⟨key, found⟩
    rcases (mem_incompatiblePairs grouped found _).mp listed with
      ⟨one, two, ⟨oneApplies, oneKey⟩, ⟨twoApplies, twoKey⟩, clash, same⟩
    have computed := overlapWitness_eq_witnessOf (readable one oneApplies) (readable two twoApplies)
    rw [← JsonValue.obj_injective same] at computed
    rw [claimIds_of_overlapWitness computed] at ids
    have idLists := strList_injective ids
    simp only [List.cons.injEq, and_true] at idLists
    have isOne := applicable_of_id oneApplies isFirst idLists.1
    have isTwo := applicable_of_id twoApplies isSecond idLists.2
    subst isOne isTwo
    rw [sameRegistry, ← oneKey] at clash
    exact ⟨twoKey.trans oneKey.symm, clash, computed⟩
  · rintro ⟨sameKey, clash, computed⟩
    obtain ⟨conflict, found⟩ := (exists_finding_iff grouped readable first.key).mpr
      ⟨first, second, ⟨isFirst, rfl⟩, ⟨isSecond, sameKey⟩, by rw [sameRegistry]; exact clash⟩
    refine ⟨conflict, (members conflict).mpr ⟨first.key, found⟩, ?_,
      claimIds_of_overlapWitness computed⟩
    rw [mem_incompatiblePairs grouped found]
    refine ⟨first, second, ⟨isFirst, rfl⟩, ⟨isSecond, sameKey⟩,
      by rw [sameRegistry]; exact clash, ?_⟩
    rw [overlapWitness_eq_witnessOf (readable first isFirst) (readable second isSecond)] at computed
    injection computed with computed
    rw [computed]

/-- Two claims that the state applies are reported when they clash in either order. -/
theorem reportsPair_iff (run : materialize log registry [] validAt context = .ok state)
    {first second : Claim} (isFirst : state.Applicable validAt context first)
    (isSecond : state.Applicable validAt context second) (sameKey : second.key = first.key)
    (witness : JSONObject) :
    state.ReportsPair first second witness ↔
      (Clash registry first.key first second ∧ overlapWitness first second = .ok witness) ∨
        (Clash registry first.key second first ∧ overlapWitness second first = .ok witness) := by
  have forward := reports_ordered run isFirst isSecond witness
  have backward := reports_ordered run isSecond isFirst witness
  rw [sameKey] at backward
  simp only [sameKey, true_and] at forward backward
  rw [← forward, ← backward]
  constructor
  · rintro ⟨conflict, current, listed, ids | ids⟩
    · exact Or.inl ⟨conflict, current, listed, ids⟩
    · exact Or.inr ⟨conflict, current, listed, ids⟩
  · rintro (⟨conflict, current, listed, ids⟩ | ⟨conflict, current, listed, ids⟩)
    · exact ⟨conflict, current, listed, Or.inl ids⟩
    · exact ⟨conflict, current, listed, Or.inr ids⟩

end Pairs

/-! ## Soundness and completeness -/

section Exact

variable {log : OpLog} {registry : PredicateRegistry} {state : MemoryState} {key : ClaimKey}
  {first second : Claim}

/-- The values of two claims differ under the registry, which is asked in the order of
their ids. -/
def ValuesDiffer (registry : PredicateRegistry) (predicate : String) (first second : Claim) :
    Prop :=
  if first.claimId < second.claimId then
    registry.valuesEqual predicate first.value second.value = false
  else registry.valuesEqual predicate second.value first.value = false

theorem Clash.valuesDiffer (clash : Clash registry key first second)
    (firstReadable : Readable first) (secondReadable : Readable second) :
    ValuesDiffer registry key.predicate first second := by
  rcases firstReadable with ⟨firstBounds, firstRead⟩
  rcases secondReadable with ⟨secondBounds, secondRead⟩
  rw [ValuesDiffer, if_pos clash.1]
  exact ((incompatible_iff registry key firstRead secondRead).mp clash.2.2).1

theorem Clash.contexts (clash : Clash registry key first second)
    (firstReadable : Readable first) (secondReadable : Readable second) :
    contextsOverlap first.context second.context = true := by
  rcases firstReadable with ⟨firstBounds, firstRead⟩
  rcases secondReadable with ⟨secondBounds, secondRead⟩
  exact ((incompatible_iff registry key firstRead secondRead).mp clash.2.2).2.1

theorem ValuesDiffer.symm {predicate : String}
    (differ : ValuesDiffer registry predicate first second)
    (distinct : first.claimId ≠ second.claimId) : ValuesDiffer registry predicate second first := by
  unfold ValuesDiffer at differ ⊢
  rcases lt_or_gt_of_ne distinct with below | above
  · rw [if_pos below] at differ
    rw [if_neg (not_lt.mpr below.le)]
    exact differ
  · rw [if_neg (not_lt.mpr above.le)] at differ
    rw [if_pos above]
    exact differ

private theorem assigns_swap {assignment : JSONObject}
    (assigns : Assigns assignment [second, first]) : Assigns assignment [first, second] := by
  intro claim listed
  apply assigns claim
  simp only [List.mem_cons, List.not_mem_nil, or_false] at listed ⊢
  exact listed.symm

private theorem hasInstantBefore_swap (early : HasInstantBefore [second, first]) :
    HasInstantBefore [first, second] := by
  rcases early with ⟨text, instant, parsed, before⟩
  refine ⟨text, instant, parsed, ?_⟩
  intro claim listed
  apply before claim
  simp only [List.mem_cons, List.not_mem_nil, or_false] at listed ⊢
  exact listed.symm

/-- Claims that clash apply together at some timestamp and in some context. -/
private theorem exists_scope (firstReadable : Readable first) (secondReadable : Readable second)
    (clash : Clash registry key first second) (early : HasInstantBefore [first, second]) :
    ∃ text instant assignment, parseUtcIso text = .ok instant ∧
      Assigns assignment [first, second] ∧
      claimApplies first (some text) assignment = .ok true ∧
      claimApplies second (some text) assignment = .ok true := by
  rcases firstReadable with ⟨firstBounds, firstRead⟩
  rcases secondReadable with ⟨secondBounds, secondRead⟩
  rcases (incompatible_iff registry key firstRead secondRead).mp clash.2.2 with
    ⟨_, contexts, overlap⟩
  rcases exists_common_text firstRead secondRead overlap early with
    ⟨text, instant, parsed, firstValid, secondValid⟩
  have agree : ContextsAgree [first, second] := by
    have shared := (contextsOverlap_iff first.context second.context).mp contexts
    intro one oneListed two twoListed name value other bound otherBound
    simp only [List.mem_cons, List.not_mem_nil, or_false] at oneListed twoListed
    rcases oneListed with isFirst | isSecond
    · subst isFirst
      rcases twoListed with isFirst | isSecond
      · subst isFirst
        rw [bound, Option.some.injEq] at otherBound
        rw [otherBound]
        exact pyEq_refl other
      · subst isSecond
        exact shared name value other bound otherBound
    · subst isSecond
      rcases twoListed with isFirst | isSecond
      · subst isFirst
        exact pyEq_symm (shared name other value otherBound bound)
      · subst isSecond
        rw [bound, Option.some.injEq] at otherBound
        rw [otherBound]
        exact pyEq_refl other
  rcases (exists_assignment_iff [first, second]).mpr agree with ⟨assignment, assigns, suits⟩
  refine ⟨text, instant, assignment, parsed, assigns, ?_, ?_⟩
  · rw [claimApplies_iff parsed]
    exact ⟨suits first (by simp), firstValid⟩
  · rw [claimApplies_iff parsed]
    exact ⟨suits second (by simp), secondValid⟩

/-- Two active claims of a functional key are reported as an incompatible pair exactly when
their values differ and some instant and some context keep both active and report them; the
witness of the pair records exactly the instants and contexts in which both apply. -/
theorem incompatible_pair_iff (run : materialize log registry [] none ∅ = .ok state)
    (succeeds : ∀ text instant, parseUtcIso text = .ok instant → ∀ context, ∃ narrowed,
      materialize log registry [] (some text) context = .ok narrowed)
    (firstActive : first ∈ state.activeClaimsByKey[key]?.getD [])
    (secondActive : second ∈ state.activeClaimsByKey[key]?.getD [])
    (early : HasInstantBefore [first, second]) :
    ((∃ witness, state.ReportsPair first second witness) ↔
      ValuesDiffer registry key.predicate first second ∧
        ∃ text instant assignment narrowed, parseUtcIso text = .ok instant ∧
          Assigns assignment [first, second] ∧
          materialize log registry [] (some text) assignment = .ok narrowed ∧
          first ∈ narrowed.activeClaimsByKey[key]?.getD [] ∧
          second ∈ narrowed.activeClaimsByKey[key]?.getD [] ∧
          ∃ witness, narrowed.ReportsPair first second witness) ∧
    ∀ witness, state.ReportsPair first second witness →
      (∀ instant, WithinWitness witness instant ↔ ValidAt first instant ∧ ValidAt second instant) ∧
      ∀ assignment, Assigns assignment [first, second] →
        (ExtendsWitness witness assignment ↔
          contextExcludes first assignment = false ∧
            contextExcludes second assignment = false) := by
  rcases mem_conflicts_iff run with ⟨_, readable, _⟩
  have active := (materialize_active run).1
  rw [active.mem_getD] at firstActive secondActive
  rcases firstActive with ⟨isFirst, firstKey⟩
  rcases secondActive with ⟨isSecond, secondKey⟩
  have sameKey : second.key = first.key := secondKey.trans firstKey.symm
  have reports := reportsPair_iff run isFirst isSecond sameKey
  have firstReadable := readable first isFirst
  have secondReadable := readable second isSecond
  rw [firstKey] at reports
  constructor
  · constructor
    · rintro ⟨witness, reported⟩
      have clashes := (reports witness).mp reported
      have scope : ∃ text instant assignment, parseUtcIso text = .ok instant ∧
          Assigns assignment [first, second] ∧
          claimApplies first (some text) assignment = .ok true ∧
          claimApplies second (some text) assignment = .ok true := by
        rcases clashes with ⟨clash, _⟩ | ⟨clash, _⟩
        · exact exists_scope firstReadable secondReadable clash early
        · rcases exists_scope secondReadable firstReadable clash (hasInstantBefore_swap early) with
            ⟨text, instant, assignment, parsed, assigns, secondApplies, firstApplies⟩
          exact ⟨text, instant, assignment, parsed, assigns_swap assigns, firstApplies,
            secondApplies⟩
      rcases scope with ⟨text, instant, assignment, parsed, assigns, firstApplies, secondApplies⟩
      rcases succeeds text instant parsed assignment with ⟨narrowed, narrowedRun⟩
      have firstThere := (applicable_scope_iff run narrowedRun first).mpr ⟨isFirst, firstApplies⟩
      have secondThere :=
        (applicable_scope_iff run narrowedRun second).mpr ⟨isSecond, secondApplies⟩
      have narrowedActive := (materialize_active narrowedRun).1
      have narrowedReports := reportsPair_iff narrowedRun firstThere secondThere sameKey witness
      rw [firstKey] at narrowedReports
      refine ⟨?_, text, instant, assignment, narrowed, parsed, assigns, narrowedRun, ?_, ?_,
        witness, narrowedReports.mpr clashes⟩
      · rcases clashes with ⟨clash, _⟩ | ⟨clash, _⟩
        · exact clash.valuesDiffer firstReadable secondReadable
        · exact (clash.valuesDiffer secondReadable firstReadable).symm clash.1.ne
      · rw [narrowedActive.mem_getD]
        exact ⟨firstThere, firstKey⟩
      · rw [narrowedActive.mem_getD]
        exact ⟨secondThere, secondKey⟩
    · rintro ⟨_, text, instant, assignment, narrowed, _, _, narrowedRun, firstThere, secondThere,
        witness, reported⟩
      have narrowedActive := (materialize_active narrowedRun).1
      rw [narrowedActive.mem_getD] at firstThere secondThere
      have narrowedReports :=
        reportsPair_iff narrowedRun firstThere.1 secondThere.1 sameKey witness
      rw [firstKey] at narrowedReports
      exact ⟨witness, (reports witness).mpr (narrowedReports.mp reported)⟩
  · intro witness reported
    rcases (reports witness).mp reported with ⟨clash, computed⟩ | ⟨clash, computed⟩
    · refine ⟨withinWitness_iff firstReadable secondReadable computed, ?_⟩
      intro assignment assigns
      exact extendsWitness_iff (clash.contexts firstReadable secondReadable) computed assigns
    · constructor
      · intro instant
        rw [withinWitness_iff secondReadable firstReadable computed]
        exact and_comm
      · intro assignment assigns
        rw [extendsWitness_iff (clash.contexts secondReadable firstReadable) computed
          (assigns_swap assigns)]
        exact and_comm

end Exact

end Theory

section Example

attribute [local instance] Reference.runtime

/-- The value that every mode shows, and the one of the day. -/
def modalClaims : Claim × Claim :=
  (Reference.fact "a" Reference.key (.str "x") [],
    Reference.factIn "b" Reference.key (.str "y") "day")

theorem incompatible_pair_iff_modal :
    ∃ state witness, materialize (Reference.logOf modalOps) .empty [] none ∅ = .ok state ∧
      state.ReportsPair modalClaims.1 modalClaims.2 witness ∧
      (∀ instant, WithinWitness witness instant ↔
        ValidAt modalClaims.1 instant ∧ ValidAt modalClaims.2 instant) ∧
      ∃ text instant assignment narrowed, parseUtcIso text = .ok instant ∧
        Assigns assignment [modalClaims.1, modalClaims.2] ∧
        materialize (Reference.logOf modalOps) .empty [] (some text) assignment = .ok narrowed ∧
        modalClaims.1 ∈ narrowed.activeClaimsByKey[Reference.key]?.getD [] := by
  have computed : ((materialize (Reference.logOf modalOps) .empty [] none ∅).toOption.map
      fun state => (state.resolutionsById.toList, state.activeClaimsByKey[Reference.key]?)) =
      some ([], some [modalClaims.1, modalClaims.2]) := by
    decide +kernel
  have incompatible : incompatible .empty Reference.key modalClaims.1 modalClaims.2 = .ok true := by
    decide +kernel
  have firstRead : validityBounds modalClaims.1.validity = .ok (none, none) := rfl
  have secondRead : validityBounds modalClaims.2.validity = .ok (none, none) := rfl
  cases run : materialize (Reference.logOf modalOps) .empty [] none ∅ with
  | error failure =>
      rw [run] at computed
      cases computed
  | ok state =>
      rw [run] at computed
      injection computed with computed
      injection computed with unresolved active
      have listed : ∀ claim, claim ∈ state.activeClaimsByKey[Reference.key]?.getD [] ↔
          claim ∈ [modalClaims.1, modalClaims.2] := by
        intro claim
        rw [active]
        rfl
      have firstActive := (listed modalClaims.1).mpr (by simp)
      have secondActive := (listed modalClaims.2).mpr (by simp)
      have grouped := (materialize_active run).1
      have isFirst := ((grouped.mem_getD _ _).mp firstActive).1
      have isSecond := ((grouped.mem_getD _ _).mp secondActive).1
      have succeeds : ∀ text instant, parseUtcIso text = .ok instant → ∀ context, ∃ narrowed,
          materialize (Reference.logOf modalOps) .empty [] (some text) context = .ok narrowed := by
        intro text instant parsed context
        apply materialize_scope_exists Reference.collisionFree run
          (by rw [checkInstant, parsed]; rfl)
        intro recordId record found
        have member := (Dict.mem_toList _ _ _).mpr found
        rw [unresolved] at member
        cases member
      have early : HasInstantBefore [modalClaims.1, modalClaims.2] := by
        rcases Reference.instReadsTimestampRuntime.parses with ⟨instant, parsed⟩
        refine ⟨Reference.timestamp, instant, parsed, ?_⟩
        intro claim isListed bounds read stop ends
        have unbounded : bounds = (none, none) := by
          simp only [List.mem_cons, List.not_mem_nil, or_false] at isListed
          rcases isListed with isOne | isOne
          · subst isOne
            exact (Except.ok.inj (firstRead.symm.trans read)).symm
          · subst isOne
            exact (Except.ok.inj (secondRead.symm.trans read)).symm
        rw [unbounded] at ends
        cases ends
      have exactly := incompatible_pair_iff run succeeds firstActive secondActive early
      have computedWitness := overlapWitness_eq_witnessOf ⟨_, firstRead⟩ ⟨_, secondRead⟩
      have clash : Clash .empty Reference.key modalClaims.1 modalClaims.2 :=
        ⟨by decide, rfl, incompatible⟩
      have reported := (reportsPair_iff run isFirst isSecond rfl _).mpr
        (Or.inl ⟨clash, computedWitness⟩)
      rcases (exactly.1.mp ⟨_, reported⟩).2 with
        ⟨text, instant, assignment, narrowed, parsed, assigns, narrowedRun, there, _⟩
      exact ⟨state, _, rfl, reported, (exactly.2 _ reported).1, text, instant,
        assignment, narrowed, parsed, assigns, narrowedRun, there⟩

end Example

end Statefuse
