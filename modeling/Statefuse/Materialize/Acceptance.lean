import Statefuse.Materialize.Gathering
import Statefuse.Merge.Authenticated
import Statefuse.Reference

/-!
# Which logs can be materialized

Constructors accept an interval with one bound, and a decision, whatever the text of
the timestamp.  Materialization reads these texts, so that a log whose identifiers are
bound consistently can be materialized exactly when every decision and every claim that
is not retracted is dated readably.
-/

namespace Statefuse

open Foundation

section Acceptance

variable [Runtime]

/-- The text is a timestamp. -/
def Parses (text : String) : Prop := ∃ instant, parseUtcIso text = .ok instant

/-- The bounds that a claim gives for its validity. -/
def Claim.givenBounds (claim : Claim) : List String :=
  [claim.validity.bind (·.validFrom), claim.validity.bind (·.validUntil)].reduceOption

/-- Every decision, and every claim that is not retracted, is dated readably. -/
structure Contents.Dated (contents : Contents) (registry : PredicateRegistry) : Prop where
  decisions : ∀ decision, contents.decision decision →
    decision.timestamp = "" ∨ Parses decision.timestamp
  claims : ∀ claim, contents.active registry claim → ∀ bound ∈ claim.givenBounds, Parses bound

private theorem mem_givenBounds {claim : Claim} {text : String} :
    text ∈ claim.givenBounds ↔ claim.validity.bind (·.validFrom) = some text ∨
      claim.validity.bind (·.validUntil) = some text := by
  rw [Claim.givenBounds, List.reduceOption_mem_iff]
  simp [eq_comm]

theorem readBound_exists_iff (bound : Option String) :
    (∃ instant, readBound bound = .ok instant) ↔ ∀ text, bound = some text → Parses text := by
  cases bound with
  | none =>
      constructor
      · intro _ text given
        cases given
      · intro _
        exact ⟨none, rfl⟩
  | some text =>
      constructor
      · intro reads other given
        injection given with given
        rcases reads with ⟨instant, read⟩
        rcases map_ok_iff.mp read with ⟨parsed, isParsed, _⟩
        rw [← given]
        exact ⟨parsed, isParsed⟩
      · intro parses
        rcases parses text rfl with ⟨instant, parsed⟩
        exact ⟨some instant, map_ok_iff.mpr ⟨instant, parsed, rfl⟩⟩

/-- A claim is readable when the bounds it gives are timestamps. -/
theorem readable_iff (claim : Claim) :
    Readable claim ↔ ∀ bound ∈ claim.givenBounds, Parses bound := by
  constructor
  · intro readable bound given
    exact readable.bounds_parse (mem_givenBounds.mp given)
  · intro parses
    unfold Readable
    cases valid : claim.validity with
    | none => exact ⟨(none, none), rfl⟩
    | some interval =>
        rcases (readBound_exists_iff interval.validFrom).mpr (fun text given =>
          parses text (mem_givenBounds.mpr (Or.inl (by rw [valid]; exact given)))) with
          ⟨start, readFrom⟩
        rcases (readBound_exists_iff interval.validUntil).mpr (fun text given =>
          parses text (mem_givenBounds.mpr (Or.inr (by rw [valid]; exact given)))) with
          ⟨stop, readUntil⟩
        rw [validityBounds, bind_of_ok readFrom, bind_of_ok readUntil]
        exact ⟨_, rfl⟩

/-- Equal claims give the same bounds. -/
theorem givenBounds_of_equal {first second : Claim} (equal : pyEq first second = true) :
    first.givenBounds = second.givenBounds := by
  have keys : first.validity.map PyEq.key = second.validity.map PyEq.key :=
    congrArg (fun fields => fields.2.2.1) (pyEq_iff.mp equal)
  have bounds : ∀ claim : Claim, claim.givenBounds =
      [(claim.validity.map PyEq.key).bind Prod.fst,
        (claim.validity.map PyEq.key).bind Prod.snd].reduceOption := by
    intro claim
    unfold Claim.givenBounds
    cases claim.validity <;> rfl
  rw [bounds first, bounds second, keys]

/-- A decision can be sorted when it has no timestamp or a readable one. -/
theorem decisionTime_exists_iff (decision : Decision) :
    (∃ time, decisionTime decision = .ok time) ↔
      decision.timestamp = "" ∨ Parses decision.timestamp := by
  unfold decisionTime
  by_cases absent : decision.timestamp = ""
  · rw [if_pos absent]
    exact ⟨fun _ => Or.inl absent, fun _ => ⟨_, rfl⟩⟩
  · rw [if_neg absent]
    constructor
    · rintro ⟨time, known⟩
      rcases map_ok_iff.mp known with ⟨instant, parsed, _⟩
      exact Or.inr ⟨instant, parsed⟩
    · rintro (empty | ⟨instant, parsed⟩)
      · exact absurd empty absent
      · exact ⟨_, map_ok_iff.mpr ⟨instant, parsed, rfl⟩⟩

variable {log : OpLog} {registry : PredicateRegistry} {collected : Collected}

/-- The claims of the pass that are not retracted, under their keys. -/
private theorem partitioned_grouped
    (gathers : collected.Gathers registry (.of (· ∈ log.iterOps))) :
    SortedGroups Claim.claimId (sortGroups Claim.claimId (groupBy Claim.key
        ((Dict.values collected.claimsById).filter
          (fun claim => claim.claimId ∉ inactiveIds collected))))
      (fun key claim => (collected.claimsById[claim.claimId]? = some claim ∧
        claim.claimId ∉ inactiveIds collected) ∧ claim.key = key) := by
  refine (filter_grouped gathers.claims.keyed
    (fun claim => decide (claim.claimId ∉ inactiveIds collected))).congr ?_
  intro key claim
  rw [decide_eq_true_eq]

/-- What can be materialized is dated readably. -/
theorem dated_of_materialize
    (run : ∃ state, materialize log registry [] none ∅ = .ok state) :
    (Contents.of (· ∈ log.iterOps)).Dated registry := by
  rcases run with ⟨state, run⟩
  rcases materialize_ok_iff.mp run with ⟨_, collected, collects, active, partitioned, decisions,
    sorts, conflicts, _, indexes, built, _⟩
  have gathers := collect_gathers collects
  rw [partitionClaims_eq, Except.ok.injEq] at partitioned
  subst partitioned
  constructor
  · intro decision isDecision
    rcases gathers.decisions.present decision isDecision with ⟨held, found, equal⟩
    have sameTime : held.timestamp = decision.timestamp :=
      congrArg (fun fields => fields.2.2.2) (pyEq_iff.mp equal)
    rw [← sameTime, ← decisionTime_exists_iff]
    exact timed_of_sortDecisions sorts held ((Dict.mem_values _ _).mpr ⟨_, found⟩)
  · intro claim isActive
    rcases gathers.claims.present claim isActive.1 with ⟨held, found, equal⟩
    have sameId : held.claimId = claim.claimId := (gathers.claims.stored _ _ found).2
    rw [← givenBounds_of_equal equal, ← readable_iff]
    apply readable_of_buildIndexes (partitioned_grouped gathers) built held.key held
    refine ⟨⟨?_, ?_⟩, rfl⟩
    · rw [sameId]
      exact found
    · rw [sameId, gathers.mem_inactive]
      exact isActive.2

/-- A log whose identifiers are bound consistently and that is dated readably can be
materialized. -/
private theorem materialize_of_dated (collisionFree : CollisionFree)
    (compatible : (Contents.of (· ∈ log.iterOps)).Compatible)
    (dated : (Contents.of (· ∈ log.iterOps)).Dated registry) :
    ∃ state, materialize log registry [] none ∅ = .ok state := by
  rcases collect_gathers_exists registry compatible with ⟨collected, collects⟩
  have gathers := collect_gathers collects
  have timed : ∀ decision ∈ Dict.values collected.decisionsById,
      ∃ time, decisionTime decision = .ok time := by
    intro decision listed
    rcases (Dict.mem_values _ _).mp listed with ⟨decisionId, found⟩
    rw [decisionTime_exists_iff]
    exact dated.decisions decision (gathers.decisions.stored _ _ found).1
  have readable : ∀ claim, (collected.claimsById[claim.claimId]? = some claim ∧
      claim.claimId ∉ inactiveIds collected) → Readable claim := by
    rintro claim ⟨found, present⟩
    rw [gathers.mem_inactive] at present
    rw [readable_iff]
    exact dated.claims claim ⟨(gathers.claims.stored _ _ found).1, present⟩
  rcases sortDecisions_exists timed with ⟨decisions, sorts⟩
  rcases conflicts_of_active collisionFree (partitioned_grouped gathers)
    (by
      rintro first second ⟨firstFound, _⟩ ⟨secondFound, _⟩ same
      have same : first.claimId = second.claimId := same
      rw [same, secondFound, Option.some.injEq] at firstFound
      exact firstFound.symm)
    readable registry collected.evidenceById collected.sourcesById collected.derivationsById
    decisions with ⟨conflicts, indexes, detected, built⟩
  rcases @foldLifecycle_ok _ collected.resolutionsById
    (groupResolutionHistory collected.resolutionsById).2
    (groupLifecycleHistory collected.lifecycleEventsById).2
    (Dict.ofItems (·.conflictRef) conflicts) none
    (fun lane => foldLane_none_exists _ _ _) with ⟨lifecycle, folds⟩
  exact ⟨_, materialize_ok_iff.mpr ⟨rfl, collected, collects, _, partitionClaims_eq _ _, decisions,
    sorts, conflicts, detected, indexes, built, lifecycle, folds, rfl⟩⟩

/-- A log whose identifiers are bound consistently can be materialized exactly when it is
dated readably. -/
theorem materialize_ok_iff_dated (collisionFree : CollisionFree)
    (compatible : (Contents.of (· ∈ log.iterOps)).Compatible) :
    (∃ state, materialize log registry [] none ∅ = .ok state) ↔
      (Contents.of (· ∈ log.iterOps)).Dated registry :=
  ⟨dated_of_materialize, materialize_of_dated collisionFree compatible⟩

end Acceptance

/-! ## A claim with one bound -/

section Example

attribute [local instance] Reference.runtime

/-- A keyed digest that no signature of the examples is compared with. -/
@[reducible] def Reference.hmac : Hmac where
  hexdigest _ _ := ""

attribute [local instance] Reference.hmac

/-- An interval without an end: the constructor does not read its start. -/
def openInterval (validFrom : String) : ValidityInterval where
  validFrom := some validFrom
  validUntil := none
  ordered := by simp [IntervalOrdered]

/-- A log with one claim that is valid from a given text on. -/
def validFromLog (validFrom : String) : OpLog :=
  OpLog.empty.insert (.claimAdded ⟨"op-a", "r", Reference.timestamp⟩
    { Reference.fact "a" Reference.key (.str "x") [] with
      validity := some (openInterval validFrom) })

private theorem validFromLog_cases {validFrom : String} {op : Op}
    (member : op ∈ (validFromLog validFrom).iterOps) : ∃ header, op = .claimAdded header
      { Reference.fact "a" Reference.key (.str "x") [] with
        validity := some (openInterval validFrom) } := by
  have found := (OpLog.mem_iterOps _ op).mp member
  rw [validFromLog, OpLog.insert, Dict.get_insert] at found
  split at found
  · injection found with found
    exact ⟨_, found.symm⟩
  · simp [OpLog.empty] at found

private theorem validFromLog_compatible (validFrom : String) :
    (Contents.of (· ∈ (validFromLog validFrom).iterOps)).Compatible := by
  constructor
  case claim =>
    rintro first second ⟨_, firstMember⟩ ⟨_, secondMember⟩ _
    rcases validFromLog_cases firstMember with ⟨_, firstSame⟩
    rcases validFromLog_cases secondMember with ⟨_, secondSame⟩
    injection firstSame with _ firstSame
    injection secondSame with _ secondSame
    rw [firstSame, secondSame]
    exact pyEq_refl _
  all_goals
    rintro first second ⟨_, member⟩ _ _
    rcases validFromLog_cases member with ⟨_, same⟩
    cases same

/-- The authenticated merge takes over a claim that is valid from no timestamp on, and the
merged log cannot be materialized. -/
theorem merged_log_not_materialized :
    ∃ report, mergeCheckedAuthenticated .empty (validFromLog "soon") ∅ [] false true =
        .ok report ∧
      report.addedOpIds = ["op-a"] ∧ report.quarantined.length = 0 ∧
      (Contents.of (· ∈ report.merged.iterOps)).Compatible ∧
      ¬∃ state, materialize report.merged .empty [] none ∅ = .ok state := by
  have computed : ((mergeCheckedAuthenticated .empty (validFromLog "soon") ∅ [] false
      true).toOption.map fun report => (decide (report.addedOpIds = ["op-a"]),
        report.quarantined.length, decide (report.merged.ops = (validFromLog "soon").ops),
        (materialize report.merged .empty [] none ∅).toOption.isSome)) =
      some (true, 0, true, false) := by
    decide +kernel
  cases merged : mergeCheckedAuthenticated .empty (validFromLog "soon") ∅ [] false true with
  | error failure =>
      rw [merged] at computed
      cases computed
  | ok report =>
      rw [merged] at computed
      injection computed with computed
      simp only [Prod.mk.injEq, decide_eq_true_eq] at computed
      rcases computed with ⟨added, quarantined, sameOps, fails⟩
      refine ⟨report, rfl, added, quarantined, ?_, ?_⟩
      · rw [OpLog.ext sameOps]
        exact validFromLog_compatible "soon"
      · rintro ⟨state, run⟩
        rw [run] at fails
        cases fails

/-- A claim that is valid from a timestamp on can be materialized. -/
theorem materialize_ok_iff_dated_open :
    (Contents.of (· ∈ (validFromLog Reference.timestamp).iterOps)).Dated .empty ∧
      ∃ state, materialize (validFromLog Reference.timestamp) .empty [] none ∅ = .ok state := by
  have dated : (Contents.of (· ∈ (validFromLog Reference.timestamp).iterOps)).Dated .empty := by
    constructor
    · rintro decision ⟨_, member⟩
      rcases validFromLog_cases member with ⟨_, same⟩
      cases same
    · rintro claim ⟨⟨_, member⟩, _⟩ bound given
      rcases validFromLog_cases member with ⟨_, same⟩
      injection same with _ same
      rw [same] at given
      have isTimestamp : bound = Reference.timestamp := by
        simpa [Claim.givenBounds, openInterval] using given
      rw [isTimestamp]
      exact Reference.ReadsTimestamp.parses
  exact ⟨dated, (materialize_ok_iff_dated Reference.collisionFree
    (validFromLog_compatible Reference.timestamp)).mpr dated⟩

end Example

end Statefuse
