import Statefuse.Codec
import Statefuse.Reference
import Statefuse.View.Resolver

/-!
# Close rivals of a conservative selection

The conservative resolver compares the best candidate with one rival only, the
highest-ranked candidate of another value.  A rival further down can be closer than that one,
since ranks compare the components of a score one after the other and closeness compares each
of them.  A selection has no close rival exactly when this does not happen
(`selection_has_no_close_rival_iff`); no candidate ever has a greater score.
-/

namespace Statefuse

open Foundation

section Theory

variable [Runtime]

section Ranks

variable {conflict : ConflictSet} {constraints : ViewConstraints} {state : MemoryState}

/-- A candidate with its score. -/
def IsScored (conflict : ConflictSet) (constraints : ViewConstraints) (state : MemoryState)
    (entry : Claim × Score) : Prop :=
  entry.1 ∈ conflict.candidates ∧ scoreClaim entry.1 constraints state = .ok entry.2

/-- The candidates have values with different texts. -/
def IsRival (first second : Claim × Score) : Prop := pyStr second.1.value ≠ pyStr first.1.value

/-- The highest-ranked candidate. -/
structure IsTop (conflict : ConflictSet) (constraints : ViewConstraints) (state : MemoryState)
    (top : Claim × Score) : Prop where
  scored : IsScored conflict constraints state top
  highest : ∀ other, IsScored conflict constraints state other →
    candidateRank other ≤ candidateRank top

/-- The highest-ranked candidate of another value. -/
structure IsRunnerUp (conflict : ConflictSet) (constraints : ViewConstraints)
    (state : MemoryState) (top runner : Claim × Score) : Prop where
  scored : IsScored conflict constraints state runner
  rival : IsRival top runner
  highest : ∀ other, IsScored conflict constraints state other → IsRival top other →
    candidateRank other ≤ candidateRank runner

theorem score_le_of_rank_le {first second : Claim × Score}
    (below : candidateRank first ≤ candidateRank second) : first.2 ≤ second.2 :=
  Prod.Lex.monotone_fst _ _ below

theorem IsTop.score_le {top other : Claim × Score} (isTop : IsTop conflict constraints state top)
    (isScored : IsScored conflict constraints state other) : other.2 ≤ top.2 :=
  score_le_of_rank_le (isTop.highest other isScored)

/-- Runners-up have the same score. -/
theorem IsRunnerUp.score_eq {top first second : Claim × Score}
    (isFirst : IsRunnerUp conflict constraints state top first)
    (isSecond : IsRunnerUp conflict constraints state top second) : first.2 = second.2 :=
  le_antisymm (score_le_of_rank_le (isSecond.highest first isFirst.scored isFirst.rival))
    (score_le_of_rank_le (isFirst.highest second isSecond.scored isSecond.rival))

end Ranks

theorem haveDifferentValues_of_same {claims : List Claim} (text : String)
    (same : ∀ claim ∈ claims, pyStr claim.value = text) : haveDifferentValues claims = false := by
  have within : ((claims.map fun claim => pyStr claim.value).dedup) ⊆ [text] := by
    intro value listed
    rcases List.mem_map.mp (List.mem_dedup.mp listed) with ⟨claim, isClaim, isText⟩
    rw [← isText, same claim isClaim]
    exact List.mem_singleton_self text
  have atMostOne := ((List.nodup_dedup _).subperm within).length_le
  rw [haveDifferentValues, decide_eq_false_iff_not]
  simpa using atMostOne

theorem haveDifferentValues_of_ne {claims : List Claim} {first second : Claim}
    (firstIn : first ∈ claims) (secondIn : second ∈ claims)
    (different : pyStr second.value ≠ pyStr first.value) : haveDifferentValues claims = true := by
  have distinct : [pyStr second.value, pyStr first.value].Nodup := by simp [different]
  have within : [pyStr second.value, pyStr first.value] ⊆
      (claims.map fun claim => pyStr claim.value).dedup := by
    intro value listed
    rw [List.mem_dedup]
    rcases List.mem_cons.mp listed with isSecond | rest
    · rw [isSecond]
      exact List.mem_map.mpr ⟨second, secondIn, rfl⟩
    · rw [List.mem_singleton.mp rest]
      exact List.mem_map.mpr ⟨first, firstIn, rfl⟩
  have atLeastTwo := (distinct.subperm within).length_le
  rw [haveDifferentValues, decide_eq_true_eq]
  exact atLeastTwo

/-! ## What the resolver answers -/

section Answers

variable {margins : CloseMargins} {conflict : ConflictSet} {constraints : ViewConstraints}
  {state : MemoryState}

/-- A resolver that chooses has scored every candidate of a conflict that it handles. -/
theorem scored_of_chosen {resolution : ScoredResolution} {chosenId : String}
    (run : conservativeResolve margins conflict constraints state = .ok resolution)
    (chosen : resolution.chosenClaimId = some chosenId) :
    isHandled conflict = true ∧ conflict.candidates ≠ [] ∧
      ∀ claim ∈ conflict.candidates, ∃ score, scoreClaim claim constraints state = .ok score := by
  unfold conservativeResolve at run
  by_cases handled : isHandled conflict = true
  · rw [if_neg (not_not.mpr handled)] at run
    by_cases empty : conflict.candidates = []
    · rw [if_pos empty] at run
      injection run with run
      rw [← run] at chosen
      cases chosen
    · rw [if_neg empty] at run
      rcases bind_ok_iff.mp run with ⟨scored, computed, _⟩
      refine ⟨handled, empty, ?_⟩
      intro claim listed
      rcases each_mapM_ok computed claim listed with ⟨entry, isEntry⟩
      rcases bind_ok_iff.mp isEntry with ⟨score, isScore, _⟩
      exact ⟨score, isScore⟩
  · rw [if_pos handled] at run
    injection run with run
    rw [← run] at chosen
    cases chosen

/-- The candidates are scored when each of them can be. -/
theorem exists_scored
    (each : ∀ claim ∈ conflict.candidates,
      ∃ score, scoreClaim claim constraints state = .ok score) :
    ∃ scored, (conflict.candidates.mapM fun claim => (do
        let score ← scoreClaim claim constraints state
        return (claim, score) : Result (Claim × Score))) = .ok scored ∧
      ∀ entry, entry ∈ scored ↔ IsScored conflict constraints state entry := by
  have scoredEach : ∀ claim ∈ conflict.candidates, ∃ entry, (do
      let score ← scoreClaim claim constraints state
      return (claim, score)) = Except.ok entry := by
    intro claim listed
    rcases each claim listed with ⟨score, isScore⟩
    exact ⟨(claim, score), bind_ok_iff.mpr ⟨score, isScore, rfl⟩⟩
  rcases exists_mapM_ok scoredEach with ⟨scored, computed⟩
  refine ⟨scored, computed, fun entry => ?_⟩
  rw [mem_mapM_ok computed]
  constructor
  · intro found
    rcases found with ⟨claim, listed, isEntry⟩
    rcases bind_ok_iff.mp isEntry with ⟨score, isScore, same⟩
    rw [pure_ok_iff] at same
    rw [← same]
    exact ⟨listed, isScore⟩
  · intro isScored
    exact ⟨entry.1, isScored.1, bind_ok_iff.mpr ⟨entry.2, isScored.2, rfl⟩⟩

section Ranked

variable {scored others : List (Claim × Score)} {best runner : Claim × Score}

/-- The first of the candidates by rank is the top one. -/
theorem isTop_of_ranked
    (sorted : (best :: others).Pairwise fun first second =>
      candidateRank second ≤ candidateRank first)
    (inOrder : ∀ entry, entry ∈ best :: others ↔ IsScored conflict constraints state entry) :
    IsTop conflict constraints state best where
  scored := (inOrder best).mp List.mem_cons_self
  highest := by
    intro other isScored
    rcases List.mem_cons.mp ((inOrder other).mpr isScored) with isBest | later
    · rw [isBest]
    · exact (List.pairwise_cons.mp sorted).1 other later

/-- The first of the candidates by rank that has another value is the runner-up. -/
theorem isRunnerUp_of_ranked
    (sorted : (best :: others).Pairwise fun first second =>
      candidateRank second ≤ candidateRank first)
    (inOrder : ∀ entry, entry ∈ best :: others ↔ IsScored conflict constraints state entry)
    (found : (others.find? fun entry => decide (pyStr entry.1.value ≠ pyStr best.1.value)) =
      some runner) : IsRunnerUp conflict constraints state best runner := by
  rcases List.find?_eq_some_iff_append.mp found with ⟨rival, before, after, split, same⟩
  have behind := (List.pairwise_cons.mp sorted).2
  rw [split] at behind
  have isRival : pyStr runner.1.value ≠ pyStr best.1.value := of_decide_eq_true rival
  refine ⟨(inOrder runner).mp (List.mem_cons_of_mem _ (by rw [split]; simp)), isRival, ?_⟩
  intro other isScored otherRival
  rcases List.mem_cons.mp ((inOrder other).mpr isScored) with isBest | later
  · rw [isBest] at otherRival
    exact absurd rfl otherRival
  · rw [split] at later
    rcases List.mem_append.mp later with earlier | rest
    · have passed := same other earlier
      rw [Bool.not_eq_true', decide_eq_false_iff_not] at passed
      exact absurd otherRival passed
    · rcases List.mem_cons.mp rest with isRunner | last
      · rw [isRunner]
      · exact (List.pairwise_cons.mp (List.pairwise_append.mp behind).2.1).1 other last

/-- Without such a candidate the top one has no rival. -/
theorem not_isRival_of_ranked
    (inOrder : ∀ entry, entry ∈ best :: others ↔ IsScored conflict constraints state entry)
    (found : (others.find? fun entry => decide (pyStr entry.1.value ≠ pyStr best.1.value)) =
      none) {other : Claim × Score} (isScored : IsScored conflict constraints state other) :
    ¬IsRival best other := by
  intro rival
  rcases List.mem_cons.mp ((inOrder other).mpr isScored) with same | later
  · rw [same] at rival
    exact rival rfl
  · exact List.find?_eq_none.mp found other later (decide_eq_true rival)

/-- The top claims are those with the score of the top candidate. -/
theorem mem_topClaims
    (members : ∀ entry, entry ∈ scored ↔ IsScored conflict constraints state entry)
    (isTop : IsTop conflict constraints state best) (claim : Claim) :
    claim ∈ (scored.filter fun entry =>
        some entry.2 = (scored.map Prod.snd).max?).map Prod.fst ↔
      IsScored conflict constraints state (claim, best.2) := by
  have bestScore : (scored.map Prod.snd).max? = some best.2 := by
    rw [List.max?_eq_some_iff]
    constructor
    · exact List.mem_map.mpr ⟨best, (members best).mpr isTop.scored, rfl⟩
    · intro score listed
      rcases List.mem_map.mp listed with ⟨other, isOther, sameScore⟩
      rw [← sameScore]
      exact isTop.score_le ((members other).mp isOther)
  rw [bestScore, List.mem_map]
  constructor
  · intro found
    rcases found with ⟨entry, inside, isClaim⟩
    rw [List.mem_filter, decide_eq_true_eq, Option.some.injEq, members] at inside
    rw [← isClaim, ← inside.2]
    exact inside.1
  · intro isScored
    refine ⟨(claim, best.2), ?_, rfl⟩
    rw [List.mem_filter, members]
    exact ⟨isScored, decide_eq_true rfl⟩

end Ranked

/-- The resolver chooses the top candidate or nobody, depending on the runner-up. -/
theorem conservativeResolve_scored (margins : CloseMargins) (handled : isHandled conflict = true)
    (present : conflict.candidates ≠ [])
    (each : ∀ claim ∈ conflict.candidates,
      ∃ score, scoreClaim claim constraints state = .ok score) :
    ∃ top runnerUp resolution, IsTop conflict constraints state top ∧
      (∀ runner, runnerUp = some runner → IsRunnerUp conflict constraints state top runner) ∧
      (runnerUp = none → ∀ other, IsScored conflict constraints state other →
        ¬IsRival top other) ∧
      conservativeResolve margins conflict constraints state = .ok resolution ∧
      (resolution.chosenClaimId = none ∨ resolution.chosenClaimId = some top.1.claimId) ∧
      (resolution.chosenClaimId = some top.1.claimId ↔ ∀ runner, runnerUp = some runner →
        runner.2 < top.2 ∧ margins.isCloseCompetitor top.2 runner.2 = false) := by
  rcases exists_scored each with ⟨scored, computed, members⟩
  have inOrder : ∀ entry, entry ∈ (sortBy candidateRank scored).reverse ↔
      IsScored conflict constraints state entry := by
    intro entry
    rw [List.mem_reverse, mem_sortBy, members]
  have sorted := List.pairwise_reverse.mpr (sortBy_pairwise candidateRank scored)
  unfold conservativeResolve
  rw [if_neg (not_not.mpr handled), if_neg present, bind_of_ok computed]
  cases ordered : (sortBy candidateRank scored).reverse with
  | nil =>
      rcases List.exists_mem_of_ne_nil _ present with ⟨claim, listed⟩
      rcases each claim listed with ⟨score, isScore⟩
      have inside := (inOrder (claim, score)).mpr ⟨listed, isScore⟩
      rw [ordered] at inside
      cases inside
  | cons best others =>
      rw [ordered] at sorted inOrder
      have isTop := isTop_of_ranked sorted inOrder
      have topClaims := mem_topClaims members isTop
      cases found : others.find? fun entry =>
          decide (pyStr entry.1.value ≠ pyStr best.1.value) with
      | none =>
          have noRival : ∀ other, IsScored conflict constraints state other →
              ¬IsRival best other := fun _ => not_isRival_of_ranked inOrder found
          have agree := haveDifferentValues_of_same (pyStr best.1.value)
            (fun claim listed => by
              by_contra different
              exact noRival (claim, best.2) ((topClaims claim).mp listed) different)
          simp only [agree, found, Option.any_none, Bool.false_eq_true, if_false]
          exact ⟨best, none, _, isTop, by simp, fun _ => noRival, rfl, Or.inr rfl, by simp⟩
      | some runner =>
          have isRunnerUp := isRunnerUp_of_ranked sorted inOrder found
          have ownRunner : ∀ other, some runner = some other →
              IsRunnerUp conflict constraints state best other := by
            intro other isRunner
            injection isRunner with isRunner
            rw [← isRunner]
            exact isRunnerUp
          by_cases tied : runner.2 = best.2
          · have differ := haveDifferentValues_of_ne ((topClaims best.1).mpr isTop.scored)
              ((topClaims runner.1).mpr (tied ▸ isRunnerUp.scored)) isRunnerUp.rival
            simp only [differ, if_true]
            refine ⟨best, some runner, _, isTop, ownRunner, by simp, rfl, Or.inl rfl, ?_⟩
            constructor
            · intro chosen
              cases chosen
            · intro behind
              exact absurd tied (ne_of_lt (behind runner rfl).1)
          · have behind : runner.2 < best.2 :=
              lt_of_le_of_ne (isTop.score_le isRunnerUp.scored) tied
            have agree := haveDifferentValues_of_same (pyStr best.1.value)
              (fun claim listed => by
                by_contra different
                have below := score_le_of_rank_le (isRunnerUp.highest (claim, best.2)
                  ((topClaims claim).mp listed) different)
                exact absurd behind (not_lt_of_ge below))
            by_cases close : margins.isCloseCompetitor best.2 runner.2 = true
            · simp only [agree, found, Option.any_some, close, Bool.false_eq_true, if_false,
                if_true]
              refine ⟨best, some runner, _, isTop, ownRunner, by simp, rfl, Or.inl rfl, ?_⟩
              constructor
              · intro chosen
                cases chosen
              · intro far
                have notClose := (far runner rfl).2
                rw [close] at notClose
                cases notClose
            · rw [Bool.not_eq_true] at close
              simp only [agree, found, Option.any_some, close, Bool.false_eq_true, if_false]
              refine ⟨best, some runner, _, isTop, ownRunner, by simp, rfl, Or.inr rfl, ?_⟩
              constructor
              · intro _ other isRunner
                injection isRunner with isRunner
                rw [← isRunner]
                exact ⟨behind, close⟩
              · intro _
                rfl

end Answers

/-! ## Selections without a close rival -/

/-- A chosen candidate has no close rival and no candidate above it. -/
def SelectionHasNoCloseRival (margins : CloseMargins) (conflict : ConflictSet)
    (constraints : ViewConstraints) (state : MemoryState) : Prop :=
  ∀ resolution chosenId,
    conservativeResolve margins conflict constraints state = .ok resolution →
    resolution.chosenClaimId = some chosenId →
    ∃ chosen, IsScored conflict constraints state chosen ∧ chosen.1.claimId = chosenId ∧
      ∀ other ∈ conflict.candidates, ∃ score, scoreClaim other constraints state = .ok score ∧
        score ≤ chosen.2 ∧
        (pyStr other.value ≠ pyStr chosen.1.value →
          margins.isCloseCompetitor chosen.2 score = false)

/-- No rival is close to the top candidate while the runner-up, with a smaller score, is not. -/
def RunnerUpIsClosest (margins : CloseMargins) (conflict : ConflictSet)
    (constraints : ViewConstraints) (state : MemoryState) : Prop :=
  ∀ top runner other, IsTop conflict constraints state top →
    IsRunnerUp conflict constraints state top runner → runner.2 < top.2 →
    margins.isCloseCompetitor top.2 runner.2 = false →
    IsScored conflict constraints state other → IsRival top other →
    margins.isCloseCompetitor top.2 other.2 = false

section Selections

variable {conflict : ConflictSet} {constraints : ViewConstraints} {state : MemoryState}

/-- A candidate has one score, and candidates have distinct ids. -/
theorem IsScored.eq_of_id {first second : Claim × Score}
    (isFirst : IsScored conflict constraints state first)
    (isSecond : IsScored conflict constraints state second)
    (same : first.1.claimId = second.1.claimId) : first = second := by
  have distinct : (conflict.candidates.map Claim.claimId).Nodup :=
    List.pairwise_map.mpr (conflict.valid.candidatesSorted.imp fun below => ne_of_lt below)
  have sameClaim : first.1 = second.1 :=
    List.inj_on_of_nodup_map distinct isFirst.1 isSecond.1 same
  have sameScore : first.2 = second.2 := by
    have computed := isFirst.2
    rw [sameClaim, isSecond.2] at computed
    injection computed with computed
    exact computed.symm
  exact Prod.ext sameClaim sameScore

end Selections

/-- A selection of the conservative resolver has no close rival exactly when the runner-up is
a closest one, whenever the conflict is handled and its candidates can be scored. -/
theorem selection_has_no_close_rival_iff (margins : CloseMargins) (conflict : ConflictSet)
    (constraints : ViewConstraints) (state : MemoryState) :
    SelectionHasNoCloseRival margins conflict constraints state ↔
      (isHandled conflict = true →
        (∀ claim ∈ conflict.candidates, ∃ score, scoreClaim claim constraints state = .ok score) →
        RunnerUpIsClosest margins conflict constraints state) := by
  constructor
  · intro noClose handled each top runner other isTop isRunner behind far isScored rival
    have present : conflict.candidates ≠ [] := List.ne_nil_of_mem isTop.scored.1
    rcases conservativeResolve_scored margins handled present each with
      ⟨best, runnerUp, resolution, isBest, isRunnerUp, _, run, _, choosing⟩
    have sameTop : best = top := by
      apply isBest.scored.eq_of_id isTop.scored
      have ranks := le_antisymm (isTop.highest best isBest.scored)
        (isBest.highest top isTop.scored)
      exact congrArg (fun rank => (ofLex rank).2) ranks
    rw [sameTop] at choosing isRunnerUp
    have chosen := choosing.mpr (by
      intro entry isEntry
      rw [(isRunnerUp entry isEntry).score_eq isRunner]
      exact ⟨behind, far⟩)
    rcases noClose resolution top.1.claimId run chosen with ⟨selected, isSelected, sameId, rest⟩
    rw [isSelected.eq_of_id isTop.scored sameId] at rest
    rcases rest other.1 isScored.1 with ⟨score, isScore, _, notClose⟩
    rw [isScored.2] at isScore
    injection isScore with isScore
    rw [isScore]
    exact notClose rival
  · intro closest resolution chosenId run chosen
    rcases scored_of_chosen run chosen with ⟨handled, present, each⟩
    rcases conservativeResolve_scored margins handled present each with
      ⟨top, runnerUp, computed, isTop, isRunnerUp, noRival, alsoRun, oneOf, choosing⟩
    rw [run] at alsoRun
    injection alsoRun with sameResolution
    rw [← sameResolution] at oneOf choosing
    have isTopId : resolution.chosenClaimId = some top.1.claimId := by
      rcases oneOf with nobody | topChosen
      · rw [chosen] at nobody
        cases nobody
      · exact topChosen
    have sameId : top.1.claimId = chosenId := by
      rw [chosen] at isTopId
      injection isTopId with sameId
      exact sameId.symm
    refine ⟨top, isTop.scored, sameId, ?_⟩
    intro other listed
    rcases each other listed with ⟨score, isScore⟩
    have isScored : IsScored conflict constraints state (other, score) := ⟨listed, isScore⟩
    refine ⟨score, isScore, isTop.score_le isScored, ?_⟩
    intro rival
    cases isRunner : runnerUp with
    | none => exact absurd rival (noRival isRunner (other, score) isScored)
    | some runner =>
        have behind := choosing.mp isTopId runner isRunner
        exact closest handled each top runner (other, score) isTop (isRunnerUp runner isRunner)
          behind.1 behind.2 isScored rival

end Theory

/-! ## A close rival behind a distant one -/

section Example

attribute [local instance] Reference.runtime

private theorem slightlyLess_written :
    ([9, 6] : List (Fin 10)) ≠ [] ∨ (none : Option Int).isSome = true := by decide

/-- A confidence of 0.96. -/
private def slightlyLess : PyNumber := .float ⟨false, 0, [9, 6], none, slightlyLess_written⟩

private theorem slightlyLess_inUnit : InUnit slightlyLess := by decide +kernel

private def recentClaim : Claim := Reference.fact "c" Reference.key (.str "x") []

/-- As confident, but a day older. -/
private def olderClaim : Claim :=
  { Reference.fact "b" Reference.key (.str "y") [] with timestamp := "2023-12-31T00:00:00Z" }

/-- As recent, and slightly less confident. -/
private def lessConfidentClaim : Claim :=
  { Reference.fact "a" Reference.key (.str "z") [] with
    confidence := slightlyLess
    confidenceInUnit := slightlyLess_inUnit }

private def threeWayFields : ConflictFields where
  conflictId := "conflict"
  key := Reference.key
  candidates := [lessConfidentClaim, olderClaim, recentClaim]
  distinctValues := [.str "z", .str "y", .str "x"]
  reason := "reviewed"
  conflictRef := "ref"
  conflictType := directConflictType
  keys := [Reference.key]
  conflictClass := "epistemic"
  conflictSubclass := "factual.value"
  detectorId := "direct"
  annotations := ∅
  witness := ∅

private theorem threeWay_distinct : (threeWayFields.candidates.map Claim.claimId).Nodup := by
  decide

private theorem threeWay_present : threeWayFields.conflictId ≠ "" ∧
    threeWayFields.conflictType ≠ "" ∧ threeWayFields.conflictClass ≠ "" ∧
    threeWayFields.conflictSubclass ≠ "" ∧ threeWayFields.detectorId ≠ "" := by
  decide

private def threeWayConflict : ConflictSet where
  toConflictFields := threeWayFields.normalized
  valid := ConflictFields.valid_normalized threeWay_distinct threeWay_present

private def stateWithoutRecords : MemoryState :=
  ⟨∅, ∅, [], [], ∅, ∅, ∅, ∅, ∅, ∅, ∅, ∅, ∅, ∅, ∅, ∅, ∅, ∅, ∅, ∅, ∅, ∅, ∅, ∅, ∅, ∅, ∅, ∅, ∅, ∅, ∅,
    ∅, .empty⟩

/-- With the default margins the resolver picks the recent claim.  The older one is the
runner-up and too old to be close; the less confident one is close. -/
theorem selection_with_close_rival :
    ¬SelectionHasNoCloseRival .default threeWayConflict (.ofScope none) stateWithoutRecords := by
  intro noClose
  have chosen : ((conservativeResolve .default threeWayConflict (.ofScope none)
      stateWithoutRecords).toOption.bind (·.chosenClaimId)) = some "c" := by decide +kernel
  have compared : ((do
      let best ← scoreClaim recentClaim (.ofScope none) stateWithoutRecords
      let other ← scoreClaim lessConfidentClaim (.ofScope none) stateWithoutRecords
      return CloseMargins.default.isCloseCompetitor best other).toOption) = some true := by
    decide +kernel
  cases computed : conservativeResolve .default threeWayConflict (.ofScope none)
      stateWithoutRecords with
  | error failure =>
      rw [computed] at chosen
      cases chosen
  | ok resolution =>
      rw [computed] at chosen
      rcases noClose resolution "c" computed chosen with ⟨selected, isSelected, sameId, rest⟩
      have candidates : ∀ claim, claim ∈ threeWayConflict.candidates ↔
          claim = lessConfidentClaim ∨ claim = olderClaim ∨ claim = recentClaim := by
        intro claim
        simp [threeWayConflict, ConflictFields.normalized, threeWayFields]
      have isRecent : selected.1 = recentClaim := by
        rcases (candidates selected.1).mp isSelected.1 with isLess | isOlder | isRecent
        · rw [isLess] at sameId
          exact absurd sameId (by decide)
        · rw [isOlder] at sameId
          exact absurd sameId (by decide)
        · exact isRecent
      have bestScore := isSelected.2
      rw [isRecent] at bestScore
      rcases rest lessConfidentClaim ((candidates _).mpr (Or.inl rfl)) with
        ⟨score, isScore, _, notClose⟩
      rw [bind_of_ok bestScore, bind_of_ok isScore] at compared
      injection compared with close
      rw [notClose (by rw [isRecent]; decide)] at close
      cases close

end Example

end Statefuse
