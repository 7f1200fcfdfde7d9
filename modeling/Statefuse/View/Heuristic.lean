import Statefuse.View.CloseRivals

/-!
# The heuristic resolver

The heuristic resolver always chooses a candidate of a conflict that it handles: one with the
greatest score, the least id deciding between equal scores.  The conservative resolver raises
when it does, and where the conservative one chooses they agree on the score and on the text of
the value (`conservative_within_heuristic`).
-/

namespace Statefuse

open Foundation

variable [Runtime]

/-- `HeuristicResolver.resolve`. -/
def heuristicResolve (conflict : ConflictSet) (constraints : ViewConstraints)
    (state : MemoryState) : Result ScoredResolution :=
  if ¬isHandled conflict then
    .ok ⟨none, "Heuristic resolver only handles direct single-key epistemic conflicts.", none, ∅⟩
  else if conflict.candidates = [] then
    .ok ⟨none, "No candidates available for conflict.", none, ∅⟩
  else do
    let scored ← conflict.candidates.mapM fun claim => do
      let score ← scoreClaim claim constraints state
      return (claim, score)
    let scores : Dict String Score := scored.foldl
      (fun scores entry => scores.insert entry.1.claimId entry.2) ∅
    let bestPrimary := (scored.map Prod.snd).max?
    let tiedClaims := (scored.filter fun entry => some entry.2 = bestPrimary).map Prod.fst
    match sortBy Claim.claimId tiedClaims with
    | [] => valueError "min() iterable argument is empty"
    | chosen :: _ =>
        return ⟨some chosen.claimId,
          "Selected " ++ chosen.claimId ++ " by deterministic heuristic " ++
            "(supersedes recency, evidence quality, source type, freshness, trust, " ++
            "confidence, timestamp, evidence count, preferred provenance, claim_id).",
          some chosen.confidence, scores⟩

/-- The answer as a view reads it: no view reads the scores. -/
def ScoredResolution.toResolution (resolution : ScoredResolution) : Resolution :=
  ⟨resolution.chosenClaimId, resolution.reason, resolution.confidence, ∅⟩

def heuristicResolver : Resolver := fun conflict constraints state =>
  (heuristicResolve conflict constraints state).map (·.toResolution)

def conservativeResolver (margins : CloseMargins) : Resolver := fun conflict constraints state =>
  (conservativeResolve margins conflict constraints state).map (·.toResolution)

section Answers

variable {conflict : ConflictSet} {constraints : ViewConstraints} {state : MemoryState}

/-- A candidate with the greatest score, and with the least id among these. -/
structure IsHeuristicChoice (conflict : ConflictSet) (constraints : ViewConstraints)
    (state : MemoryState) (chosen : Claim × Score) : Prop where
  scored : IsScored conflict constraints state chosen
  greatest : ∀ other, IsScored conflict constraints state other → other.2 ≤ chosen.2
  least : ∀ other, IsScored conflict constraints state other → other.2 = chosen.2 →
    chosen.1.claimId ≤ other.1.claimId

/-- The heuristic resolver chooses once every candidate has a score. -/
theorem heuristicResolve_scored (handled : isHandled conflict = true)
    (present : conflict.candidates ≠ [])
    (each : ∀ claim ∈ conflict.candidates,
      ∃ score, scoreClaim claim constraints state = .ok score) :
    ∃ resolution chosen, heuristicResolve conflict constraints state = .ok resolution ∧
      resolution.chosenClaimId = some chosen.1.claimId ∧
      resolution.confidence = some chosen.1.confidence ∧
      IsHeuristicChoice conflict constraints state chosen := by
  have scoredEach : ∀ claim ∈ conflict.candidates, ∃ entry, (do
      let score ← scoreClaim claim constraints state
      return (claim, score)) = Except.ok entry := by
    intro claim listed
    rcases each claim listed with ⟨score, isScore⟩
    exact ⟨(claim, score), bind_ok_iff.mpr ⟨score, isScore, rfl⟩⟩
  rcases exists_mapM_ok scoredEach with ⟨scored, computed⟩
  have members : ∀ entry, entry ∈ scored ↔ IsScored conflict constraints state entry := by
    intro entry
    rw [mem_mapM_ok computed]
    constructor
    · rintro ⟨claim, listed, isEntry⟩
      rcases bind_ok_iff.mp isEntry with ⟨score, isScore, same⟩
      rw [pure_ok_iff] at same
      rw [← same]
      exact ⟨listed, isScore⟩
    · intro isScored
      exact ⟨entry.1, isScored.1, bind_ok_iff.mpr ⟨entry.2, isScored.2, rfl⟩⟩
  have nonempty : scored.map Prod.snd ≠ [] := by
    rcases List.exists_mem_of_ne_nil _ present with ⟨claim, listed⟩
    rcases each claim listed with ⟨score, isScore⟩
    exact List.ne_nil_of_mem
      (List.mem_map_of_mem ((members (claim, score)).mpr ⟨listed, isScore⟩))
  obtain ⟨best, isBest⟩ : ∃ best, (scored.map Prod.snd).max? = some best :=
    Option.ne_none_iff_exists'.mp fun none => nonempty (List.max?_eq_none_iff.mp none)
  rcases List.max?_eq_some_iff.mp isBest with ⟨bestIn, bestGreatest⟩
  have tied : ∀ claim, claim ∈ (scored.filter fun entry =>
      some entry.2 = (scored.map Prod.snd).max?).map Prod.fst ↔
        IsScored conflict constraints state (claim, best) := by
    intro claim
    rw [isBest, List.mem_map]
    constructor
    · rintro ⟨entry, inside, isClaim⟩
      rw [List.mem_filter, decide_eq_true_eq, Option.some.injEq, members] at inside
      rw [← isClaim, ← inside.2]
      exact inside.1
    · intro isScored
      refine ⟨(claim, best), ?_, rfl⟩
      rw [List.mem_filter, members]
      exact ⟨isScored, decide_eq_true rfl⟩
  have sorted := sortBy_pairwise Claim.claimId ((scored.filter fun entry =>
    some entry.2 = (scored.map Prod.snd).max?).map Prod.fst)
  have listed : ∀ claim, claim ∈ sortBy Claim.claimId ((scored.filter fun entry =>
      some entry.2 = (scored.map Prod.snd).max?).map Prod.fst) ↔
        IsScored conflict constraints state (claim, best) :=
    fun claim => mem_sortBy.trans (tied claim)
  unfold heuristicResolve
  rw [if_neg (not_not.mpr handled), if_neg present, bind_of_ok computed]
  cases ordered : sortBy Claim.claimId ((scored.filter fun entry =>
      some entry.2 = (scored.map Prod.snd).max?).map Prod.fst) with
  | nil =>
      rcases List.mem_map.mp bestIn with ⟨entry, inside, isScore⟩
      have isTied := (listed entry.1).mpr (isScore ▸ (members entry).mp inside)
      rw [ordered] at isTied
      cases isTied
  | cons chosen others =>
      rw [ordered] at sorted listed
      simp only [ordered]
      refine ⟨_, (chosen, best), rfl, rfl, rfl, ?_⟩
      constructor
      · exact (listed chosen).mp List.mem_cons_self
      · intro other isScored
        exact bestGreatest other.2 (List.mem_map_of_mem ((members other).mpr isScored))
      · intro other isScored sameScore
        have isTied : IsScored conflict constraints state (other.1, best) := by
          have sameBest : other.2 = best := sameScore
          rw [← sameBest]
          exact isScored
        rcases List.mem_cons.mp ((listed other.1).mpr isTied) with same | later
        · rw [same]
        · exact (List.pairwise_cons.mp sorted).1 other.1 later

/-- A resolver that answers has scored every candidate of a conflict that it handles. -/
theorem scored_of_heuristic {resolution : ScoredResolution} (handled : isHandled conflict = true)
    (run : heuristicResolve conflict constraints state = .ok resolution) :
    ∀ claim ∈ conflict.candidates, ∃ score, scoreClaim claim constraints state = .ok score := by
  intro claim listed
  unfold heuristicResolve at run
  rw [if_neg (not_not.mpr handled), if_neg (List.ne_nil_of_mem listed)] at run
  rcases bind_ok_iff.mp run with ⟨scored, computed, _⟩
  rcases each_mapM_ok computed claim listed with ⟨entry, isEntry⟩
  rcases bind_ok_iff.mp isEntry with ⟨score, isScore, _⟩
  exact ⟨score, isScore⟩

theorem scored_of_conservative {margins : CloseMargins} {resolution : ScoredResolution}
    (handled : isHandled conflict = true)
    (run : conservativeResolve margins conflict constraints state = .ok resolution) :
    ∀ claim ∈ conflict.candidates, ∃ score, scoreClaim claim constraints state = .ok score := by
  intro claim listed
  unfold conservativeResolve at run
  rw [if_neg (not_not.mpr handled), if_neg (List.ne_nil_of_mem listed)] at run
  rcases bind_ok_iff.mp run with ⟨scored, computed, _⟩
  rcases each_mapM_ok computed claim listed with ⟨entry, isEntry⟩
  rcases bind_ok_iff.mp isEntry with ⟨score, isScore, _⟩
  exact ⟨score, isScore⟩

/-- Both resolvers answer, or both raise. -/
theorem conservative_answers_iff (margins : CloseMargins) (conflict : ConflictSet)
    (constraints : ViewConstraints) (state : MemoryState) :
    (∃ resolution, conservativeResolve margins conflict constraints state = .ok resolution) ↔
      ∃ resolution, heuristicResolve conflict constraints state = .ok resolution := by
  by_cases handled : isHandled conflict = true
  · by_cases empty : conflict.candidates = []
    · rw [conservativeResolve, heuristicResolve, if_neg (not_not.mpr handled),
        if_neg (not_not.mpr handled), if_pos empty, if_pos empty]
    · constructor
      · rintro ⟨_, run⟩
        rcases heuristicResolve_scored handled empty (scored_of_conservative handled run) with
          ⟨resolution, _, alsoRun, _⟩
        exact ⟨resolution, alsoRun⟩
      · rintro ⟨_, run⟩
        rcases conservativeResolve_scored margins handled empty (scored_of_heuristic handled run)
          with ⟨_, _, resolution, _, _, _, alsoRun, _⟩
        exact ⟨resolution, alsoRun⟩
  · rw [conservativeResolve, heuristicResolve, if_pos handled, if_pos handled]
    exact ⟨fun _ => ⟨_, rfl⟩, fun _ => ⟨_, rfl⟩⟩

/-- The choices of the two resolvers: both have the greatest score and values of one text, and
their ids are the greatest and the least that a candidate with this score has. -/
structure ChosenTogether (conflict : ConflictSet) (constraints : ViewConstraints)
    (state : MemoryState) (conservative heuristic : Claim × Score) : Prop where
  top : IsTop conflict constraints state conservative
  choice : IsHeuristicChoice conflict constraints state heuristic
  sameScore : conservative.2 = heuristic.2
  sameText : pyStr conservative.1.value = pyStr heuristic.1.value
  greatestId : ∀ other, IsScored conflict constraints state other →
    other.2 = conservative.2 → other.1.claimId ≤ conservative.1.claimId

/-- Where the conservative resolver chooses, the heuristic one chooses the same value with the
same score. -/
theorem conservative_within_heuristic (margins : CloseMargins) (conflict : ConflictSet)
    (constraints : ViewConstraints) (state : MemoryState) :
    ((∃ resolution, conservativeResolve margins conflict constraints state = .ok resolution) ↔
      ∃ resolution, heuristicResolve conflict constraints state = .ok resolution) ∧
    ∀ resolution chosenId,
      conservativeResolve margins conflict constraints state = .ok resolution →
      resolution.chosenClaimId = some chosenId →
      ∃ answer conservative heuristic,
        heuristicResolve conflict constraints state = .ok answer ∧
        chosenId = conservative.1.claimId ∧
        answer.chosenClaimId = some heuristic.1.claimId ∧
        ChosenTogether conflict constraints state conservative heuristic := by
  refine ⟨conservative_answers_iff margins conflict constraints state, ?_⟩
  intro resolution chosenId run chosen
  rcases scored_of_chosen run chosen with ⟨handled, present, each⟩
  rcases conservativeResolve_scored margins handled present each with
    ⟨top, runnerUp, computed, isTop, isRunnerUp, noRival, alsoRun, oneOf, choosing⟩
  rcases heuristicResolve_scored handled present each with
    ⟨answer, choice, heuristicRun, isAnswer, _, isChoice⟩
  rw [run] at alsoRun
  injection alsoRun with sameResolution
  rw [← sameResolution, chosen] at oneOf choosing
  have isTopId : chosenId = top.1.claimId := by
    rcases oneOf with nobody | topChosen
    · cases nobody
    · injection topChosen
  have sameScore : top.2 = choice.2 :=
    le_antisymm (isChoice.greatest top isTop.scored) (isTop.score_le isChoice.scored)
  have sameText : pyStr top.1.value = pyStr choice.1.value := by
    by_contra different
    have rival : IsRival top choice := fun same => different same.symm
    cases isRunner : runnerUp with
    | none => exact noRival isRunner choice isChoice.scored rival
    | some runner =>
        have behind := (choosing.mp (congrArg some isTopId) runner isRunner).1
        have above := score_le_of_rank_le
          ((isRunnerUp runner isRunner).highest choice isChoice.scored rival)
        rw [← sameScore] at above
        exact absurd behind (not_lt_of_ge above)
  refine ⟨answer, top, choice, heuristicRun, isTopId, isAnswer, isTop, isChoice, sameScore,
    sameText, ?_⟩
  intro other isScored tied
  have ranked := isTop.highest other isScored
  rcases Prod.Lex.toLex_le_toLex.mp ranked with below | ⟨_, ids⟩
  · exact absurd tied (ne_of_lt below)
  · exact ids

end Answers

end Statefuse
