import Statefuse.Text
import Statefuse.View.Build

/-!
# Scoring resolvers

The heuristic resolvers score every candidate of a direct conflict: by the recency of what
it supersedes, the standing of its evidence, its confidence, its time, the number of its
evidence and the preferences of the view.  The conservative one abstains when the best
candidate of another value comes too close.

The entries of a score are the values of the numbers of the source.
-/

namespace Statefuse

open Foundation

/-- Lower case, as far as words in ASCII can be told apart by it: apart from the ASCII
letters only the Kelvin sign has an ASCII letter as its lower case. -/
def lowerChar (char : Char) : Char := if char.toNat = 8490 then 'k' else char.toLower

/-- `text.strip().lower()`. -/
def rankLabel (text : String) : String :=
  String.ofList ((((text.toList.dropWhile isSpace).reverse.dropWhile isSpace).reverse).map
    lowerChar)

def qualityRank : List (String × Int) :=
  [("verified", 6), ("primary", 5), ("trusted", 5), ("authoritative", 5), ("secondary", 2),
    ("plausible", 2), ("unverified", 1), ("stale", 0)]

def freshnessRank : List (String × Int) :=
  [("current", 3), ("recent", 2), ("stale_cache", 0), ("old", 0)]

def sourceRank : List (String × Int) :=
  [("verified_correction", 6), ("official_record", 5), ("verification_tool", 4),
    ("trusted_api", 4), ("peer_report", 2), ("browser_summary", 1), ("model_guess", 0),
    ("draft_note", 0)]

def trustRank : List (String × Int) := [("trusted", 2), ("unknown", 1), ("revoked", -2)]

def rankOf (ranks : List (String × Int)) (label : String) (default : Int) : Int :=
  (ranks.lookup (rankLabel label)).getD default

/-- The place of a value among the preferred ones, the first one counting most. -/
def preferenceScore (value : String) (preferredValues : List String) : Nat :=
  if value = "" then 0
  else
    match preferredValues.findIdx? (· = value) with
    | none => 0
    | some index => preferredValues.length - index

variable [Runtime]

/-! ## Scores -/

/-- The rankings of the evidence of a claim. -/
structure EvidenceRankings where
  quality : Int
  source : Int
  freshness : Int
  trust : Int

/-- The rankings with one more piece of evidence. -/
def EvidenceRankings.extend (state : MemoryState) (best : EvidenceRankings)
    (evidence : Evidence) : EvidenceRankings :=
  let metadata := evidence.metadata
  let source := state.sourcesById[evidence.sourceId.getD ""]?
  let sourceMetadata := (source.map (·.metadata)).getD ∅
  let field (name default : String) : String :=
    pyStr (metadata[name]?.getD (sourceMetadata[name]?.getD (.str default)))
  let sourceType := pyStr (metadata["source_type"]?.getD
    (match source with
      | some source => .str source.sourceType
      | none => sourceMetadata["source_type"]?.getD (.str "")))
  { quality := max best.quality (rankOf qualityRank (field "source_quality" "") 0)
    source := max best.source (rankOf sourceRank sourceType 0)
    freshness := max best.freshness (rankOf freshnessRank (field "freshness" "") 0)
    trust := max best.trust (rankOf trustRank (field "trust_status" "unknown") 1) }

def evidenceRankings (claim : Claim) (state : MemoryState) : EvidenceRankings :=
  (claim.evidenceIds.filterMap fun evidenceId => state.evidenceById[evidenceId]?).foldl
    (EvidenceRankings.extend state) ⟨0, 0, 0, 0⟩

/-- The latest retraction in which the claim supersedes another one. -/
def latestSupersedeEpoch (claimId : String) (state : MemoryState) : Result (Option ℚ) := do
  let epochs ← (state.retractionsBySuperseder[claimId]?.getD []).mapM fun retraction =>
    (parseUtcIso retraction.timestamp).map timestampOf
  return epochs.max?

structure Score where
  hasSupersede : Nat
  supersedesValue : ℚ
  evidenceQuality : Int
  sourceRank : Int
  freshnessRank : Int
  trustRank : Int
  confidence : ℚ
  claimEpoch : ℚ
  evidenceCount : Nat
  preference : Nat
  deriving DecidableEq

namespace Score

/-- Scores are compared component by component. -/
def tuple (score : Score) :
    Nat ×ₗ ℚ ×ₗ Int ×ₗ Int ×ₗ Int ×ₗ Int ×ₗ ℚ ×ₗ ℚ ×ₗ Nat ×ₗ Nat :=
  toLex (score.hasSupersede, toLex (score.supersedesValue, toLex (score.evidenceQuality,
    toLex (score.sourceRank, toLex (score.freshnessRank, toLex (score.trustRank,
      toLex (score.confidence, toLex (score.claimEpoch,
        toLex (score.evidenceCount, score.preference)))))))))

omit [Runtime] in
theorem tuple_injective : Function.Injective tuple := by
  intro first second same
  cases first
  cases second
  simpa [tuple] using same

instance : LinearOrder Score := LinearOrder.lift' tuple tuple_injective

end Score

def scoreClaim (claim : Claim) (constraints : ViewConstraints) (state : MemoryState) :
    Result Score := do
  let supersedesEpoch ← latestSupersedeEpoch claim.claimId state
  let rankings := evidenceRankings claim state
  let instant ← parseUtcIso claim.timestamp
  let replicaScore := preferenceScore
    (pyStr (claim.provenance["replica_id"]?.getD (.str ""))) constraints.preferredReplicaIds
  let branchScore := preferenceScore
    (pyStr (claim.provenance["branch_id"]?.getD (.str ""))) constraints.preferredBranchIds
  return {
    hasSupersede := if supersedesEpoch.isSome then 1 else 0
    supersedesValue := supersedesEpoch.getD (-1)
    evidenceQuality := rankings.quality
    sourceRank := rankings.source
    freshnessRank := rankings.freshness
    trustRank := rankings.trust
    confidence := claim.confidence.value
    claimEpoch := timestampOf instant
    evidenceCount := claim.evidenceIds.length
    preference := replicaScore + branchScore }

/-- The answer of a scoring resolver; the scores are part of its metadata. -/
structure ScoredResolution where
  chosenClaimId : Option String
  reason : String
  confidence : Option PyNumber
  scores : Dict String Score

/-- How far a competitor may be behind and still count as close. -/
structure CloseMargins where
  confidenceMargin : ℚ
  timeMarginSeconds : ℚ
  evidenceCountMargin : Int

def CloseMargins.default : CloseMargins := ⟨binary64 (1 / 20), 300, 1⟩

/-- `_is_close_competitor`.  Differences of floats are rounded. -/
def CloseMargins.isCloseCompetitor (margins : CloseMargins) (best runner : Score) : Bool :=
  best.hasSupersede = runner.hasSupersede ∧ best.supersedesValue = runner.supersedesValue ∧
    best.evidenceQuality = runner.evidenceQuality ∧ best.sourceRank = runner.sourceRank ∧
    best.freshnessRank = runner.freshnessRank ∧ best.trustRank = runner.trustRank ∧
    binary64 |best.confidence - runner.confidence| ≤ margins.confidenceMargin ∧
    binary64 |best.claimEpoch - runner.claimEpoch| ≤ margins.timeMarginSeconds ∧
    |(best.evidenceCount : Int) - runner.evidenceCount| ≤ margins.evidenceCountMargin ∧
    best.preference = runner.preference

/-- The conflicts that the heuristic resolvers handle. -/
def isHandled (conflict : ConflictSet) : Bool :=
  conflict.conflictType = directConflictType ∧ conflict.keys = [conflict.key] ∧
    conflict.conflictClass = "epistemic" ∧
    conflict.annotations["applicability"]? ≠ some (.str "aggregate")

/-- Candidates are ranked by their score, then by their id. -/
def candidateRank (entry : Claim × Score) : Score ×ₗ String :=
  toLex (entry.2, entry.1.claimId)

/-- Two of the claims have values with different texts. -/
def haveDifferentValues (claims : List Claim) : Bool :=
  1 < ((claims.map fun claim => pyStr claim.value).dedup).length

/-- `ConservativeHeuristicResolver.resolve`. -/
def conservativeResolve (margins : CloseMargins) (conflict : ConflictSet)
    (constraints : ViewConstraints) (state : MemoryState) : Result ScoredResolution :=
  if ¬isHandled conflict then
    .ok ⟨none, "Conservative heuristic only handles direct single-key epistemic conflicts.",
      none, ∅⟩
  else if conflict.candidates = [] then
    .ok ⟨none, "No candidates available for conflict.", none, ∅⟩
  else do
    let scored ← conflict.candidates.mapM fun claim => do
      let score ← scoreClaim claim constraints state
      return (claim, score)
    let scores : Dict String Score := scored.foldl
      (fun scores entry => scores.insert entry.1.claimId entry.2) ∅
    let bestScore := (scored.map Prod.snd).max?
    let topClaims := (scored.filter fun entry => some entry.2 = bestScore).map Prod.fst
    if haveDifferentValues topClaims then
      return ⟨none, "Conservative heuristic abstained on an exact top-score tie across values.",
        none, scores⟩
    else
      match (sortBy candidateRank scored).reverse with
      | [] => .error (.indexError "list index out of range")
      | best :: others =>
          let runnerUp := others.find? fun entry => pyStr entry.1.value ≠ pyStr best.1.value
          if runnerUp.any fun runner => margins.isCloseCompetitor best.2 runner.2 then
            return ⟨none, "Conservative heuristic abstained on a close competing value.", none,
              scores⟩
          else
            return ⟨some best.1.claimId,
              "Conservative heuristic selected the highest-ranked claim without a close " ++
                "competitor.", some best.1.confidence, scores⟩

end Statefuse
