import Statefuse.View.Unresolved

/-!
# Winners of conflicted keys

At a key whose own conflict is handled, the first pass selects the committed claim, if
there is one, and keeps the claims that are no candidates as alternatives.  The second
pass withdraws the claims that the resolutions of other conflicts reject, and a single
alternative that remains takes the place of the winner (`standing_of_rejected`).

So the winner of a conflicted key is the committed claim that no other conflict rejects,
unless the alternatives of the key are whittled down (`winner_iff`).
-/

namespace Statefuse

open Foundation

section Winners

variable [Runtime]

/-- What a view selects at a key, and the alternatives it keeps there. -/
structure Standing where
  selected : Option Claim
  available : List Claim

def Settled.standing (settled : Settled) (key : ClaimKey) : Standing :=
  ⟨settled.selected[key]?, settled.compatible[key]?.getD []⟩

namespace Standing

/-- The alternatives that remain; a single one is selected. -/
def keep (standing : Standing) (remaining : List Claim) : Standing :=
  match remaining with
  | [] => ⟨standing.selected, []⟩
  | [only] => ⟨some only, []⟩
  | remaining => ⟨standing.selected, remaining⟩

/-- Exclude one claim of the key. -/
def exclude (standing : Standing) (claim : Claim) : Standing :=
  let deselected : Standing :=
    ⟨standing.selected.filter fun selected => !pyEq selected claim, standing.available⟩
  if standing.available.any fun item => pyEq item claim then
    deselected.keep (standing.available.filter fun item => !pyEq item claim)
  else deselected

/-- What is left when the claims with some ids are excluded, in whatever order. -/
def without (standing : Standing) (rejected : List String) : Standing :=
  let kept := standing.available.filter fun claim => claim.claimId ∉ rejected
  let still := standing.selected.filter fun claim => claim.claimId ∉ rejected
  if standing.available.length ≤ 1 then ⟨still, kept⟩
  else
    match kept with
    | [] => ⟨none, []⟩
    | [only] => ⟨some only, []⟩
    | kept => ⟨still, kept⟩

/-- Alternatives have ids of their own, and the selected claim is none of them. -/
structure Proper (standing : Standing) : Prop where
  distinct : standing.available.Pairwise (fun first second => first.claimId ≠ second.claimId)
  apart : ∀ selected ∈ standing.selected, ∀ claim ∈ standing.available,
    selected.claimId ≠ claim.claimId

/-- Claims of the standing are told from the excluded ones by their ids. -/
def Known (standing : Standing) (rejected : List Claim) : Prop :=
  ∀ other ∈ rejected, (∀ claim ∈ standing.selected, pyEq claim other = true ↔
      claim.claimId = other.claimId) ∧
    ∀ claim ∈ standing.available, pyEq claim other = true ↔ claim.claimId = other.claimId

/-- Excluding one claim by its id. -/
private theorem exclude_eq {standing : Standing} {claim : Claim} {rejected : List Claim}
    (known : standing.Known (claim :: rejected)) :
    standing.exclude claim =
      (let deselected : Standing :=
        ⟨standing.selected.filter fun selected => selected.claimId ≠ claim.claimId,
          standing.available⟩
      if ∃ item ∈ standing.available, item.claimId = claim.claimId then
        deselected.keep (standing.available.filter fun item => item.claimId ≠ claim.claimId)
      else deselected) := by
  obtain ⟨selectedKnown, availableKnown⟩ := known claim List.mem_cons_self
  have selected : (standing.selected.filter fun selected => !pyEq selected claim) =
      standing.selected.filter fun selected => selected.claimId ≠ claim.claimId := by
    cases here : standing.selected with
    | none => rfl
    | some selected =>
        have same := selectedKnown selected here
        by_cases equal : pyEq selected claim = true
        · simp [Option.filter, equal, same.mp equal]
        · have different : selected.claimId ≠ claim.claimId := fun ids => equal (same.mpr ids)
          simp [Option.filter, equal, different]
  have filtered : (standing.available.filter fun item => !pyEq item claim) =
      standing.available.filter fun item => item.claimId ≠ claim.claimId := by
    apply List.filter_congr
    intro item listed
    have same := availableKnown item listed
    by_cases equal : pyEq item claim = true
    · simp [equal, same.mp equal]
    · have different : item.claimId ≠ claim.claimId := fun ids => equal (same.mpr ids)
      simp [equal, different]
  have found : (standing.available.any fun item => pyEq item claim) = true ↔
      ∃ item ∈ standing.available, item.claimId = claim.claimId := by
    rw [List.any_eq_true]
    constructor
    · rintro ⟨item, listed, equal⟩
      exact ⟨item, listed, (availableKnown item listed).mp equal⟩
    · rintro ⟨item, listed, same⟩
      exact ⟨item, listed, (availableKnown item listed).mpr same⟩
  simp only [exclude, selected, filtered, found]

/-- With distinct ids, one excluded alternative is one alternative less. -/
private theorem length_filter_ne {claims : List Claim} {claim : Claim}
    (distinct : claims.Pairwise (fun first second => first.claimId ≠ second.claimId))
    (listed : claim ∈ claims) :
    (claims.filter fun item => item.claimId ≠ claim.claimId).length + 1 = claims.length := by
  induction claims with
  | nil => cases listed
  | cons head tail inductionHypothesis =>
      obtain ⟨apart, tailDistinct⟩ := List.pairwise_cons.mp distinct
      rcases List.mem_cons.mp listed with same | later
      · rw [same]
        have others : (tail.filter fun item => item.claimId ≠ head.claimId) = tail :=
          List.filter_eq_self.mpr (fun item member => by simpa using (apart item member).symm)
        rw [List.filter_cons_of_neg (by simp), others, List.length_cons]
      · have different : head.claimId ≠ claim.claimId := apart claim later
        rw [List.filter_cons_of_pos (by simp [different]), List.length_cons, List.length_cons,
          inductionHypothesis tailDistinct later]

theorem Proper.keep {standing : Standing} (proper : standing.Proper) {remaining : List Claim}
    (fewer : remaining.Sublist standing.available) : (standing.keep remaining).Proper := by
  have sublist : ∀ {claims : List Claim}, claims.Sublist standing.available →
      (Standing.mk standing.selected claims).Proper :=
    fun among => ⟨proper.distinct.sublist among, fun selected isSelected claim listed =>
      proper.apart selected isSelected claim (among.subset listed)⟩
  match remaining with
  | [] => exact sublist (List.nil_sublist _)
  | [only] => exact ⟨List.Pairwise.nil, fun _ _ _ impossible => by cases impossible⟩
  | _ :: _ :: _ => exact sublist fewer

private theorem keep_members (standing : Standing) (remaining : List Claim) :
    (∀ selected ∈ (standing.keep remaining).selected,
      selected ∈ standing.selected ∨ selected ∈ remaining) ∧
    ∀ item ∈ (standing.keep remaining).available, item ∈ remaining := by
  match remaining with
  | [] => exact ⟨fun _ isSelected => Or.inl isSelected, fun _ listed => listed⟩
  | [only] =>
      refine ⟨fun selected isSelected => Or.inr ?_, fun _ impossible => by cases impossible⟩
      injection isSelected with same
      rw [same]
      exact List.mem_singleton_self selected
  | _ :: _ :: _ => exact ⟨fun _ isSelected => Or.inl isSelected, fun _ listed => listed⟩

theorem Proper.exclude {standing : Standing} (proper : standing.Proper) {claim : Claim}
    {rejected : List Claim} (known : standing.Known (claim :: rejected)) :
    (standing.exclude claim).Proper ∧ (standing.exclude claim).Known rejected := by
  have deselected : (Standing.mk (standing.selected.filter fun selected =>
      selected.claimId ≠ claim.claimId) standing.available).Proper :=
    ⟨proper.distinct, fun selected isSelected claim listed =>
      proper.apart selected (Option.mem_filter_iff.mp isSelected).1 claim listed⟩
  rw [exclude_eq known]
  simp only
  split
  · refine ⟨deselected.keep List.filter_sublist, ?_⟩
    intro other later
    obtain ⟨selectedKnown, availableKnown⟩ := known other (List.mem_cons_of_mem _ later)
    obtain ⟨fromEither, fromAvailable⟩ := keep_members (Standing.mk (standing.selected.filter
      fun selected => selected.claimId ≠ claim.claimId) standing.available)
      (standing.available.filter fun item => item.claimId ≠ claim.claimId)
    constructor
    · intro selected isSelected
      rcases fromEither selected isSelected with before | alternative
      · exact selectedKnown selected (Option.mem_filter_iff.mp before).1
      · exact availableKnown selected (List.mem_filter.mp alternative).1
    · intro item listed
      exact availableKnown item (List.mem_filter.mp (fromAvailable item listed)).1
  · refine ⟨deselected, ?_⟩
    intro other later
    obtain ⟨selectedKnown, availableKnown⟩ := known other (List.mem_cons_of_mem _ later)
    exact ⟨fun selected isSelected =>
      selectedKnown selected (Option.mem_filter_iff.mp isSelected).1, availableKnown⟩

/-- Excluding one more claim. -/
private theorem without_cons {standing : Standing} (proper : standing.Proper) {claim : Claim}
    {rejected : List Claim} (known : standing.Known (claim :: rejected)) (ids : List String) :
    standing.without (claim.claimId :: ids) = (standing.exclude claim).without ids := by
  have kept : (standing.available.filter fun item => item.claimId ∉ claim.claimId :: ids) =
      (standing.available.filter fun item => item.claimId ≠ claim.claimId).filter
        fun item => item.claimId ∉ ids := by
    rw [List.filter_filter]
    apply List.filter_congr
    intro item _
    simp [List.mem_cons, not_or, Bool.and_comm]
  have still : (standing.selected.filter fun item => item.claimId ∉ claim.claimId :: ids) =
      (standing.selected.filter fun item => item.claimId ≠ claim.claimId).filter
        fun item => item.claimId ∉ ids := by
    cases standing.selected with
    | none => rfl
    | some selected =>
        by_cases same : selected.claimId = claim.claimId
        · simp [Option.filter, same]
        · by_cases other : selected.claimId ∈ ids
          · simp [Option.filter, same, other]
          · simp [Option.filter, same, other]
  rw [exclude_eq known]
  simp only
  by_cases found : ∃ item ∈ standing.available, item.claimId = claim.claimId
  · rw [if_pos found]
    obtain ⟨item, listed, same⟩ := found
    have lengths := length_filter_ne proper.distinct listed
    rw [same] at lengths
    simp only [without, kept, still]
    generalize (standing.available.filter fun item => item.claimId ≠ claim.claimId) = remaining
      at lengths
    match remaining with
    | [] =>
        have single : standing.available.length ≤ 1 := by simp at lengths; omega
        rw [if_pos single]
        simp [keep]
    | [only] =>
        have more : ¬standing.available.length ≤ 1 := by simp at lengths; omega
        rw [if_neg more]
        by_cases gone : only.claimId ∈ ids
        · simp [keep, gone, Option.filter]
        · simp [keep, gone, Option.filter]
    | first :: second :: rest =>
        have more : ¬standing.available.length ≤ 1 := by simp at lengths; omega
        rw [if_neg more]
        simp [keep]
  · have all : (standing.available.filter fun item => item.claimId ≠ claim.claimId) =
        standing.available :=
      List.filter_eq_self.mpr (fun item listed => by
        simpa using fun same => found ⟨item, listed, same⟩)
    rw [if_neg found]
    simp only [without, kept, still, all]

/-- The order and the multiplicity of the exclusions do not matter. -/
theorem foldl_exclude {standing : Standing} (proper : standing.Proper) {rejected : List Claim}
    (known : standing.Known rejected) :
    rejected.foldl exclude standing = standing.without (rejected.map Claim.claimId) := by
  induction rejected generalizing standing with
  | nil =>
      rcases standing with ⟨selected, available⟩
      have same : (selected.filter fun _ => true) = selected := by cases selected <;> rfl
      match available with
      | [] => simp [without, same]
      | [_] => simp [without, same]
      | _ :: _ :: _ => simp [without, same]
  | cons claim rejected inductionHypothesis =>
      obtain ⟨properAfter, knownAfter⟩ := proper.exclude known
      rw [List.foldl_cons, inductionHypothesis properAfter knownAfter, List.map_cons,
        without_cons proper known]

/-- The selected claim after the exclusions is a committed claim that is not gone, unless the
alternatives are whittled down to one, or to none beside such a claim. -/
theorem without_selected_iff {standing : Standing} (proper : standing.Proper)
    {rejected : List String} {committed gone : Claim → Prop}
    (selectedIs : ∀ claim, standing.selected = some claim ↔ committed claim)
    (selectedGone : ∀ claim, committed claim → (claim.claimId ∈ rejected ↔ gone claim))
    (availableGone : ∀ claim ∈ standing.available, claim.claimId ∈ rejected ↔ gone claim) :
    (∀ claim, (standing.without rejected).selected = some claim ↔
        committed claim ∧ ¬gone claim) ↔
      ¬(2 ≤ standing.available.length ∧
        ((∃! claim, claim ∈ standing.available ∧ ¬gone claim) ∨
          ((∀ claim ∈ standing.available, gone claim) ∧
            ∃ claim, committed claim ∧ ¬gone claim))) := by
  have still : ∀ claim, (standing.selected.filter fun claim => claim.claimId ∉ rejected) =
      some claim ↔ committed claim ∧ ¬gone claim := by
    intro claim
    rw [Option.filter_eq_some_iff, selectedIs, decide_eq_true_eq]
    apply and_congr_right
    intro isCommitted
    rw [selectedGone claim isCommitted]
  have kept : ∀ claim, claim ∈ (standing.available.filter fun claim =>
      claim.claimId ∉ rejected) ↔ claim ∈ standing.available ∧ ¬gone claim := by
    intro claim
    rw [List.mem_filter, decide_eq_true_eq]
    apply and_congr_right
    intro listed
    rw [availableGone claim listed]
  have distinct := proper.distinct.filter (fun claim => decide (claim.claimId ∉ rejected))
  simp only [without]
  generalize (standing.available.filter fun claim => claim.claimId ∉ rejected) = remaining
    at kept distinct
  by_cases few : standing.available.length ≤ 1
  · rw [if_pos few]
    have many : ¬2 ≤ standing.available.length := by omega
    simp only [still, implies_true, many, false_and, not_false_eq_true]
  · rw [if_neg few]
    have many : 2 ≤ standing.available.length := by omega
    simp only [many, true_and]
    match remaining with
    | [] =>
        have allGone : ∀ claim ∈ standing.available, gone claim := by
          intro claim listed
          by_contra present
          exact List.not_mem_nil ((kept claim).mpr ⟨listed, present⟩)
        have noneLeft : ¬∃! claim, claim ∈ standing.available ∧ ¬gone claim := by
          rintro ⟨claim, left, _⟩
          exact List.not_mem_nil ((kept claim).mpr left)
        simp only [reduceCtorEq, false_iff, noneLeft, false_or, not_and, not_exists]
        constructor
        · intro absent _ claim isCommitted present
          exact absent claim isCommitted present
        · intro absent claim isCommitted present
          exact absent allGone claim isCommitted present
    | [only] =>
        have left := (kept only).mp (List.mem_singleton_self only)
        have unique : ∃! claim, claim ∈ standing.available ∧ ¬gone claim :=
          ⟨only, left, fun other otherLeft => List.mem_singleton.mp ((kept other).mpr otherLeft)⟩
        simp only [unique, true_or, not_true_eq_false, iff_false]
        intro agree
        have isCommitted := ((agree only).mp rfl).1
        exact proper.apart only ((selectedIs only).mpr isCommitted) only left.1 rfl
    | first :: second :: rest =>
        have firstLeft := (kept first).mp (by simp)
        have secondLeft := (kept second).mp (by simp)
        have different : first ≠ second := by
          intro same
          have ids := (List.pairwise_cons.mp distinct).1 second (by simp)
          rw [same] at ids
          exact ids rfl
        have several : ¬∃! claim, claim ∈ standing.available ∧ ¬gone claim := by
          rintro ⟨claim, _, only⟩
          exact different ((only first firstLeft).trans (only second secondLeft).symm)
        have someLeft : ¬∀ claim ∈ standing.available, gone claim :=
          fun allGone => firstLeft.2 (allGone first firstLeft.1)
        simp only [still, implies_true, several, someLeft, false_and, or_false,
          not_false_eq_true]

end Standing

/-! ## The second pass at one key -/

theorem deselect_standing (settled : Settled) (claim : Claim) (key : ClaimKey) :
    (settled.deselect claim).standing key =
      if claim.key = key then
        ⟨(settled.standing key).selected.filter fun selected => !pyEq selected claim,
          (settled.standing key).available⟩
      else settled.standing key := by
  unfold Settled.deselect
  by_cases here : claim.key = key
  · rw [if_pos here, here]
    cases found : settled.selected[key]? with
    | none => simp [Settled.standing, found]
    | some selected =>
        by_cases same : pyEq selected claim = true
        · simp [Settled.standing, found, same, Option.filter]
        · simp [Settled.standing, found, same, Option.filter]
  · rw [if_neg here]
    split
    · rfl
    · split
      · simp [Settled.standing, Dict.get_erase, here]
      · rfl

theorem keep_standing (settled : Settled) (place key : ClaimKey) (remaining : List Claim) :
    (settled.keep place remaining).standing key =
      if place = key then (settled.standing key).keep remaining else settled.standing key := by
  by_cases here : place = key
  · rw [if_pos here, here]
    match remaining with
    | [] => simp [Settled.keep, Standing.keep, Settled.standing]
    | [only] => simp [Settled.keep, Standing.keep, Settled.standing]
    | _ :: _ :: _ => simp [Settled.keep, Standing.keep, Settled.standing]
  · rw [if_neg here]
    match remaining with
    | [] => simp [Settled.keep, Settled.standing, Dict.get_erase, here]
    | [only] => simp [Settled.keep, Settled.standing, Dict.get_erase, Dict.get_insert, here]
    | _ :: _ :: _ => simp [Settled.keep, Settled.standing, Dict.get_insert, here]

/-- Excluding a claim acts at the key of the claim alone. -/
theorem exclude_standing (settled : Settled) (claim : Claim) (key : ClaimKey) :
    (settled.exclude claim).standing key =
      if claim.key = key then (settled.standing key).exclude claim
      else settled.standing key := by
  have deselected := deselect_standing settled claim
  simp only [Settled.exclude, Settled.withdraw]
  by_cases here : claim.key = key
  · subst here
    have before := deselected claim.key
    rw [if_pos rfl] at before
    have available : (settled.deselect claim).compatible[claim.key]?.getD [] =
        (settled.standing claim.key).available := congrArg Standing.available before
    rw [available, if_pos rfl, Standing.exclude]
    split
    · rw [keep_standing, if_pos rfl, before]
    · exact before
  · have before := deselected key
    rw [if_neg here] at before
    rw [if_neg here]
    split
    · rw [keep_standing, if_neg here]
      exact before
    · exact before

private theorem foldl_exclude_standing (claims : List Claim) (settled : Settled) (key : ClaimKey) :
    (claims.foldl Settled.exclude settled).standing key =
      (claims.filter fun claim => claim.key = key).foldl Standing.exclude
        (settled.standing key) := by
  induction claims generalizing settled with
  | nil => rfl
  | cons claim claims inductionHypothesis =>
      rw [List.foldl_cons, inductionHypothesis, exclude_standing]
      by_cases here : claim.key = key
      · rw [if_pos here, List.filter_cons_of_pos (by simp [here]), List.foldl_cons]
      · rw [if_neg here, List.filter_cons_of_neg (by simp [here])]

/-- The claims that the second pass excludes for a conflict. -/
def excludedBy (state : MemoryState) (scope : Option String) (handled : PySet String)
    (conflict : ConflictSet) : List Claim :=
  if conflict.conflictId ∉ handled ∧ (committedChoice state conflict scope).applied = true ∧
      (committedChoice state conflict scope).claim.isSome then
    Settled.rejected state scope conflict
  else []

private theorem enterFinding_standing (state : MemoryState) (scope : Option String)
    (settled : Settled) (conflict : ConflictSet) (key : ClaimKey) :
    (settled.enterFinding state scope conflict).standing key =
      ((excludedBy state scope settled.handled conflict).filter
        fun claim => claim.key = key).foldl Standing.exclude (settled.standing key) := by
  unfold Settled.enterFinding excludedBy
  by_cases handled : conflict.conflictId ∈ settled.handled
  · simp [handled]
  · simp only [handled, if_false, not_false_eq_true, true_and]
    cases applies : (committedChoice state conflict scope).applied with
    | true =>
        simp only [if_true, true_and]
        cases chosen : (committedChoice state conflict scope).claim with
        | none => simp
        | some claim =>
            simp only [Option.isSome_some, if_true]
            exact foldl_exclude_standing _ settled key
    | false =>
        simp only [Bool.false_eq_true, if_false, false_and, List.filter_nil, List.foldl_nil]
        rfl

/-- The second pass excludes, at one key, what the resolutions of the conflicts reject. -/
theorem enterFindings_standing (state : MemoryState) (scope : Option String)
    (conflicts : List ConflictSet) (settled : Settled) (key : ClaimKey) :
    (conflicts.foldl (Settled.enterFinding state scope) settled).standing key =
      ((conflicts.flatMap (excludedBy state scope settled.handled)).filter
        fun claim => claim.key = key).foldl Standing.exclude (settled.standing key) := by
  induction conflicts generalizing settled with
  | nil => rfl
  | cons conflict conflicts inductionHypothesis =>
      rw [List.foldl_cons, inductionHypothesis, enterFinding_standing,
        (enterFinding_frame scope settled conflict).1, List.flatMap_cons, List.filter_append,
        List.foldl_append]

/-! ## The first pass at one key -/

/-- What the first pass has decided after some keys. -/
structure Settled.Decides (settled : Settled) (state : MemoryState) (scope : Option String)
    (entries : List (ClaimKey × List Claim)) : Prop where
  decided : ∀ entry ∈ entries, ∀ conflict, handledConflict state entry.1 = some conflict →
    settled.surfaced[entry.1]? = some conflict ∧
      settled.standing entry.1 =
        ⟨(committedChoice state conflict scope).claim, Settled.alternatives conflict entry.2⟩
  surfaced : ∀ (key : ClaimKey) (conflict : ConflictSet), settled.surfaced[key]? = some conflict →
    ∃ entry ∈ entries, entry.1 = key ∧ handledConflict state key = some conflict
  untouched : ∀ key, (∀ entry ∈ entries, entry.1 ≠ key) → settled.standing key = ⟨none, []⟩

/-- A choice with a claim applies. -/
private theorem committedChoice_applied {state : MemoryState} {scope : Option String}
    {conflict : ConflictSet} {claim : Claim}
    (chosen : (committedChoice state conflict scope).claim = some claim) :
    (committedChoice state conflict scope).applied = true := by
  cases effective : state.effectiveResolutionsByConflictRefAndScope[
      resolutionLane state conflict scope]? with
  | none =>
      rw [(committedChoice_of_none effective).2] at chosen
      cases chosen
  | some resolution =>
      rw [committedChoice_of_effective effective] at chosen ⊢
      simp only [choiceOf] at chosen ⊢
      split
      · rfl
      · rename_i keeps
        rw [if_neg keeps] at chosen
        split at chosen
        · rfl
        · split at chosen
          · cases chosen
          · cases chosen

private theorem decide_standing {state : MemoryState} {scope : Option String} (settled : Settled)
    (key : ClaimKey) (conflict : ConflictSet) (claims : List Claim) :
    ((settled.decide key conflict claims (committedChoice state conflict scope)).standing key =
      ⟨(committedChoice state conflict scope).claim <|> (settled.standing key).selected,
        if Settled.alternatives conflict claims = [] then (settled.standing key).available
        else Settled.alternatives conflict claims⟩) ∧
    ∀ other, key ≠ other →
      (settled.decide key conflict claims (committedChoice state conflict scope)).standing other =
        settled.standing other := by
  have selected : ∀ other : ClaimKey, (settled.decide key conflict claims
      (committedChoice state conflict scope)).selected[other]? =
        if key = other then (committedChoice state conflict scope).claim <|>
          settled.selected[other]? else settled.selected[other]? := by
    intro other
    cases chosen : (committedChoice state conflict scope).claim with
    | none =>
        have same : (settled.decide key conflict claims
            (committedChoice state conflict scope)).selected = settled.selected := by
          simp only [Settled.decide, chosen]
          cases (committedChoice state conflict scope).applied <;> rfl
        simp [same]
    | some claim =>
        by_cases here : key = other
        · simp [Settled.decide, chosen, committedChoice_applied chosen, here]
        · simp [Settled.decide, chosen, committedChoice_applied chosen, here, Dict.get_insert]
  have compatible : ∀ other : ClaimKey, (settled.decide key conflict claims
      (committedChoice state conflict scope)).compatible[other]? =
        if key = other ∧ Settled.alternatives conflict claims ≠ [] then
          some (Settled.alternatives conflict claims) else settled.compatible[other]? := by
    intro other
    simp only [Settled.decide]
    by_cases nothing : Settled.alternatives conflict claims = []
    · simp [nothing]
    · simp [nothing, Dict.get_insert]
  constructor
  · simp only [Settled.standing, selected, compatible, if_true, true_and]
    by_cases nothing : Settled.alternatives conflict claims = []
    · simp [nothing]
    · simp [nothing]
  · intro other different
    simp [Settled.standing, selected, compatible, different]

theorem enterKey_decides {state : MemoryState} {scope : Option String} {settled next : Settled}
    {entries : List (ClaimKey × List Claim)} {entry : ClaimKey × List Claim}
    (fresh : ∀ earlier ∈ entries, earlier.1 ≠ entry.1)
    (decides : settled.Decides state scope entries)
    (run : Settled.enterKey state scope settled entry = .ok next) :
    next.Decides state scope (entries ++ [entry]) := by
  have idle := decides.untouched entry.1 fresh
  have unsurfaced : ∀ conflict, settled.surfaced[entry.1]? ≠ some conflict := by
    intro conflict found
    obtain ⟨earlier, among, same, _⟩ := decides.surfaced entry.1 conflict found
    exact fresh earlier among same
  simp only [Settled.enterKey] at run
  cases listed : selectableConflicts state entry.1 with
  | nil =>
      have none : handledConflict state entry.1 = none := by rw [handledConflict, listed]; rfl
      have frame : next.surfaced = settled.surfaced ∧
          ∀ other, entry.1 ≠ other → next.standing other = settled.standing other := by
        simp only [listed] at run
        split at run
        · injection run with run
          rw [← run]
          exact ⟨rfl, fun other different => by
            simp [Settled.standing, Dict.get_insert, different]⟩
        · obtain ⟨chosen, _, run⟩ := bind_ok_iff.mp run
          rw [pure_ok_iff] at run
          rw [← run]
          exact ⟨rfl, fun other different => by
            simp [Settled.standing, Dict.get_insert, different]⟩
      refine ⟨?_, ?_, ?_⟩
      · intro earlier among conflict found
        rcases List.mem_append.mp among with before | last
        · rw [frame.1, frame.2 earlier.1 (fresh earlier before).symm]
          exact decides.decided earlier before conflict found
        · rw [List.mem_singleton.mp last, none] at found
          cases found
      · intro key conflict found
        rw [frame.1] at found
        obtain ⟨earlier, among, here⟩ := decides.surfaced key conflict found
        exact ⟨earlier, List.mem_append_left _ among, here⟩
      · intro key apart
        rw [frame.2 key (apart entry (by simp))]
        exact decides.untouched key (fun earlier among => apart earlier
          (List.mem_append_left _ among))
  | cons first others =>
      have here : handledConflict state entry.1 = some first := by
        rw [handledConflict, listed]
        rfl
      simp only [listed] at run
      injection run with run
      obtain ⟨own, frame⟩ := @decide_standing _ state scope settled entry.1 first entry.2
      have surfaced : ∀ key : ClaimKey, next.surfaced[key]? =
          if entry.1 = key then some first else settled.surfaced[key]? := by
        intro key
        rw [← run]
        by_cases same : entry.1 = key
        · simp [Settled.decide, same]
        · simp [Settled.decide, same, Dict.get_insert]
      rw [run] at own frame
      rw [idle] at own
      refine ⟨?_, ?_, ?_⟩
      · intro earlier among conflict found
        rcases List.mem_append.mp among with before | last
        · have apart := (fresh earlier before).symm
          rw [surfaced, if_neg apart, frame earlier.1 apart]
          exact decides.decided earlier before conflict found
        · rw [List.mem_singleton.mp last] at found ⊢
          rw [here, Option.some.injEq] at found
          rw [← found, surfaced, if_pos rfl, own]
          refine ⟨rfl, ?_⟩
          by_cases nothing : Settled.alternatives first entry.2 = []
          · simp [nothing]
          · simp [nothing]
      · intro key conflict found
        rw [surfaced] at found
        split at found
        · rename_i same
          rw [← same]
          exact ⟨entry, by simp, rfl, here.trans found⟩
        · obtain ⟨earlier, among, there⟩ := decides.surfaced key conflict found
          exact ⟨earlier, List.mem_append_left _ among, there⟩
      · intro key apart
        rw [frame key (apart entry (by simp))]
        exact decides.untouched key (fun earlier among => apart earlier
          (List.mem_append_left _ among))

/-- The first pass over all keys. -/
theorem enterKeys_decides {state : MemoryState} {scope : Option String} {settled : Settled}
    (run : state.activeClaimsByKey.toList.foldlM (Settled.enterKey state scope) (.start state) =
      .ok settled) :
    settled.Decides state scope state.activeClaimsByKey.toList := by
  refine foldlM_invariant_split (fun entries (settled : Settled) =>
    settled.Decides state scope entries) _ _ _ run ⟨by simp, by simp [Settled.start],
      by simp [Settled.start, Settled.standing]⟩ ?_
  intro done entry rest before next split decides stepped
  refine enterKey_decides ?_ decides stepped
  intro earlier among same
  have sorted := state.activeClaimsByKey.toList_sorted
  rw [split] at sorted
  have below := (List.pairwise_append.mp sorted).2.2 earlier among entry List.mem_cons_self
  rw [same] at below
  exact lt_irrefl _ below

/-! ## The winner of a conflicted key -/

/-- The effective resolution of another current conflict rejects a claim of this id as one of
its candidates. -/
def MemoryState.RejectedElsewhere (state : MemoryState) (scope : Option String)
    (conflict : ConflictSet) (claimId : String) : Prop :=
  ∃ other ∈ state.conflicts, other ≠ conflict ∧ ∃ lane resolution,
    state.IsViewLane other scope lane ∧
    state.effectiveResolutionsByConflictRefAndScope[lane]? = some resolution ∧
    (∃ candidate ∈ other.candidates, candidate.claimId = claimId) ∧
    claimId ∈ resolution.rejectedClaimIds

/-- The active claims of the key of a conflict that are no candidates of it. -/
def MemoryState.alternatives (state : MemoryState) (conflict : ConflictSet) : List Claim :=
  Settled.alternatives conflict (state.activeClaimsByKey[conflict.key]?.getD [])

/-- Of several alternatives, the resolutions of other conflicts leave exactly one; or they
leave none although the committed claim stands. -/
def MemoryState.Whittled (state : MemoryState) (scope : Option String) (conflict : ConflictSet) :
    Prop :=
  2 ≤ (state.alternatives conflict).length ∧
  ((∃! claim, claim ∈ state.alternatives conflict ∧
      ¬state.RejectedElsewhere scope conflict claim.claimId) ∨
    ((∀ claim ∈ state.alternatives conflict,
        state.RejectedElsewhere scope conflict claim.claimId) ∧
      ∃ claim, state.Commits scope conflict claim ∧
        ¬state.RejectedElsewhere scope conflict claim.claimId))

section State

variable {log : OpLog} {registry : PredicateRegistry} {detectors : List ConflictDetector}
  {validAt : Option String} {context : JSONObject} {state : MemoryState} {scope : Option String}

/-- The claims excluded for a conflict are the rejected candidates of an unhandled one. -/
private theorem mem_excludedBy
    (run : materialize log registry detectors validAt context = .ok state)
    {handled : PySet String} {conflict : ConflictSet} (current : conflict ∈ state.conflicts)
    (claim : Claim) :
    claim ∈ excludedBy state scope handled conflict ↔
      conflict.conflictId ∉ handled ∧ ∃ lane resolution,
        state.IsViewLane conflict scope lane ∧
        state.effectiveResolutionsByConflictRefAndScope[lane]? = some resolution ∧
        claim ∈ conflict.candidates ∧ claim.claimId ∈ resolution.rejectedClaimIds := by
  have lanes := resolutionLane_iff run conflict scope
  constructor
  · intro listed
    unfold excludedBy at listed
    split at listed
    · rename_i conditions
      refine ⟨conditions.1, ?_⟩
      unfold Settled.rejected at listed
      split at listed
      · cases listed
      · rename_i resolution effective
        rw [List.mem_filter, decide_eq_true_eq] at listed
        exact ⟨_, resolution, (lanes _).mpr rfl, effective, listed⟩
    · cases listed
  · rintro ⟨unhandled, lane, resolution, isLane, effective, candidate, rejected⟩
    rw [lanes] at isLane
    rw [← isLane] at effective
    have settles := resolutionLane_settles run current effective
    have applies := (committedChoice_applied_iff run current scope).mpr ⟨resolution, effective⟩
    have chosen : (committedChoice state conflict scope).claim.isSome = true := by
      rcases settles.decided with ⟨_, _, noneRejected, _⟩ | ⟨_, winner, isWinner, _⟩
      · rw [noneRejected] at rejected
        cases rejected
      · rw [(committedChoice_claim_iff run current scope winner).mpr
          ⟨_, resolution, (lanes _).mpr rfl, effective, isWinner⟩]
        rfl
    rw [excludedBy, if_pos ⟨unhandled, applies, chosen⟩, Settled.rejected]
    simp only [effective, List.mem_filter, decide_eq_true_eq]
    exact ⟨candidate, rejected⟩

/-- Candidates of current conflicts are told from active claims by their ids. -/
private theorem candidate_eq_iff
    (run : materialize log registry detectors validAt context = .ok state)
    {conflict : ConflictSet} (current : conflict ∈ state.conflicts) {candidate : Claim}
    (listed : candidate ∈ conflict.candidates) {key : ClaimKey} {claim : Claim}
    (active : claim ∈ state.activeClaimsByKey[key]?.getD []) :
    (pyEq claim candidate = true ↔ claim.claimId = candidate.claimId) ∧
      (claim.claimId = candidate.claimId → candidate.key = key) := by
  obtain ⟨grouped, distinct⟩ := materialize_active run
  obtain ⟨known, knownActive, sameId, equal⟩ := candidates_active run current listed
  rw [grouped.mem_getD] at active knownActive
  have identical : claim.claimId = candidate.claimId → claim = known := fun ids =>
    distinct claim known active.1 knownActive.1 (ids.trans sameId.symm)
  refine ⟨⟨fun same => congrArg (fun fields => fields.1.1) (pyEq_iff.mp same), ?_⟩, ?_⟩
  · intro ids
    rw [identical ids]
    exact equal
  · intro ids
    rw [← active.2, identical ids, knownActive.2]

section Key

variable {conflict : ConflictSet} {first : Settled}

/-- What the second pass excludes at the key of a handled conflict. -/
private theorem excluded_iff
    (run : materialize log registry detectors validAt context = .ok state)
    (handles : first.Handles state scope state.activeClaimsByKey.toList)
    (here : handledConflict state conflict.key = some conflict)
    (handled : conflict.conflictId ∈ first.handled) {claim : Claim}
    (active : ∃ known ∈ state.activeClaimsByKey[conflict.key]?.getD [],
      known.claimId = claim.claimId) :
    claim.claimId ∈ ((state.conflicts.flatMap (excludedBy state scope first.handled)).filter
        fun claim => claim.key = conflict.key).map Claim.claimId ↔
      state.RejectedElsewhere scope conflict claim.claimId := by
  obtain ⟨known, knownActive, knownId⟩ := active
  simp only [List.mem_map, List.mem_filter, List.mem_flatMap, decide_eq_true_eq]
  constructor
  · rintro ⟨candidate, ⟨⟨other, otherCurrent, excluded⟩, _⟩, sameId⟩
    obtain ⟨unhandled, lane, resolution, isLane, effective, listed, rejected⟩ :=
      (mem_excludedBy run otherCurrent candidate).mp excluded
    refine ⟨other, otherCurrent, ?_, lane, resolution, isLane, effective,
      ⟨candidate, listed, sameId⟩, by rw [← sameId]; exact rejected⟩
    intro same
    rw [same] at unhandled
    exact unhandled handled
  · rintro ⟨other, otherCurrent, different, lane, resolution, isLane, effective,
      ⟨candidate, listed, sameId⟩, rejected⟩
    have sameKey := (candidate_eq_iff run otherCurrent listed knownActive).2
      (knownId.trans sameId.symm)
    refine ⟨candidate, ⟨⟨other, otherCurrent, ?_⟩, sameKey⟩, sameId⟩
    rw [mem_excludedBy run otherCurrent]
    refine ⟨?_, lane, resolution, isLane, effective, listed, by rw [sameId]; exact rejected⟩
    intro otherHandled
    obtain ⟨entry, _, handler, found, handlerId⟩ := (handles.handled _).mp otherHandled
    obtain ⟨handlerCurrent, _, candidateKeys⟩ :=
      mem_selectableConflicts run (List.mem_of_mem_head? found)
    have same := conflict_of_id run handlerCurrent otherCurrent handlerId
    rw [same] at candidateKeys found
    rw [← candidateKeys candidate listed, sameKey, here, Option.some.injEq] at found
    exact different found.symm

end Key

/-- The winner of a conflicted key is the committed claim of its conflict that no other
conflict rejects, unless the alternatives of the key are whittled down. -/
theorem winner_iff
    (run : materialize log registry detectors validAt context = .ok state)
    {constraints : ViewConstraints} {resolver : Option Resolver} {projection : Projection}
    (view : buildView state constraints resolver = .ok projection) {key : ClaimKey}
    {conflict : ConflictSet} (handled : projection.surfacedConflicts[key]? = some conflict) :
    (∀ claim, projection.selectedClaims[key]? = some claim ↔
        state.Commits constraints.scope conflict claim ∧
          ¬state.RejectedElsewhere constraints.scope conflict claim.claimId) ↔
      ¬state.Whittled constraints.scope conflict := by
  obtain ⟨settled, settles, shows⟩ := buildView_settled view
  rw [settledView, bind_ok_iff] at settles
  obtain ⟨first, entered, same⟩ := settles
  rw [pure_ok_iff] at same
  have decides := enterKeys_decides entered
  have handles := enterKeys_handles entered
  rw [shows.surfaced, ← same, (enterFindings_frame constraints.scope state.conflicts first).2.1]
    at handled
  obtain ⟨entry, among, sameKey, here⟩ := decides.surfaced key conflict handled
  obtain ⟨current, ownKey, candidateKeys⟩ :=
    mem_selectableConflicts run (List.mem_of_mem_head? here)
  subst ownKey
  have handledHere : conflict.conflictId ∈ first.handled :=
    (handles.handled _).mpr ⟨entry, among, conflict, by rw [sameKey]; exact here, rfl⟩
  have active : state.activeClaimsByKey[conflict.key]? = some entry.2 := by
    rw [← sameKey]
    exact (Dict.mem_toList _ _ _).mp among
  have initially : first.standing conflict.key =
      ⟨(committedChoice state conflict constraints.scope).claim, state.alternatives conflict⟩ := by
    have decided := (decides.decided entry among conflict (by rw [sameKey]; exact here)).2
    rw [sameKey] at decided
    rw [decided, MemoryState.alternatives, active, Option.getD_some]
  have alternative : ∀ claim ∈ state.alternatives conflict,
      claim ∈ state.activeClaimsByKey[conflict.key]?.getD [] ∧
        claim.claimId ∉ conflict.candidates.map Claim.claimId := by
    intro claim listed
    rw [MemoryState.alternatives, Settled.alternatives, List.mem_filter, decide_eq_true_eq]
      at listed
    exact listed
  have commits := committedChoice_claim_iff run current constraints.scope
  have proper : (first.standing conflict.key).Proper := by
    rw [initially]
    constructor
    · have sorted := (materialize_active run).1.getD_sorted conflict.key
      exact (sorted.filter _).imp (fun below => ne_of_lt below)
    · intro selected isSelected claim listed same
      obtain ⟨_, _, _, _, candidate, _⟩ := (commits selected).mp isSelected
      apply (alternative claim listed).2
      rw [← same]
      exact List.mem_map_of_mem candidate
  have known : (first.standing conflict.key).Known ((state.conflicts.flatMap
      (excludedBy state constraints.scope first.handled)).filter
        fun claim => claim.key = conflict.key) := by
    intro other listed
    obtain ⟨source, sourceCurrent, excluded⟩ := List.mem_flatMap.mp (List.mem_filter.mp listed).1
    obtain ⟨_, _, _, _, _, candidate, _⟩ := (mem_excludedBy run sourceCurrent other).mp excluded
    rw [initially]
    constructor
    · intro selected isSelected
      obtain ⟨_, _, _, _, chosen, _⟩ := (commits selected).mp isSelected
      obtain ⟨held, heldActive, heldId, heldEqual⟩ := candidates_active run current chosen
      have told := (candidate_eq_iff run sourceCurrent candidate heldActive).1
      rw [heldId] at told
      rw [← told]
      exact ⟨fun equal => pyEq_trans heldEqual equal,
        fun equal => pyEq_trans (pyEq_symm heldEqual) equal⟩
    · intro claim isAlternative
      exact (candidate_eq_iff run sourceCurrent candidate (alternative claim isAlternative).1).1
  have final : projection.selectedClaims[conflict.key]? =
      ((first.standing conflict.key).without (((state.conflicts.flatMap
        (excludedBy state constraints.scope first.handled)).filter
          fun claim => claim.key = conflict.key).map Claim.claimId)).selected := by
    rw [shows.selected, ← same, ← Standing.foldl_exclude proper known,
      ← enterFindings_standing state constraints.scope state.conflicts first conflict.key]
    rfl
  rw [final, MemoryState.Whittled]
  have gone := fun claim => @excluded_iff _ _ _ _ _ _ _ constraints.scope _ _ run handles
    (by rw [← sameKey, ← here, sameKey]) handledHere claim
  rw [initially] at proper ⊢
  refine Standing.without_selected_iff proper commits ?_ ?_
  · intro claim isCommitted
    obtain ⟨_, _, _, _, candidate, _⟩ := isCommitted
    obtain ⟨held, heldActive, heldId, _⟩ := candidates_active run current candidate
    rw [candidateKeys claim candidate] at heldActive
    exact gone claim ⟨held, heldActive, heldId⟩
  · intro claim listed
    exact gone claim ⟨claim, (alternative claim listed).1, rfl⟩

end State

end Winners

/-! ## A winner without a resolution -/

section Example

attribute [local instance] Reference.shortRuntime

def otherKey : ClaimKey := ⟨"n", "s", "q"⟩

/-- A detector that finds the claims `c` and `e` at odds. -/
def crossKeyDetector : ConflictDetector := fun context => do
  let conflict ← makeConflict ((Dict.values context.claimsById).filter fun claim =>
    claim.claimId = "c" ∨ claim.claimId = "e") "execution.schedule" "both cannot be used"
    "schedule/v1" "execution" "schedule" (some Reference.key) [] none ∅ ∅
  return [conflict]

/-- Two claims at odds and two alternatives at one key, and a claim at another key that a
resolution prefers to one of the alternatives. -/
def whittledOps : List Op :=
  [.claimAdded ⟨"op-a", "r", "t"⟩ (Reference.factIn "a" Reference.key (.str "x") "one"),
    .claimAdded ⟨"op-b", "r", "t"⟩ (Reference.factIn "b" Reference.key (.str "y") "one"),
    .claimAdded ⟨"op-c", "r", "t"⟩ (Reference.factIn "c" Reference.key (.str "z") "two"),
    .claimAdded ⟨"op-d", "r", "t"⟩ (Reference.factIn "d" Reference.key (.str "w") "three"),
    .claimAdded ⟨"op-e", "r", "t"⟩ (Reference.fact "e" otherKey (.str "v") []),
    .resolutionAdded ⟨"op-f", "r", "t"⟩ (Reference.selectionBetween "f" "e" "c"
      "execution.schedule" "schedule/v1" Reference.key otherKey Reference.f_ne_empty
        Reference.e_ne_c)]

/-- The view of the key has a winner although its own conflict is unresolved. -/
theorem winner_while_unresolved :
    ∃ state projection conflict,
      materialize (Reference.logOf whittledOps) .empty [crossKeyDetector] none ∅ = .ok state ∧
      buildView state (.ofScope none) none = .ok projection ∧
      projection.surfacedConflicts[Reference.key]? = some conflict ∧
      conflict ∈ projection.unresolvedConflicts ∧
      ¬∀ claim, projection.selectedClaims[Reference.key]? = some claim ↔
        state.Commits none conflict claim ∧
          ¬state.RejectedElsewhere none conflict claim.claimId := by
  have computed : ((materialize (Reference.logOf whittledOps) .empty [crossKeyDetector] none
      ∅).toOption.bind fun state =>
        (buildView state (.ofScope none) none).toOption.bind fun projection =>
          projection.surfacedConflicts[Reference.key]?.map fun conflict =>
            decide (conflict ∈ projection.unresolvedConflicts) &&
              state.effectiveResolutionsByConflictRefAndScope[
                resolutionLane state conflict none]?.isNone &&
              projection.selectedClaims[Reference.key]?.isSome) = some true := by
    decide +kernel
  cases run : materialize (Reference.logOf whittledOps) .empty [crossKeyDetector] none ∅ with
  | error failure =>
      rw [run] at computed
      cases computed
  | ok state =>
      rw [run, Except.toOption, Option.bind_some] at computed
      cases view : buildView state (.ofScope none) none with
      | error failure =>
          rw [view] at computed
          cases computed
      | ok projection =>
          rw [view, Except.toOption, Option.bind_some] at computed
          obtain ⟨conflict, handled, facts⟩ := Option.map_eq_some_iff.mp computed
          simp only [Bool.and_eq_true, decide_eq_true_eq, Option.isNone_iff_eq_none,
            Option.isSome_iff_exists] at facts
          obtain ⟨⟨unresolved, idle⟩, claim, winner⟩ := facts
          refine ⟨state, projection, conflict, rfl, view, handled, unresolved, ?_⟩
          intro agree
          obtain ⟨⟨lane, resolution, isLane, effective, _⟩, _⟩ := (agree claim).mp winner
          rw [resolutionLane_iff run] at isLane
          rw [← isLane, idle] at effective
          cases effective

/-- One of two claims at odds is selected by a resolution, and two alternatives remain. -/
def settledOps : List Op :=
  [.claimAdded ⟨"op-a", "r", "t"⟩ (Reference.factIn "a" Reference.key (.str "x") "one"),
    .claimAdded ⟨"op-b", "r", "t"⟩ (Reference.factIn "b" Reference.key (.str "y") "one"),
    .claimAdded ⟨"op-c", "r", "t"⟩ (Reference.factIn "c" Reference.key (.str "z") "two"),
    .claimAdded ⟨"op-d", "r", "t"⟩ (Reference.factIn "d" Reference.key (.str "w") "three"),
    .resolutionAdded ⟨"op-e", "r", "t"⟩ (Reference.selection "f" "a" "b" Reference.f_ne_empty
      Reference.a_ne_b)]

theorem winner_iff_settled :
    ∃ state projection conflict winner,
      materialize (Reference.logOf settledOps) .empty [] none ∅ = .ok state ∧
      buildView state (.ofScope none) none = .ok projection ∧
      projection.surfacedConflicts[Reference.key]? = some conflict ∧
      projection.selectedClaims[Reference.key]? = some winner ∧ winner.claimId = "a" ∧
      (projection.compatibleClaims[Reference.key]?.getD []).map Claim.claimId = ["c", "d"] ∧
      ((∀ claim, projection.selectedClaims[Reference.key]? = some claim ↔
          state.Commits none conflict claim ∧
            ¬state.RejectedElsewhere none conflict claim.claimId) ↔
        ¬state.Whittled none conflict) := by
  have computed : ((materialize (Reference.logOf settledOps) .empty [] none ∅).toOption.bind
      fun state => (buildView state (.ofScope none) none).toOption.bind fun projection =>
        projection.surfacedConflicts[Reference.key]?.bind fun _ =>
          projection.selectedClaims[Reference.key]?.map fun winner =>
            (winner.claimId, (projection.compatibleClaims[Reference.key]?.getD []).map
              Claim.claimId)) = some ("a", ["c", "d"]) := by
    decide +kernel
  cases run : materialize (Reference.logOf settledOps) .empty [] none ∅ with
  | error failure =>
      rw [run] at computed
      cases computed
  | ok state =>
      rw [run, Except.toOption, Option.bind_some] at computed
      cases view : buildView state (.ofScope none) none with
      | error failure =>
          rw [view] at computed
          cases computed
      | ok projection =>
          rw [view, Except.toOption, Option.bind_some] at computed
          obtain ⟨conflict, handled, selected⟩ := Option.bind_eq_some_iff.mp computed
          obtain ⟨winner, isWinner, named⟩ := Option.map_eq_some_iff.mp selected
          obtain ⟨isNamed, others⟩ := Prod.mk.inj named
          exact ⟨state, projection, conflict, winner, rfl, view, handled, isWinner, isNamed,
            others, winner_iff run view handled⟩

end Example

end Statefuse
