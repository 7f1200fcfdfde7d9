import Statefuse.Materialize.Effective
import Statefuse.Materialize.Query
import Statefuse.View.Build

/-!
# The settled part of a view

A resolver adds suggestions to a view.  What a view selects, keeps available, surfaces
and leaves unresolved is computed here without any resolver (`settledView`), and the
view of every resolver agrees with it (`buildView_settled`).

A conflict is left unresolved exactly when its lane has no effective resolution: an
effective resolution settles its conflict, and a settled conflict has a choice that
applies, whatever the outcome.
-/

namespace Statefuse

open Foundation

variable [Runtime]

/-- The part of a draft that no resolver can change. -/
structure Settled where
  selected : Dict ClaimKey Claim
  compatible : Dict ClaimKey (List Claim)
  surfaced : Dict ClaimKey ConflictSet
  findings : Dict String ConflictSet
  unresolved : List ConflictSet
  handled : PySet String

def Draft.settled (draft : Draft) : Settled :=
  ⟨draft.selectedClaims, draft.compatibleClaims, draft.surfacedConflicts,
    draft.surfacedFindings, draft.unresolvedConflicts, draft.handledConflictIds⟩

namespace Settled

def start (state : MemoryState) : Settled :=
  ⟨∅, ∅, ∅, Dict.ofItems (·.conflictId) state.conflicts, [], ∅⟩

/-- The claims of a key that are no candidates of its conflict. -/
def alternatives (conflict : ConflictSet) (claims : List Claim) : List Claim :=
  claims.filter fun claim => claim.claimId ∉ conflict.candidates.map Claim.claimId

def leave (settled : Settled) (conflict : ConflictSet) : Settled :=
  { settled with unresolved := settled.unresolved ++ [conflict] }

/-- A conflicted key follows the committed choice, or is left unresolved. -/
def decide (settled : Settled) (key : ClaimKey) (conflict : ConflictSet) (claims : List Claim)
    (choice : CommittedChoice) : Settled where
  selected :=
    match choice.applied, choice.claim with
    | true, some claim => settled.selected.insert key claim
    | _, _ => settled.selected
  compatible :=
    if alternatives conflict claims = [] then settled.compatible
    else settled.compatible.insert key (alternatives conflict claims)
  surfaced := settled.surfaced.insert key conflict
  findings := settled.findings
  unresolved :=
    if choice.applied then settled.unresolved else settled.unresolved ++ [conflict]
  handled := settled.handled.insert conflict.conflictId

def enterKey (state : MemoryState) (scope : Option String) (settled : Settled)
    (entry : ClaimKey × List Claim) : Result Settled :=
  match selectableConflicts state entry.1 with
  | [] =>
      if alternativesDiffer state.predicateRegistry entry.1 entry.2 then
        .ok { settled with compatible := settled.compatible.insert entry.1 entry.2 }
      else do
        let chosen ← deterministicClaimChoice entry.2
        return { settled with selected := settled.selected.insert entry.1 chosen }
  | conflict :: _ =>
      .ok (settled.decide entry.1 conflict entry.2 (committedChoice state conflict scope))

/-- The alternatives that remain at a key; a single one is selected. -/
def keep (settled : Settled) (key : ClaimKey) (remaining : List Claim) : Settled :=
  match remaining with
  | [] => { settled with compatible := settled.compatible.erase key }
  | [only] =>
      { settled with
        compatible := settled.compatible.erase key
        selected := settled.selected.insert key only }
  | remaining => { settled with compatible := settled.compatible.insert key remaining }

/-- Withdraw a selected claim. -/
def deselect (settled : Settled) (claim : Claim) : Settled :=
  match settled.selected[claim.key]? with
  | none => settled
  | some selected =>
      if pyEq selected claim then { settled with selected := settled.selected.erase claim.key }
      else settled

/-- Withdraw an available alternative. -/
def withdraw (settled : Settled) (claim : Claim) : Settled :=
  let available := settled.compatible[claim.key]?.getD []
  if available.any fun item => pyEq item claim then
    settled.keep claim.key (available.filter fun item => !pyEq item claim)
  else settled

def exclude (settled : Settled) (claim : Claim) : Settled := (settled.deselect claim).withdraw claim

/-- The candidates that the effective resolution of the lane of a conflict rejects. -/
def rejected (state : MemoryState) (scope : Option String) (conflict : ConflictSet) : List Claim :=
  match state.effectiveResolutionsByConflictRefAndScope[resolutionLane state conflict scope]? with
  | none => []
  | some resolution =>
      conflict.candidates.filter fun claim => claim.claimId ∈ resolution.rejectedClaimIds

def enterFinding (state : MemoryState) (scope : Option String) (settled : Settled)
    (conflict : ConflictSet) : Settled :=
  if conflict.conflictId ∈ settled.handled then settled
  else
    let choice := committedChoice state conflict scope
    if choice.applied then
      match choice.claim with
      | none => settled
      | some _ => (rejected state scope conflict).foldl exclude settled
    else settled.leave conflict

end Settled

/-- The settled part of the view of a scope. -/
def settledView (state : MemoryState) (scope : Option String) : Result Settled := do
  let settled ← state.activeClaimsByKey.toList.foldlM (Settled.enterKey state scope)
    (.start state)
  return state.conflicts.foldl (Settled.enterFinding state scope) settled

/-! ## Every view has this settled part -/

section Refinement

variable {state : MemoryState} {constraints : ViewConstraints} {resolver : Option Resolver}

/-- A suggestion leaves its conflict unresolved and changes nothing else that is settled. -/
private theorem viewSuggested_settled {draft next : Draft} {key : ClaimKey}
    {conflict : ConflictSet}
    (run : viewSuggested state constraints resolver draft key conflict = .ok next) :
    next.settled = draft.settled.leave conflict := by
  cases resolver with
  | none =>
      injection run with run
      subst run
      rfl
  | some resolver =>
      simp only [viewSuggested, bind_ok_iff] at run
      obtain ⟨resolution, _, run⟩ := run
      split at run
      · rw [pure_ok_iff] at run
        subst run
        rfl
      · rw [pure_ok_iff] at run
        subst run
        rfl

private theorem viewConflicted_settled {draft next : Draft} {key : ClaimKey}
    {conflict : ConflictSet} {claims : List Claim}
    (run : viewConflicted state constraints resolver draft key conflict claims = .ok next) :
    next.settled = draft.settled.decide key conflict claims
      (committedChoice state conflict constraints.scope) := by
  simp only [viewConflicted] at run
  cases applies : (committedChoice state conflict constraints.scope).applied with
  | true =>
      rw [applies, if_pos rfl] at run
      cases chosen : (committedChoice state conflict constraints.scope).claim with
      | some claim =>
          simp only [chosen] at run
          injection run with run
          subst run
          simp only [Settled.decide, applies, chosen, if_true]
          rfl
      | none =>
          simp only [chosen] at run
          injection run with run
          subst run
          simp only [Settled.decide, applies, chosen, if_true]
          rfl
  | false =>
      have left : next.settled = (draft.surface key conflict claims).settled.leave conflict := by
        rw [applies, if_neg Bool.false_ne_true] at run
        split at run
        · injection run with run
          subst run
          rfl
        · exact viewSuggested_settled run
      rw [left]
      simp only [Settled.decide, applies]
      rfl

theorem viewKey_settled {draft next : Draft} {entry : ClaimKey × List Claim}
    (run : viewKey state constraints resolver draft entry = .ok next) :
    Settled.enterKey state constraints.scope draft.settled entry = .ok next.settled := by
  rw [viewKey] at run
  rw [Settled.enterKey]
  cases listed : selectableConflicts state entry.1 with
  | nil =>
      simp only [listed, viewUndisputed] at run ⊢
      split at run
      · rename_i differ
        injection run with run
        subst run
        rw [if_pos differ]
        rfl
      · rename_i same
        rw [if_neg same, bind_ok_iff]
        obtain ⟨chosen, chooses, run⟩ := bind_ok_iff.mp run
        rw [pure_ok_iff] at run
        subst run
        exact ⟨chosen, chooses, rfl⟩
  | cons conflict others =>
      simp only [listed] at run ⊢
      rw [viewConflicted_settled run]

private theorem keepAlternatives_settled (draft : Draft) (key : ClaimKey)
    (remaining : List Claim) :
    (draft.keepAlternatives key remaining).settled = draft.settled.keep key remaining := by
  match remaining with
  | [] => rfl
  | [_] => rfl
  | _ :: _ :: _ => rfl

private theorem excludeSelected_settled (draft : Draft) (resolution : ResolutionRecord)
    (claim : Claim) :
    (draft.excludeSelected resolution claim).settled = draft.settled.deselect claim := by
  simp only [Draft.excludeSelected, Settled.deselect, Draft.settled]
  cases draft.selectedClaims[claim.key]? with
  | none => rfl
  | some selected =>
      by_cases same : pyEq selected claim = true
      · simp only [if_pos same]
        rfl
      · simp only [if_neg same]

private theorem excludeProvisional_settled (draft : Draft) (resolution : ResolutionRecord)
    (claim : Claim) : (draft.excludeProvisional resolution claim).settled = draft.settled := by
  simp only [Draft.excludeProvisional]
  split
  · rfl
  · split
    · rfl
    · rfl

private theorem excludeAlternative_settled (draft : Draft) (claim : Claim) :
    (draft.excludeAlternative claim).settled = draft.settled.withdraw claim := by
  simp only [Draft.excludeAlternative, Settled.withdraw]
  have same : draft.settled.compatible = draft.compatibleClaims := rfl
  rw [same]
  split
  · exact keepAlternatives_settled draft claim.key _
  · rfl

theorem exclude_settled (resolution : ResolutionRecord) (draft : Draft) (claim : Claim) :
    (Draft.exclude resolution draft claim).settled = draft.settled.exclude claim := by
  rw [Draft.exclude, excludeAlternative_settled, excludeProvisional_settled,
    excludeSelected_settled, Settled.exclude]

theorem excludeRejected_settled (draft : Draft) (conflict : ConflictSet) (scope : Option String) :
    (draft.excludeRejected state conflict scope).settled =
      (Settled.rejected state scope conflict).foldl Settled.exclude draft.settled := by
  rw [Draft.excludeRejected, Settled.rejected]
  cases state.effectiveResolutionsByConflictRefAndScope[resolutionLane state conflict scope]? with
  | none => rfl
  | some resolution =>
      simp only
      generalize conflict.candidates.filter
        (fun claim => claim.claimId ∈ resolution.rejectedClaimIds) = claims
      induction claims generalizing draft with
      | nil => rfl
      | cons claim claims inductionHypothesis =>
          rw [List.foldl_cons, List.foldl_cons, inductionHypothesis, exclude_settled]

theorem viewFinding_settled (scope : Option String) (draft : Draft) (conflict : ConflictSet) :
    (viewFinding state scope draft conflict).settled =
      draft.settled.enterFinding state scope conflict := by
  simp only [viewFinding, Settled.enterFinding]
  have same : draft.settled.handled = draft.handledConflictIds := rfl
  rw [same]
  split
  · rfl
  · split
    · cases (committedChoice state conflict scope).claim with
      | none => rfl
      | some claim => exact excludeRejected_settled draft conflict scope
    · rfl

private theorem viewFindings_settled (scope : Option String) (conflicts : List ConflictSet)
    (draft : Draft) :
    (conflicts.foldl (viewFinding state scope) draft).settled =
      conflicts.foldl (Settled.enterFinding state scope) draft.settled := by
  induction conflicts generalizing draft with
  | nil => rfl
  | cons conflict conflicts inductionHypothesis =>
      rw [List.foldl_cons, List.foldl_cons, inductionHypothesis, viewFinding_settled]

private theorem viewKeys_settled (entries : List (ClaimKey × List Claim)) {draft next : Draft}
    (run : entries.foldlM (viewKey state constraints resolver) draft = .ok next) :
    entries.foldlM (Settled.enterKey state constraints.scope) draft.settled =
      .ok next.settled := by
  induction entries generalizing draft with
  | nil =>
      injection run with run
      subst run
      rfl
  | cons entry entries inductionHypothesis =>
      rw [List.foldlM_cons, bind_ok_iff] at run
      obtain ⟨middle, entered, run⟩ := run
      rw [List.foldlM_cons, viewKey_settled entered]
      exact inductionHypothesis run

/-- Where a projection shows a settled part. -/
structure Projection.Shows (projection : Projection) (settled : Settled) : Prop where
  selected : projection.selectedClaims = settled.selected
  compatible : projection.compatibleClaims = settled.compatible
  surfaced : projection.surfacedConflicts = settled.surfaced
  findings : projection.surfacedFindings = settled.findings
  unresolved : projection.unresolvedConflicts = orderUnresolved settled.unresolved

/-- The view of every resolver shows the settled part of its scope. -/
theorem buildView_settled {projection : Projection}
    (run : buildView state constraints resolver = .ok projection) :
    ∃ settled, settledView state constraints.scope = .ok settled ∧ projection.Shows settled := by
  rw [buildView, bind_ok_iff] at run
  obtain ⟨draft, entered, run⟩ := run
  rw [pure_ok_iff] at run
  subst run
  have passes := @viewFindings_settled _ state constraints.scope state.conflicts draft
  refine ⟨(state.conflicts.foldl (viewFinding state constraints.scope) draft).settled, ?_,
    ⟨rfl, rfl, rfl, rfl, rfl⟩⟩
  rw [settledView, bind_ok_iff]
  exact ⟨draft.settled, viewKeys_settled _ entered, by rw [passes, pure_ok_iff]⟩

end Refinement

end Statefuse
