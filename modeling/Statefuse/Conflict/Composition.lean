import Statefuse.Conflict.DetectionSpec
import Statefuse.Reference

/-!
# Composition of detectors

The loop over all findings stops at the first finding that it cannot take up.  Whether
it stops does not depend on the order of the findings: the loop runs through exactly when
the findings are composable, a condition on the set of them (`acceptAll_ok_iff`).  The
conflicts that are returned represent that set up to the equality of the host language,
one for each identifier, so detectors may be given in any order
(`runConflictDetectors_composes`).
-/

namespace Statefuse

open Foundation

section Theory

variable [Runtime]

/-- The two identifiers are derived from the place of the disagreement and from the
candidates. -/
structure ConflictSet.Canonical (conflict : ConflictSet) : Prop where
  conflictRef : conflict.conflictRef =
    deriveConflictRef conflict.key conflict.conflictType conflict.keys conflict.detectorId
  conflictId : conflict.conflictId =
    deriveConflictId conflict.key (conflict.candidates.map Claim.claimId) conflict.conflictType
      conflict.keys conflict.detectorId

/-- Equal conflicts carry the same identifiers. -/
theorem identifiers_of_equal {first second : ConflictSet} (same : pyEq first second = true) :
    first.conflictId = second.conflictId ∧ first.conflictRef = second.conflictRef := by
  have keys := pyEq_iff.mp same
  exact ⟨congrArg (fun key => key.1.1) keys, congrArg (fun key => key.2.1.2.1) keys⟩

theorem missingCandidates_eq_nil {context : ConflictDetectionContext} {conflict : ConflictSet} :
    missingCandidates context conflict = [] ↔ CandidatesActive context conflict := by
  rw [missingCandidates, sortBy_eq_nil, List.map_eq_nil_iff, List.filter_eq_nil_iff]
  apply forall_congr'
  intro claim
  apply imp_congr_right
  intro _
  cases context.claimsById[claim.claimId]? with
  | none => simp
  | some known => simp

section Step

variable {context : ConflictDetectionContext} {accepted next : AcceptedConflicts}
  {member : ConflictSet → Prop} {conflict : ConflictSet}

/-- A canonical finding about active claims is either known already or new under both of
its identifiers. -/
theorem acceptConflict_ok_iff (holds : accepted.Holds member) :
    acceptConflict context accepted conflict = .ok next ↔
      CandidatesActive context conflict ∧ conflict.Canonical ∧
      ((∃ existing, member existing ∧ existing.conflictId = conflict.conflictId ∧
          pyEq existing conflict = true ∧ next = accepted) ∨
        ((∀ other, member other → other.conflictId ≠ conflict.conflictId) ∧
          (∀ other, member other → other.conflictRef ≠ conflict.conflictRef) ∧
          next = ⟨accepted.byId.insert conflict.conflictId conflict,
            accepted.refs.insert conflict.conflictRef conflict.conflictId⟩)) := by
  have canonical : (conflict.conflictRef ≠ deriveConflictRef conflict.key conflict.conflictType
        conflict.keys conflict.detectorId ∨
      conflict.conflictId ≠ deriveConflictId conflict.key
        (conflict.candidates.map Claim.claimId) conflict.conflictType conflict.keys
        conflict.detectorId) ↔ ¬ conflict.Canonical := by
    constructor
    · rintro (differs | differs) ⟨sameRef, sameId⟩
      · exact differs sameRef
      · exact differs sameId
    · intro foreign
      by_contra agree
      rw [not_or, not_not, not_not] at agree
      exact foreign ⟨agree.1, agree.2⟩
  simp only [acceptConflict]
  by_cases active : CandidatesActive context conflict
  case neg =>
    rw [if_pos (fun none => active (missingCandidates_eq_nil.mp none))]
    constructor
    · intro run
      cases run
    · intro accepted
      exact absurd accepted.1 active
  rw [if_neg (not_not.mpr (missingCandidates_eq_nil.mpr active))]
  by_cases own : conflict.Canonical
  case neg =>
    rw [if_pos (canonical.mpr own)]
    constructor
    · intro run
      cases run
    · intro accepted
      exact absurd accepted.2.1 own
  rw [if_neg (fun foreign => canonical.mp foreign own)]
  cases sameId : accepted.byId[conflict.conflictId]? with
  | some existing =>
      obtain ⟨listed, equalId⟩ := (holds.byId _ _).mp sameId
      by_cases equal : pyEq existing conflict = true
      · simp only [if_pos equal, Except.ok.injEq]
        constructor
        · intro same
          exact ⟨active, own, Or.inl ⟨existing, listed, equalId, equal, same.symm⟩⟩
        · rintro ⟨_, _, ⟨_, _, _, _, same⟩ | ⟨newId, _⟩⟩
          · exact same.symm
          · exact absurd equalId (newId existing listed)
      · simp only [if_neg equal]
        constructor
        · intro run
          cases run
        · rintro ⟨_, _, ⟨other, otherListed, otherId, otherEqual, _⟩ | ⟨newId, _⟩⟩
          · have same := holds.byId.eq_of_key otherListed listed (otherId.trans equalId.symm)
            exact absurd (same ▸ otherEqual) equal
          · exact absurd equalId (newId existing listed)
  | none =>
      have newId : ∀ other, member other → other.conflictId ≠ conflict.conflictId :=
        holds.byId.get_none.mp sameId
      have known : ∀ result : Prop, ((∃ existing, member existing ∧
          existing.conflictId = conflict.conflictId ∧ pyEq existing conflict = true ∧
          next = accepted) ∨ result) ↔ result := by
        intro result
        constructor
        · rintro (⟨existing, listed, equalId, _⟩ | holds)
          · exact absurd equalId (newId existing listed)
          · exact holds
        · exact Or.inr
      rw [known]
      cases prior : accepted.refs[conflict.conflictRef]? with
      | some priorId =>
          obtain ⟨other, listed, equalRef, equalId⟩ := (holds.refs _ _).mp prior
          have differs : priorId ≠ conflict.conflictId := by
            rw [← equalId]
            exact newId other listed
          simp only [if_pos differs]
          constructor
          · intro run
            cases run
          · rintro ⟨_, _, _, newRef, _⟩
            exact absurd equalRef (newRef other listed)
      | none =>
          have newRef : ∀ other, member other → other.conflictRef ≠ conflict.conflictRef := by
            intro other listed equalRef
            have taken := (holds.refs _ _).mpr ⟨other, listed, equalRef, rfl⟩
            rw [prior] at taken
            cases taken
          simp only [Except.ok.injEq]
          constructor
          · intro same
            exact ⟨active, own, newId, newRef, same.symm⟩
          · rintro ⟨_, _, _, _, same⟩
            exact same.symm

end Step

/-! ## All findings -/

/-- Findings that can be accepted together, in whatever order. -/
structure Composable (context : ConflictDetectionContext) (found : ConflictSet → Prop) :
    Prop where
  active : ∀ conflict, found conflict → CandidatesActive context conflict
  canonical : ∀ conflict, found conflict → conflict.Canonical
  ids : ∀ first second, found first → found second → first.conflictId = second.conflictId →
    pyEq first second = true
  refs : ∀ first second, found first → found second → first.conflictRef = second.conflictRef →
    first.conflictId = second.conflictId

theorem Composable.empty (context : ConflictDetectionContext) :
    Composable context (fun _ => False) where
  active _ impossible := impossible.elim
  canonical _ impossible := impossible.elim
  ids _ _ impossible := impossible.elim
  refs _ _ impossible := impossible.elim

theorem Composable.mono {context : ConflictDetectionContext} {found fewer : ConflictSet → Prop}
    (composable : Composable context found)
    (among : ∀ conflict, fewer conflict → found conflict) : Composable context fewer where
  active conflict listed := composable.active conflict (among conflict listed)
  canonical conflict listed := composable.canonical conflict (among conflict listed)
  ids first second left right := composable.ids first second (among first left) (among second right)
  refs first second left right :=
    composable.refs first second (among first left) (among second right)

/-- The accepted conflicts are findings, and every finding equals one of them. -/
structure AcceptedConflicts.Represents (accepted : AcceptedConflicts)
    (found member : ConflictSet → Prop) : Prop where
  holds : accepted.Holds member
  sound : ∀ conflict, member conflict → found conflict
  complete : ∀ conflict, found conflict → ∃ existing, member existing ∧
    pyEq existing conflict = true

section Run

variable {context : ConflictDetectionContext} {accepted next : AcceptedConflicts}
  {found member : ConflictSet → Prop} {conflict : ConflictSet}

/-- One round succeeds exactly when the finding is composable with the findings before it. -/
theorem acceptConflict_exists_iff (represents : accepted.Represents found member)
    (composable : Composable context found) :
    (∃ next, acceptConflict context accepted conflict = .ok next) ↔
      Composable context (fun other => found other ∨ other = conflict) := by
  constructor
  · rintro ⟨next, run⟩
    obtain ⟨active, canonical, place⟩ := (acceptConflict_ok_iff represents.holds).mp run
    have own : (∀ other, found other → other.conflictId = conflict.conflictId →
          pyEq other conflict = true) ∧
        (∀ other, found other → other.conflictRef = conflict.conflictRef →
          other.conflictId = conflict.conflictId) := by
      rcases place with ⟨existing, listed, sameId, equal, _⟩ | ⟨newId, newRef, _⟩
      · have known := represents.sound existing listed
        constructor
        · intro other isFound otherId
          exact pyEq_trans (composable.ids other existing isFound known
            (otherId.trans sameId.symm)) equal
        · intro other isFound otherRef
          rw [← sameId]
          exact composable.refs other existing isFound known
            (otherRef.trans (identifiers_of_equal equal).2.symm)
      · constructor
        · intro other isFound otherId
          obtain ⟨existing, listed, equal⟩ := represents.complete other isFound
          exact absurd ((identifiers_of_equal equal).1.trans otherId) (newId existing listed)
        · intro other isFound otherRef
          obtain ⟨existing, listed, equal⟩ := represents.complete other isFound
          exact absurd ((identifiers_of_equal equal).2.trans otherRef) (newRef existing listed)
    constructor
    · rintro other (isFound | same)
      · exact composable.active other isFound
      · exact same ▸ active
    · rintro other (isFound | same)
      · exact composable.canonical other isFound
      · exact same ▸ canonical
    · rintro first second (firstFound | firstSame) (secondFound | secondSame) sameId
      · exact composable.ids first second firstFound secondFound sameId
      · subst secondSame
        exact own.1 first firstFound sameId
      · subst firstSame
        exact pyEq_symm (own.1 second secondFound sameId.symm)
      · rw [firstSame, secondSame, pyEq_refl]
    · rintro first second (firstFound | firstSame) (secondFound | secondSame) sameRef
      · exact composable.refs first second firstFound secondFound sameRef
      · subst secondSame
        exact own.2 first firstFound sameRef
      · subst firstSame
        exact (own.2 second secondFound sameRef.symm).symm
      · rw [firstSame, secondSame]
  · intro extended
    have active := extended.active conflict (Or.inr rfl)
    have canonical := extended.canonical conflict (Or.inr rfl)
    by_cases known : ∃ existing, member existing ∧ existing.conflictId = conflict.conflictId
    · obtain ⟨existing, listed, sameId⟩ := known
      have equal := extended.ids existing conflict (Or.inl (represents.sound existing listed))
        (Or.inr rfl) sameId
      exact ⟨_, (acceptConflict_ok_iff represents.holds).mpr
        ⟨active, canonical, Or.inl ⟨existing, listed, sameId, equal, rfl⟩⟩⟩
    · have newId : ∀ other, member other → other.conflictId ≠ conflict.conflictId :=
        fun other listed sameId => known ⟨other, listed, sameId⟩
      have newRef : ∀ other, member other → other.conflictRef ≠ conflict.conflictRef :=
        fun other listed sameRef => newId other listed (extended.refs other conflict
          (Or.inl (represents.sound other listed)) (Or.inr rfl) sameRef)
      exact ⟨_, (acceptConflict_ok_iff represents.holds).mpr
        ⟨active, canonical, Or.inr ⟨newId, newRef, rfl⟩⟩⟩

/-- One round represents one finding more. -/
theorem acceptConflict_represents (represents : accepted.Represents found member)
    (run : acceptConflict context accepted conflict = .ok next) :
    ∃ fresh, next.Represents (fun other => found other ∨ other = conflict) fresh := by
  obtain ⟨_, _, place⟩ := (acceptConflict_ok_iff represents.holds).mp run
  rcases place with ⟨existing, listed, _, equal, same⟩ | ⟨newId, _, _⟩
  · subst same
    refine ⟨member, represents.holds, ?_, ?_⟩
    · intro other isMember
      exact Or.inl (represents.sound other isMember)
    · rintro other (isFound | isSame)
      · exact represents.complete other isFound
      · rw [isSame]
        exact ⟨existing, listed, equal⟩
  · rcases acceptConflict_ok represents.holds run with same | extended
    · -- the table of a new finding is not the old one
      have stored : next.byId[conflict.conflictId]? = some conflict := by
        rcases (acceptConflict_ok_iff represents.holds).mp run with
          ⟨_, _, ⟨existing, listed, sameId, _⟩ | ⟨_, _, inserted⟩⟩
        · exact absurd sameId (newId existing listed)
        · rw [inserted]
          exact Dict.get_insert_self _ _ _
      rw [same] at stored
      have listed := ((represents.holds.byId _ _).mp stored).1
      exact absurd rfl (newId conflict listed)
    · refine ⟨_, extended, ?_, ?_⟩
      · rintro other (isMember | isSame)
        · exact Or.inl (represents.sound other isMember)
        · exact Or.inr isSame
      · rintro other (isFound | isSame)
        · obtain ⟨existing, listed, equal⟩ := represents.complete other isFound
          exact ⟨existing, Or.inl listed, equal⟩
        · exact ⟨conflict, Or.inr rfl, isSame ▸ pyEq_refl _⟩

/-- The loop runs through exactly when all findings are composable. -/
theorem acceptAll_ok_iff (represents : accepted.Represents found member)
    (composable : Composable context found) (findings : List ConflictSet) :
    (∃ final, findings.foldlM (acceptConflict context) accepted = .ok final) ↔
      Composable context (fun other => found other ∨ other ∈ findings) := by
  induction findings generalizing accepted found member with
  | nil =>
      constructor
      · intro _
        exact composable.mono (by simp)
      · intro _
        exact ⟨accepted, rfl⟩
  | cons first rest inductionHypothesis =>
      have among : ∀ other, (found other ∨ other ∈ first :: rest) ↔
          ((found other ∨ other = first) ∨ other ∈ rest) := by
        intro other
        rw [List.mem_cons, or_assoc]
      constructor
      · rintro ⟨final, run⟩
        rw [List.foldlM_cons, bind_ok_iff] at run
        obtain ⟨next, stepped, remaining⟩ := run
        have extended := (acceptConflict_exists_iff represents composable).mp ⟨next, stepped⟩
        obtain ⟨_, nextRepresents⟩ := acceptConflict_represents represents stepped
        exact ((inductionHypothesis nextRepresents extended).mp ⟨final, remaining⟩).mono
          (fun other listed => (among other).mp listed)
      · intro all
        have extended : Composable context (fun other => found other ∨ other = first) :=
          all.mono (fun other listed => (among other).mpr (Or.inl listed))
        obtain ⟨next, stepped⟩ := (acceptConflict_exists_iff represents composable).mpr extended
        obtain ⟨_, nextRepresents⟩ := acceptConflict_represents represents stepped
        obtain ⟨final, remaining⟩ := (inductionHypothesis nextRepresents extended).mpr
          (all.mono (fun other listed => (among other).mpr listed))
        exact ⟨final, by rw [List.foldlM_cons, bind_of_ok stepped, remaining]⟩

/-- What the loop accepts represents all findings. -/
theorem acceptAll_represents {final : AcceptedConflicts}
    (represents : accepted.Represents found member) {findings : List ConflictSet}
    (run : findings.foldlM (acceptConflict context) accepted = .ok final) :
    ∃ kept, final.Represents (fun other => found other ∨ other ∈ findings) kept := by
  induction findings generalizing accepted found member with
  | nil =>
      cases run
      refine ⟨member, represents.holds, ?_, ?_⟩
      · intro conflict listed
        exact Or.inl (represents.sound conflict listed)
      · rintro conflict (isFound | impossible)
        · exact represents.complete conflict isFound
        · cases impossible
  | cons first rest inductionHypothesis =>
      rw [List.foldlM_cons, bind_ok_iff] at run
      obtain ⟨next, stepped, remaining⟩ := run
      obtain ⟨_, nextRepresents⟩ := acceptConflict_represents represents stepped
      obtain ⟨kept, holds, sound, complete⟩ := inductionHypothesis nextRepresents remaining
      refine ⟨kept, holds, ?_, ?_⟩
      · intro conflict listed
        rcases sound conflict listed with (isFound | isFirst) | later
        · exact Or.inl isFound
        · exact Or.inr (isFirst ▸ List.mem_cons_self)
        · exact Or.inr (List.mem_cons_of_mem _ later)
      · rintro conflict (isFound | listed)
        · exact complete conflict (Or.inl (Or.inl isFound))
        · rcases List.mem_cons.mp listed with isFirst | later
          · exact complete conflict (Or.inl (Or.inr isFirst))
          · exact complete conflict (Or.inr later)

end Run

/-! ## The detection -/

/-- The conflicts are the findings, each of them once up to equality, in the order of
their identifiers. -/
structure Composes (context : ConflictDetectionContext) (findings conflicts : List ConflictSet) :
    Prop where
  sorted : conflicts.Pairwise (fun first second => first.conflictId < second.conflictId)
  refs : conflicts.Pairwise (fun first second => first.conflictRef ≠ second.conflictRef)
  complete : ∀ finding ∈ findings, ∃! conflict, conflict ∈ conflicts ∧
    pyEq conflict finding = true
  sound : ∀ conflict ∈ conflicts, conflict ∈ findings
  active : ∀ conflict ∈ conflicts, CandidatesActive context conflict
  canonical : ∀ conflict ∈ conflicts, conflict.Canonical

/-- Both detections raise, or both return equal lists. -/
def SameOutcome (first second : Result (List ConflictSet)) : Prop :=
  ((∃ failure, first = .error failure) ∧ ∃ failure, second = .error failure) ∨
    ∃ left right, first = .ok left ∧ second = .ok right ∧
      List.Forall₂ (fun conflict other => pyEq conflict other = true) left right

/-- The findings of the direct detector and of the custom ones. -/
def Finds (context : ConflictDetectionContext) (detectors : List ConflictDetector)
    (findings : List ConflictSet) : Prop :=
  ∃ direct custom, directConflicts context = .ok direct ∧
    (detectors.mapM fun detector => detector context) = .ok custom ∧
    findings = direct ++ custom.flatten

section Detection

variable {context : ConflictDetectionContext} {detectors others : List ConflictDetector}
  {findings conflicts : List ConflictSet}

theorem Finds.unique {otherFindings : List ConflictSet} (first : Finds context detectors findings)
    (second : Finds context detectors otherFindings) : findings = otherFindings := by
  rcases first with ⟨direct, custom, detected, reported, same⟩
  rcases second with ⟨otherDirect, otherCustom, otherDetected, otherReported, otherSame⟩
  rw [detected] at otherDetected
  rw [reported] at otherReported
  injection otherDetected with sameDirect
  injection otherReported with sameCustom
  rw [same, otherSame, sameDirect, sameCustom]

theorem AcceptedConflicts.represents_empty :
    AcceptedConflicts.Represents ⟨∅, ∅⟩ (fun _ => False) (fun _ => False) where
  holds := AcceptedConflicts.holds_empty
  sound _ impossible := impossible
  complete _ impossible := impossible.elim

/-- A detection succeeds exactly when the detectors do and their findings are composable. -/
theorem runConflictDetectors_ok_iff :
    (∃ conflicts, runConflictDetectors context detectors = .ok conflicts) ↔
      ∃ findings, Finds context detectors findings ∧ Composable context (· ∈ findings) := by
  have loop := fun findings => acceptAll_ok_iff AcceptedConflicts.represents_empty
    (Composable.empty context) findings
  simp only [false_or] at loop
  constructor
  · rintro ⟨conflicts, run⟩
    simp only [runConflictDetectors, bind_ok_iff, pure_ok_iff] at run
    obtain ⟨direct, detected, custom, reported, accepted, looped, _⟩ := run
    exact ⟨_, ⟨direct, custom, detected, reported, rfl⟩, (loop _).mp ⟨accepted, looped⟩⟩
  · rintro ⟨_, ⟨direct, custom, detected, reported, rfl⟩, composable⟩
    obtain ⟨accepted, looped⟩ := (loop _).mpr composable
    rw [runConflictDetectors, bind_of_ok detected, bind_of_ok reported, bind_of_ok looped]
    exact ⟨_, rfl⟩

/-- What a successful detection returns. -/
theorem runConflictDetectors_composes
    (run : runConflictDetectors context detectors = .ok conflicts) :
    ∃ findings, Finds context detectors findings ∧ Composes context findings conflicts := by
  obtain ⟨findings, finds, composable⟩ := runConflictDetectors_ok_iff.mp ⟨conflicts, run⟩
  simp only [runConflictDetectors, bind_ok_iff, pure_ok_iff] at run
  obtain ⟨direct, detected, custom, reported, accepted, looped, returned⟩ := run
  have listed : findings = direct ++ custom.flatten :=
    finds.unique ⟨direct, custom, detected, reported, rfl⟩
  subst listed
  obtain ⟨kept, represents⟩ :=
    acceptAll_represents AcceptedConflicts.represents_empty looped
  have members : ∀ conflict, conflict ∈ conflicts ↔ kept conflict := by
    intro conflict
    rw [← returned]
    exact represents.holds.byId.mem_values conflict
  have sound : ∀ conflict ∈ conflicts, conflict ∈ direct ++ custom.flatten := by
    intro conflict member
    rcases represents.sound conflict ((members conflict).mp member) with impossible | found
    · exact impossible.elim
    · exact found
  have sorted : conflicts.Pairwise (fun first second => first.conflictId < second.conflictId) := by
    rw [← returned]
    exact represents.holds.byId.values_distinct
  refine ⟨_, finds, sorted, ?_, ?_, sound,
    fun conflict member => composable.active conflict (sound conflict member),
    fun conflict member => composable.canonical conflict (sound conflict member)⟩
  · apply sorted.imp_of_mem
    intro first second firstListed secondListed below sameRef
    exact ne_of_lt below (composable.refs first second (sound first firstListed)
      (sound second secondListed) sameRef)
  · intro finding found
    obtain ⟨conflict, isKept, equal⟩ := represents.complete finding (Or.inr found)
    refine ⟨conflict, ⟨(members conflict).mpr isKept, equal⟩, ?_⟩
    rintro other ⟨otherListed, otherEqual⟩
    exact represents.holds.byId.eq_of_key ((members other).mp otherListed) isKept
      (identifiers_of_equal (pyEq_trans otherEqual (pyEq_symm equal))).1

/-- The same findings are composed to the same conflicts. -/
theorem Composes.unique {findings otherFindings first second : List ConflictSet}
    (left : Composes context findings first) (right : Composes context otherFindings second)
    (same : ∀ finding, finding ∈ findings ↔ finding ∈ otherFindings) :
    List.Forall₂ (fun conflict other => pyEq conflict other = true) first second := by
  have among : ∀ {findings otherFindings first second : List ConflictSet},
      Composes context findings first → Composes context otherFindings second →
      (∀ finding ∈ findings, finding ∈ otherFindings) →
      ∀ key ∈ first.map PyEq.key, key ∈ second.map PyEq.key := by
    intro findings otherFindings first second left right included key member
    rcases List.mem_map.mp member with ⟨conflict, listed, sameKey⟩
    rcases right.complete conflict (included conflict (left.sound conflict listed)) with
      ⟨other, ⟨otherListed, equal⟩, _⟩
    exact List.mem_map.mpr ⟨other, otherListed, (pyEq_iff.mp equal).trans sameKey⟩
  have sorted : ∀ {findings conflicts : List ConflictSet}, Composes context findings conflicts →
      (conflicts.map PyEq.key).Pairwise (fun one two => one.1.1 < two.1.1) :=
    fun composes => List.pairwise_map.mpr composes.sorted
  have keys : first.map PyEq.key = second.map PyEq.key := by
    apply eq_of_strictly_sorted (sorted left) (sorted right)
    intro key
    constructor
    · exact among left right (fun finding found => (same finding).mp found) key
    · exact among right left (fun finding found => (same finding).mpr found) key
  rw [← List.forall₂_eq_eq_eq, List.forall₂_map_left_iff, List.forall₂_map_right_iff] at keys
  exact keys.imp (fun _ _ equal => pyEq_iff.mpr equal)

private theorem mem_reported {custom : List (List ConflictSet)}
    (reported : (detectors.mapM fun detector => detector context) = .ok custom)
    (finding : ConflictSet) : finding ∈ custom.flatten ↔
      ∃ detector ∈ detectors, ∃ answer, detector context = .ok answer ∧ finding ∈ answer := by
  rw [List.mem_flatten]
  constructor
  · rintro ⟨answer, listed, found⟩
    rcases (mem_mapM_ok reported answer).mp listed with ⟨detector, member, answered⟩
    exact ⟨detector, member, answer, answered, found⟩
  · rintro ⟨detector, member, answer, answered, found⟩
    exact ⟨answer, (mem_mapM_ok reported answer).mpr ⟨detector, member, answered⟩, found⟩

/-- Detectors in another order report the same findings. -/
theorem Finds.perm (permuted : detectors.Perm others) (finds : Finds context detectors findings) :
    ∃ otherFindings, Finds context others otherFindings ∧
      ∀ finding, finding ∈ findings ↔ finding ∈ otherFindings := by
  rcases finds with ⟨direct, custom, detected, reported, same⟩
  have otherAnswered : ∀ detector ∈ others, ∃ answer, detector context = .ok answer :=
    fun detector listed => each_mapM_ok reported detector (permuted.mem_iff.mpr listed)
  rcases exists_mapM_ok otherAnswered with ⟨otherCustom, otherReported⟩
  refine ⟨_, ⟨direct, otherCustom, detected, otherReported, rfl⟩, ?_⟩
  intro finding
  rw [same, List.mem_append, List.mem_append, mem_reported reported, mem_reported otherReported]
  apply or_congr_right
  constructor
  · rintro ⟨detector, listed, rest⟩
    exact ⟨detector, permuted.mem_iff.mp listed, rest⟩
  · rintro ⟨detector, listed, rest⟩
    exact ⟨detector, permuted.mem_iff.mpr listed, rest⟩

private theorem succeeds_perm (permuted : detectors.Perm others)
    (succeeds : ∃ conflicts, runConflictDetectors context detectors = .ok conflicts) :
    ∃ conflicts, runConflictDetectors context others = .ok conflicts := by
  rcases runConflictDetectors_ok_iff.mp succeeds with ⟨findings, finds, composable⟩
  rcases finds.perm permuted with ⟨otherFindings, otherFinds, same⟩
  apply runConflictDetectors_ok_iff.mpr
  exact ⟨otherFindings, otherFinds,
    composable.mono (fun finding found => (same finding).mpr found)⟩

/-- Detectors in any order: both detections raise or both return the same list, and what
is returned is composed of the findings. -/
theorem runConflictDetectors_perm (context : ConflictDetectionContext)
    {detectors others : List ConflictDetector} (permuted : detectors.Perm others) :
    SameOutcome (runConflictDetectors context detectors) (runConflictDetectors context others) ∧
    ∀ conflicts, runConflictDetectors context detectors = .ok conflicts →
      ∃ findings, Finds context detectors findings ∧ Composes context findings conflicts := by
  refine ⟨?_, fun conflicts run => runConflictDetectors_composes run⟩
  cases run : runConflictDetectors context detectors with
  | error failure =>
      refine Or.inl ⟨⟨failure, rfl⟩, ?_⟩
      cases otherRun : runConflictDetectors context others with
      | error otherFailure => exact ⟨otherFailure, rfl⟩
      | ok conflicts =>
          rcases succeeds_perm permuted.symm ⟨conflicts, otherRun⟩ with ⟨_, impossible⟩
          rw [run] at impossible
          cases impossible
  | ok conflicts =>
      rcases succeeds_perm permuted ⟨conflicts, run⟩ with ⟨otherConflicts, otherRun⟩
      refine Or.inr ⟨conflicts, otherConflicts, rfl, otherRun, ?_⟩
      rcases runConflictDetectors_composes run with ⟨findings, finds, composes⟩
      rcases runConflictDetectors_composes otherRun with ⟨otherFindings, otherFinds, otherComposes⟩
      rcases finds.perm permuted with ⟨permutedFindings, permutedFinds, same⟩
      have equal : permutedFindings = otherFindings := permutedFinds.unique otherFinds
      exact composes.unique otherComposes (equal ▸ same)

end Detection

end Theory

section Example

attribute [local instance] Reference.runtime

/-- Two active facts with different values for one key. -/
def contestedFacts : List Claim :=
  [Reference.fact "a" Reference.key (.str "x") [], Reference.fact "b" Reference.key (.str "y") []]

def contestedContext : ConflictDetectionContext where
  activeClaimsByKey := (∅ : Dict ClaimKey (List Claim)).insert Reference.key contestedFacts
  claimsById := Dict.ofItems Claim.claimId contestedFacts
  evidenceById := ∅
  sourcesById := ∅
  derivationsById := ∅
  activeDecisions := []
  predicateRegistry := .empty

def silentDetector : ConflictDetector := fun _ => .ok []

theorem runConflictDetectors_perm_swapped :
    ∃ conflict other,
      runConflictDetectors contestedContext [directConflicts, silentDetector] = .ok [conflict] ∧
      runConflictDetectors contestedContext [silentDetector, directConflicts] = .ok [other] ∧
      pyEq conflict other = true := by
  have single : ((runConflictDetectors contestedContext
      [directConflicts, silentDetector]).toOption.map List.length) = some 1 := by
    decide +kernel
  have swapped : [directConflicts, silentDetector].Perm [silentDetector, directConflicts] :=
    List.Perm.swap silentDetector directConflicts []
  rcases (runConflictDetectors_perm contestedContext swapped).1 with
    ⟨⟨failure, raised⟩, _⟩ | ⟨conflicts, others, run, otherRun, equal⟩
  · rw [raised] at single
    cases single
  · rw [run] at single
    injection single with length
    rcases List.length_eq_one_iff.mp length with ⟨conflict, isSingle⟩
    subst isSingle
    rw [List.forall₂_cons_left_iff] at equal
    rcases equal with ⟨other, rest, same, none, isOther⟩
    rw [List.forall₂_nil_left_iff] at none
    rw [isOther, none] at otherRun
    exact ⟨conflict, other, run, otherRun, same⟩

end Example

end Statefuse
