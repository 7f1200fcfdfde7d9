import Statefuse.Conflict.Record
import Statefuse.Foundation.Tables
import Statefuse.Foundation.Undominated
import Statefuse.Reference

/-!
# Selection by vector clocks

The causal resolver compares the vector clocks that candidates carry in their provenance,
where a replica that a clock does not name counts as zero.  It selects a candidate when
exactly one is not dominated, and this is the candidate that dominates all others
(`causal_selection_iff`).
-/

namespace Statefuse

open Foundation

/-- What the caller asserts. -/
structure ResolutionContext where
  timestampsTrusted : Bool
  concurrent : Option Bool
  replacementSemantics : Bool
  causalMetadataTrusted : Bool
  deriving DecidableEq

structure ResolutionAudit where
  resolverName : String
  conflictId : String
  conflictRef : String
  conflictType : String
  candidateClaimIds : List String
  outcome : String
  details : List (String × String)
  deterministic : Bool
  deriving DecidableEq

section Theory

variable [Runtime]

/-- The selected claim equals a candidate. -/
structure SelectedState where
  conflictSet : ConflictSet
  selectedClaim : Claim
  reason : String
  audit : ResolutionAudit
  belongs : conflictSet.candidates.any (fun claim => pyEq claim selectedClaim) = true

def SelectedState.create (conflictSet : ConflictSet) (selectedClaim : Claim) (reason : String)
    (audit : ResolutionAudit) : Result SelectedState :=
  if belongs : conflictSet.candidates.any (fun claim => pyEq claim selectedClaim) = true then
    .ok ⟨conflictSet, selectedClaim, reason, audit, belongs⟩
  else valueError "SelectedState.selected_claim must belong to its conflict_set."

inductive ResolutionResult where
  | selectedState (state : SelectedState)
  | unresolvedConflict (conflictSet : ConflictSet) (reason : String) (audit : ResolutionAudit)
  | abstention (conflictSet : ConflictSet) (reason : String) (audit : ResolutionAudit)

/-- `_audit`. -/
def auditOf (resolverName : String) (conflictSet : ConflictSet) (outcome : String)
    (details : List (String × String)) : ResolutionAudit where
  resolverName := resolverName
  conflictId := conflictSet.conflictId
  conflictRef := conflictSet.conflictRef
  conflictType := conflictSet.conflictType
  candidateClaimIds := conflictSet.candidates.map Claim.claimId
  outcome := outcome
  details := details
  deterministic := true

abbrev VectorClock : Type := Dict String Int

/-- A counter is an integer, and not a boolean, that is not negative. -/
def counterOf (value : JSONValue) : Option Int :=
  match value.asNumber? with
  | some (.int counter) => if 0 ≤ counter then some counter else none
  | _ => none

/-- `_vector_clock`: a non-empty mapping from non-empty names to counters. -/
def vectorClock (value : JSONValue) : Option VectorClock :=
  match value.asObj? with
  | none => none
  | some members =>
      if members.isEmpty then none
      else if members.toList.any fun entry => entry.1 = "" ∨ counterOf entry.2 = none then none
      else some (members.map fun _ counter => (counterOf counter).getD 0)

/-- `clock.get(replica, 0)`. -/
def VectorClock.counter (clock : VectorClock) (replica : String) : Int := clock[replica]?.getD 0

/-- `_dominates`. -/
def dominates (left right : VectorClock) : Bool :=
  let replicas := left.keys ++ right.keys
  (replicas.all fun replica => right.counter replica ≤ left.counter replica) &&
    replicas.any fun replica => right.counter replica < left.counter replica

/-- The candidates with clocks that no clock at another place dominates. -/
def maximalClocks (clocks : List (Claim × VectorClock)) : List (Claim × VectorClock) :=
  (clocks.zipIdx.filter fun entry =>
    !clocks.zipIdx.any fun other => other.2 ≠ entry.2 ∧ dominates other.1.2 entry.1.2).map Prod.fst

/-- The clock that a claim carries. -/
def Claim.vectorClock (claim : Claim) : Option VectorClock :=
  Statefuse.vectorClock (getOrNull claim.provenance "vector_clock")

structure CausalResolver where
  acceptedConflictTypes : PySet String
  typesPresent : acceptedConflictTypes ≠ ∅ ∧ "" ∉ acceptedConflictTypes

namespace CausalResolver

omit [Runtime] in
private theorem direct_types : (∅ : PySet String).insert directConflictType ≠ ∅ ∧
    "" ∉ (∅ : PySet String).insert directConflictType := by
  constructor
  · intro none
    have member := (PySet.mem_insert ∅ directConflictType directConflictType).mpr (Or.inl rfl)
    rw [none] at member
    exact PySet.not_mem_empty _ member
  · rw [PySet.mem_insert]
    simp [directConflictType]

def resolverName : String := "causal"

/-- The resolver with the default types. -/
def direct : CausalResolver where
  acceptedConflictTypes := (∅ : PySet String).insert directConflictType
  typesPresent := direct_types

def create (acceptedConflictTypes : PySet String) : Result CausalResolver :=
  if typesPresent : acceptedConflictTypes ≠ ∅ ∧ "" ∉ acceptedConflictTypes then
    .ok ⟨acceptedConflictTypes, typesPresent⟩
  else valueError "accepted_conflict_types must contain non-empty strings."

def abstain (conflictSet : ConflictSet) (reason : String) : ResolutionResult :=
  .abstention conflictSet reason (auditOf resolverName conflictSet "abstained" [])

/-- The candidates with their clocks, when all of them carry a valid one. -/
def clocksOf (conflictSet : ConflictSet) : Option (List (Claim × VectorClock)) :=
  conflictSet.candidates.mapM fun claim => claim.vectorClock.map fun clock => (claim, clock)

def resolve (resolver : CausalResolver) (conflictSet : ConflictSet)
    (context : ResolutionContext) : Result ResolutionResult :=
  if conflictSet.conflictType ∉ resolver.acceptedConflictTypes then
    .ok (abstain conflictSet "Conflict type is not accepted by this resolver.")
  else if !context.replacementSemantics then
    .ok (abstain conflictSet
      "The caller did not establish replacement semantics for this predicate.")
  else if !context.causalMetadataTrusted then
    .ok (abstain conflictSet "Candidate causal metadata is not explicitly trusted.")
  else if conflictSet.candidates.length < 2 then
    .ok (abstain conflictSet "Conflict requires at least two candidates.")
  else
    match clocksOf conflictSet with
    | none =>
        .ok (abstain conflictSet "Every candidate requires a valid non-empty vector_clock.")
    | some clocks =>
        match maximalClocks clocks with
        | [(selected, _)] =>
            (SelectedState.create conflictSet selected
              "Selected the unique causally dominant candidate."
              (auditOf resolverName conflictSet "selected"
                [("ordering", "vector_clock"), ("selected_claim_id", selected.claimId)])).map
              .selectedState
        | maximal =>
            .ok (.unresolvedConflict conflictSet
              "Concurrent or equivalent causal alternatives remain unresolved."
              (auditOf resolverName conflictSet "unresolved"
                [("maximal_claim_ids", String.intercalate ","
                  (sortBy id (maximal.map fun entry => entry.1.claimId)))]))

end CausalResolver

/-! ## Dominance -/

/-- What a claim has seen of a replica. -/
def Claim.counter (claim : Claim) (replica : String) : Int :=
  (claim.vectorClock.getD ∅).counter replica

/-- The clock of one claim is nowhere below and somewhere above that of the other. -/
def Claim.CausallyDominates (first second : Claim) : Prop :=
  (∀ replica, second.counter replica ≤ first.counter replica) ∧
    ∃ replica, second.counter replica < first.counter replica

omit [Runtime] in
theorem VectorClock.counter_of_not_mem {clock : VectorClock} {replica : String}
    (absent : replica ∉ clock.keys) : clock.counter replica = 0 := by
  have missing : clock[replica]? = none := by
    rw [Std.ExtTreeMap.mem_keys] at absent
    exact Std.ExtTreeMap.getElem?_eq_none absent
  rw [counter, missing, Option.getD_none]

omit [Runtime] in
/-- Comparing the named replicas compares all of them. -/
theorem dominates_iff (left right : VectorClock) :
    dominates left right = true ↔ right.counter < left.counter := by
  rw [Pi.lt_def, dominates, Bool.and_eq_true, List.all_eq_true, List.any_eq_true]
  simp only [decide_eq_true_eq]
  constructor
  · rintro ⟨everywhere, replica, _, somewhere⟩
    refine ⟨?_, replica, somewhere⟩
    intro other
    by_cases named : other ∈ left.keys ++ right.keys
    · exact everywhere other named
    · rw [List.mem_append, not_or] at named
      rw [VectorClock.counter_of_not_mem named.1, VectorClock.counter_of_not_mem named.2]
  · rintro ⟨everywhere, replica, somewhere⟩
    refine ⟨fun other _ => everywhere other, replica, ?_, somewhere⟩
    by_contra unnamed
    rw [List.mem_append, not_or] at unnamed
    rw [VectorClock.counter_of_not_mem unnamed.1, VectorClock.counter_of_not_mem unnamed.2]
      at somewhere
    exact lt_irrefl _ somewhere

theorem Claim.causallyDominates_iff (first second : Claim) :
    first.CausallyDominates second ↔ second.counter < first.counter :=
  Pi.lt_def.symm

/-- The places of the candidates do not matter, since no clock dominates itself. -/
theorem maximalClocks_eq (clocks : List (Claim × VectorClock)) :
    maximalClocks clocks =
      clocks.filter fun entry => !clocks.any fun other => dominates other.2 entry.2 := by
  have places : ∀ entry ∈ clocks.zipIdx,
      (!clocks.zipIdx.any fun other => other.2 ≠ entry.2 ∧ dominates other.1.2 entry.1.2) =
        !clocks.any fun other => dominates other.2 entry.1.2 := by
    intro entry member
    congr 1
    rw [Bool.eq_iff_iff, List.any_eq_true, List.any_eq_true]
    constructor
    · rintro ⟨other, listed, above⟩
      exact ⟨other.1, List.fst_mem_of_mem_zipIdx listed, (decide_eq_true_eq.mp above).2⟩
    · rintro ⟨other, listed, above⟩
      rcases List.getElem?_of_mem listed with ⟨place, isOther⟩
      refine ⟨(other, place), List.mk_mem_zipIdx_iff_getElem?.mpr isOther, ?_⟩
      refine decide_eq_true_eq.mpr ⟨?_, above⟩
      intro same
      have here : place = entry.2 := same
      have isEntry : clocks[place]? = some entry.1 := by
        rw [here]
        exact List.mk_mem_zipIdx_iff_getElem?.mp member
      rw [isEntry] at isOther
      injection isOther with isOther
      rw [isOther, dominates_iff] at above
      exact lt_irrefl _ above
  rw [maximalClocks, List.filter_congr places]
  conv_rhs => rw [← List.zipIdx_map_fst 0 clocks, List.filter_map]
  rw [List.zipIdx_map_fst]
  rfl

/-- All candidates carry a valid clock. -/
theorem clocksOf_eq {conflict : ConflictSet}
    (valid : ∀ claim ∈ conflict.candidates, claim.vectorClock ≠ none) :
    CausalResolver.clocksOf conflict =
      some (conflict.candidates.map fun claim => (claim, claim.vectorClock.getD ∅)) := by
  have general : ∀ claims : List Claim, (∀ claim ∈ claims, claim.vectorClock ≠ none) →
      claims.mapM (fun claim => claim.vectorClock.map fun clock => (claim, clock)) =
        some (claims.map fun claim => (claim, claim.vectorClock.getD ∅)) := by
    intro claims
    induction claims with
    | nil => intro _; rfl
    | cons head tail inductionHypothesis =>
        intro given
        rcases Option.ne_none_iff_exists'.mp (given head List.mem_cons_self) with ⟨clock, found⟩
        rw [List.mapM_cons, inductionHypothesis
          (fun claim listed => given claim (List.mem_cons_of_mem _ listed)), found]
        simp [found]
  exact general conflict.candidates valid

/-- The candidates that no other one dominates. -/
def ConflictSet.undominated (conflict : ConflictSet) : List Claim :=
  conflict.candidates.filter fun claim => !conflict.candidates.any fun other =>
    dominates (other.vectorClock.getD ∅) (claim.vectorClock.getD ∅)

theorem mem_undominated {conflict : ConflictSet} {claim : Claim} :
    claim ∈ conflict.undominated ↔
      Undominated conflict.candidates Claim.counter claim := by
  rw [ConflictSet.undominated, List.mem_filter, Undominated, Bool.not_eq_true',
    List.any_eq_false]
  simp only [dominates_iff]
  rfl

theorem maximalClocks_candidates (conflict : ConflictSet) :
    maximalClocks (conflict.candidates.map fun claim => (claim, claim.vectorClock.getD ∅)) =
      conflict.undominated.map fun claim => (claim, claim.vectorClock.getD ∅) := by
  rw [maximalClocks_eq, List.filter_map]
  congr 1
  apply List.filter_congr
  intro claim _
  rw [Function.comp_apply, List.any_map]
  rfl

/-! ## The selection -/

namespace CausalResolver

variable {resolver : CausalResolver} {conflict : ConflictSet} {context : ResolutionContext}

/-- The caller and the candidates establish what the resolver asks for. -/
structure Applies (resolver : CausalResolver) (conflict : ConflictSet)
    (context : ResolutionContext) : Prop where
  accepted : conflict.conflictType ∈ resolver.acceptedConflictTypes
  replacement : context.replacementSemantics = true
  trusted : context.causalMetadataTrusted = true
  several : 2 ≤ conflict.candidates.length
  clocks : ∀ claim ∈ conflict.candidates, claim.vectorClock ≠ none

theorem resolve_eq (applies : resolver.Applies conflict context) :
    resolver.resolve conflict context =
      match conflict.undominated with
      | [selected] => (SelectedState.create conflict selected
          "Selected the unique causally dominant candidate."
          (auditOf resolverName conflict "selected"
            [("ordering", "vector_clock"), ("selected_claim_id", selected.claimId)])).map
              .selectedState
      | undominated => .ok (.unresolvedConflict conflict
          "Concurrent or equivalent causal alternatives remain unresolved."
          (auditOf resolverName conflict "unresolved"
            [("maximal_claim_ids", String.intercalate ","
              (sortBy id (undominated.map Claim.claimId)))])) := by
  have enough : ¬conflict.candidates.length < 2 := by
    have several := applies.several
    omega
  rw [resolve, if_neg (not_not_intro applies.accepted), applies.replacement, applies.trusted,
    if_neg (by simp), if_neg (by simp), if_neg enough, clocksOf_eq applies.clocks]
  simp only [maximalClocks_candidates]
  cases conflict.undominated with
  | nil => rfl
  | cons first rest =>
      cases rest with
      | nil => rfl
      | cons second rest =>
          simp only [List.map_cons, List.map_map]
          rfl

theorem undominated_eq_singleton {claim : Claim} (member : claim ∈ conflict.candidates) :
    conflict.undominated = [claim] ↔
      ∀ other ∈ conflict.candidates, other ≠ claim → claim.CausallyDominates other := by
  simp only [Claim.causallyDominates_iff]
  rw [← only_undominated_iff member]
  constructor
  · intro only other
    rw [← mem_undominated, only, List.mem_singleton]
  · intro only
    have permuted : conflict.undominated.Perm [claim] := by
      apply (List.perm_ext_iff_of_nodup (conflict.candidates_nodup.filter _)
        (List.nodup_singleton claim)).mpr
      intro other
      rw [List.mem_singleton, ← only]
      exact mem_undominated
    exact List.perm_singleton.mp permuted

theorem create_selected {claim : Claim} (member : claim ∈ conflict.candidates) (reason : String)
    (audit : ResolutionAudit) : ∃ state, SelectedState.create conflict claim reason audit =
      .ok state ∧ state.selectedClaim = claim := by
  have belongs : conflict.candidates.any (fun other => pyEq other claim) = true :=
    List.any_eq_true.mpr ⟨claim, member, pyEq_refl claim⟩
  rw [SelectedState.create, dif_pos belongs]
  exact ⟨_, rfl, rfl⟩

/-- The ids of the candidates that no other one dominates, in order. -/
structure Lists (conflict : ConflictSet) (ids : List String) : Prop where
  sorted : ids.Pairwise (· < ·)
  exact : ∀ claimId, claimId ∈ ids ↔ ∃ claim ∈ conflict.candidates, claim.claimId = claimId ∧
    ∀ other ∈ conflict.candidates, ¬other.CausallyDominates claim

theorem lists_undominated (conflict : ConflictSet) :
    Lists conflict (sortBy id (conflict.undominated.map Claim.claimId)) where
  sorted := by
    have distinct : conflict.undominated.Pairwise
        (fun first second => first.claimId ≠ second.claimId) :=
      (conflict.valid.candidatesSorted.imp (fun below => ne_of_lt below)).filter _
    exact sortBy_strict (List.pairwise_map.mpr distinct)
  exact := by
    intro claimId
    rw [mem_sortBy, List.mem_map]
    simp only [mem_undominated, Claim.causallyDominates_iff, Undominated]
    constructor
    · rintro ⟨claim, ⟨member, undominated⟩, same⟩
      exact ⟨claim, member, same, undominated⟩
    · rintro ⟨claim, member, same, undominated⟩
      exact ⟨claim, ⟨member, undominated⟩, same⟩

/-- The resolver selects the candidate that dominates all others, if there is one. -/
theorem resolve_cases (applies : resolver.Applies conflict context) :
    (∃ claim state, conflict.undominated = [claim] ∧
      resolver.resolve conflict context = .ok (.selectedState state) ∧
      state.selectedClaim = claim) ∨
    ((∀ claim, conflict.undominated ≠ [claim]) ∧
      resolver.resolve conflict context = .ok (.unresolvedConflict conflict
        "Concurrent or equivalent causal alternatives remain unresolved."
        (auditOf resolverName conflict "unresolved" [("maximal_claim_ids",
          String.intercalate "," (sortBy id (conflict.undominated.map Claim.claimId)))]))) := by
  rw [resolve_eq applies]
  by_cases single : ∃ claim, conflict.undominated = [claim]
  · rcases single with ⟨claim, single⟩
    have member : claim ∈ conflict.candidates := by
      have listed : claim ∈ conflict.undominated := by
        rw [single]
        exact List.mem_singleton.mpr rfl
      exact (mem_undominated.mp listed).1
    rcases create_selected member "Selected the unique causally dominant candidate."
      (auditOf resolverName conflict "selected"
        [("ordering", "vector_clock"), ("selected_claim_id", claim.claimId)]) with
      ⟨state, created, selected⟩
    refine Or.inl ⟨claim, state, single, ?_, selected⟩
    rw [single]
    simp only [created]
    rfl
  · rw [not_exists] at single
    refine Or.inr ⟨single, ?_⟩
    split
    · rename_i claim found
      exact absurd found (single claim)
    · rfl

end CausalResolver

variable {resolver : CausalResolver} {conflict : ConflictSet} {context : ResolutionContext}

/-- The constructor puts the candidates in order. -/
theorem ConflictSet.create_permuted (conflict : ConflictSet) {others : List Claim}
    (permuted : others.Perm conflict.candidates) :
    ConflictSet.create { conflict.toConflictFields with candidates := others } = .ok conflict := by
  have ids : (conflict.candidates.map Claim.claimId).Nodup :=
    List.pairwise_map.mpr (conflict.valid.candidatesSorted.imp fun below => ne_of_lt below)
  have distinct : (others.map Claim.claimId).Nodup :=
    (permuted.map Claim.claimId).nodup_iff.mpr ids
  have candidates : sortBy Claim.claimId others = sortBy Claim.claimId conflict.candidates :=
    sortBy_eq_of_perm permuted fun first firstListed second secondListed =>
      List.inj_on_of_nodup_map distinct firstListed secondListed
  have keys : sortedSet (conflict.key :: conflict.keys ++ others.map Claim.key) =
      sortedSet (conflict.key :: conflict.keys ++ conflict.candidates.map Claim.key) := by
    apply sortedSet_eq (sortedSet_sorted _)
    intro key
    rw [mem_sortedSet, List.mem_append, List.mem_append, (permuted.map Claim.key).mem_iff]
  have normalized : ConflictFields.normalized
      { conflict.toConflictFields with candidates := others } =
        conflict.toConflictFields.normalized := by
    simp only [ConflictFields.normalized, candidates, keys]
  have same := normalized.trans conflict.valid.normalized_eq
  rw [ConflictSet.create, dif_pos distinct, dif_pos conflict.valid.identifiersPresent]
  cases conflict with
  | mk fields valid =>
      simp only [Except.ok.injEq, ConflictSet.mk.injEq]
      exact same

/-- A candidate is selected exactly when it dominates every other one; otherwise the result
lists the candidates that none dominates.  The order of the candidates does not matter. -/
theorem causal_selection_iff (applies : resolver.Applies conflict context) :
    (∀ claim, (∃ state, resolver.resolve conflict context = .ok (.selectedState state) ∧
        state.selectedClaim = claim) ↔
      claim ∈ conflict.candidates ∧
        ∀ other ∈ conflict.candidates, other ≠ claim → claim.CausallyDominates other) ∧
    ((∃ state, resolver.resolve conflict context = .ok (.selectedState state)) ∨
      ∃ reason audit ids, resolver.resolve conflict context =
          .ok (.unresolvedConflict conflict reason audit) ∧
        audit.details = [("maximal_claim_ids", String.intercalate "," ids)] ∧
        CausalResolver.Lists conflict ids) ∧
    ∀ others : List Claim, others.Perm conflict.candidates → (do
        let again ← ConflictSet.create { conflict.toConflictFields with candidates := others }
        resolver.resolve again context) = resolver.resolve conflict context := by
  refine ⟨?_, ?_, ?_⟩
  · intro claim
    constructor
    · rintro ⟨state, selected, isClaim⟩
      rcases CausalResolver.resolve_cases applies with
        ⟨top, other, single, run, isTop⟩ | ⟨_, run⟩
      · rw [run] at selected
        injection selected with selected
        injection selected with selected
        rw [← isClaim, ← selected, isTop]
        have member : top ∈ conflict.candidates := by
          have listed : top ∈ conflict.undominated := by
            rw [single]
            exact List.mem_singleton.mpr rfl
          exact (mem_undominated.mp listed).1
        exact ⟨member, (CausalResolver.undominated_eq_singleton member).mp single⟩
      · rw [run] at selected
        injection selected with selected
        cases selected
    · rintro ⟨member, above⟩
      have single := (CausalResolver.undominated_eq_singleton member).mpr above
      rcases CausalResolver.resolve_cases applies with
        ⟨top, state, isTop, run, selected⟩ | ⟨none, _⟩
      · rw [single] at isTop
        injection isTop with isTop
        exact ⟨state, run, selected.trans isTop.symm⟩
      · exact absurd single (none claim)
  · rcases CausalResolver.resolve_cases applies with ⟨_, state, _, run, _⟩ | ⟨_, run⟩
    · exact Or.inl ⟨state, run⟩
    · exact Or.inr ⟨_, _, _, run, rfl, CausalResolver.lists_undominated conflict⟩
  · intro others permuted
    rw [bind_of_ok (conflict.create_permuted permuted)]

end Theory

section Example

attribute [local instance] Reference.runtime

/-- A claim that has seen so many changes of two replicas. -/
def clockedFact (claimId : String) (first second : Int) : Claim :=
  { Reference.fact claimId Reference.key (.str claimId) [] with
    provenance := objectOf [("vector_clock",
      .obj (objectOf [("a", .number (.int first)), ("b", .number (.int second))]))] }

/-- The fields of the conflict between two such claims. -/
def clockedFields : ConflictFields where
  conflictId := "conflict"
  key := Reference.key
  candidates := [clockedFact "c1" 1 1, clockedFact "c2" 2 1]
  distinctValues := [.str "c1", .str "c2"]
  reason := "different values"
  conflictRef := "conflict-ref"
  conflictType := directConflictType
  keys := [Reference.key]
  conflictClass := "factual"
  conflictSubclass := "value"
  detectorId := "direct"
  annotations := ∅
  witness := ∅

theorem clockedFields_valid : clockedFields.Valid where
  candidatesSorted := by
    rw [clockedFields, List.pairwise_pair]
    decide
  keysSorted := List.pairwise_singleton _ _
  keyListed := List.mem_singleton.mpr rfl
  candidateKeysListed := by
    intro claim listed
    rcases List.mem_pair.mp listed with same | same
    · rw [same]
      exact List.mem_singleton.mpr rfl
    · rw [same]
      exact List.mem_singleton.mpr rfl
  identifiersPresent := by decide
  conflictRefPresent := by decide

def clockedConflict : ConflictSet := ⟨clockedFields, clockedFields_valid⟩

/-- The claim that has seen more is selected. -/
theorem causal_selection_iff_newer : ∃ state,
    CausalResolver.direct.resolve clockedConflict ⟨false, none, true, true⟩ =
      .ok (.selectedState state) ∧ state.selectedClaim = clockedFact "c2" 2 1 := by
  have applies : CausalResolver.direct.Applies clockedConflict ⟨false, none, true, true⟩ := by
    refine ⟨(PySet.mem_insert _ _ _).mpr (Or.inl rfl), rfl, rfl, le_refl 2, ?_⟩
    intro claim listed
    rcases List.mem_pair.mp listed with same | same
    · rw [same]
      decide +kernel
    · rw [same]
      decide +kernel
  have above : dominates ((clockedFact "c2" 2 1).vectorClock.getD ∅)
      ((clockedFact "c1" 1 1).vectorClock.getD ∅) = true := by
    decide +kernel
  apply ((causal_selection_iff applies).1 (clockedFact "c2" 2 1)).mpr
  refine ⟨List.mem_pair.mpr (Or.inr rfl), ?_⟩
  intro other listed different
  rcases List.mem_pair.mp listed with same | same
  · rw [same, Claim.causallyDominates_iff]
    exact (dominates_iff _ _).mp above
  · exact absurd same different

end Example

end Statefuse
