import Statefuse.Conflict.Applicability
import Statefuse.Conflict.Composition
import Statefuse.Materialize.Acceptance
import Statefuse.Materialize.Query
import Statefuse.Materialize.Scopes

/-!
# Context queries

A query with a context filters the recorded witnesses of the conflicts of a state; a
materialization with a context filters the claims before they are compared.  Both find
conflicts about the same keys (`findConflicts_context_keys`): the context of a witness is
the union of two contexts that agree on the names they share, so it suits the query
exactly when both claims do.
-/

namespace Statefuse

open Foundation

section Theory

theorem agreesWith_iff {members query : JSONObject} :
    agreesWith members query = true ↔ ∀ (name : String) (value other : JSONValue),
      query[name]? = some value → members[name]? = some other → pyEq other value = true := by
  rw [agreesWith, List.all_eq_true]
  constructor
  · intro all name value other bound own
    have agrees := all (name, value) ((Dict.mem_toList query name value).mpr bound)
    simpa [own] using agrees
  · rintro agree ⟨name, value⟩ member
    have bound := (Dict.mem_toList query name value).mp member
    cases own : members[name]? with
    | none => simp
    | some other => simp [agree name value other bound own]

variable [Runtime]

/-- The union of two contexts that overlap suits a query exactly when both of them do. -/
theorem agreesWith_merged {left right : Claim} {query : JSONObject}
    (overlap : contextsOverlap left.context right.context = true) :
    agreesWith (mergeContexts left.context right.context) query = true ↔
      contextExcludes left query = false ∧ contextExcludes right query = false := by
  have shared := (contextsOverlap_iff left.context right.context).mp overlap
  rw [agreesWith_iff, contextExcludes_eq_false, contextExcludes_eq_false]
  constructor
  · intro agree
    constructor
    · intro name value other bound own
      cases rightBound : right.context[name]? with
      | none =>
          apply agree name value other bound
          rw [get_mergeContexts, rightBound, own]
          rfl
      | some second =>
          have merged : (mergeContexts left.context right.context)[name]? = some second := by
            rw [get_mergeContexts, rightBound]
            rfl
          exact pyEq_trans (shared name other second own rightBound)
            (agree name value second bound merged)
    · intro name value other bound own
      apply agree name value other bound
      rw [get_mergeContexts, own]
      rfl
  · rintro ⟨leftSuits, rightSuits⟩ name value other bound merged
    rw [get_mergeContexts] at merged
    cases rightBound : right.context[name]? with
    | none =>
        rw [rightBound] at merged
        exact leftSuits name value other bound merged
    | some second =>
        rw [rightBound] at merged
        injection merged with merged
        exact merged ▸ rightSuits name value second bound rightBound

/-- The recorded witness of a pair carries the union of its contexts. -/
theorem pairMatchesContext_witness {left right : Claim} {witness : JSONObject}
    (computed : overlapWitness left right = .ok witness) (query : JSONObject) :
    pairMatchesContext query (.obj witness) =
      agreesWith (mergeContexts left.context right.context) query := by
  simp only [overlapWitness, bind_ok_iff, pure_ok_iff] at computed
  rcases computed with ⟨validFrom, _, validUntil, _, same⟩
  have context : getOrNull witness "context" =
      .obj (mergeContexts left.context right.context) := by
    rw [← same]
    simp [getOrNull, objectOf]
  simp only [pairMatchesContext, JsonValue.asObj_obj, context]

/-! ## The findings of a detection -/

section Findings

variable {context : ConflictDetectionContext} {member : Claim → Prop} {query : JSONObject}

/-- Without custom detectors the conflicts that are returned are the findings. -/
theorem mem_runConflictDetectors (grouped : context.Groups member)
    (readable : ∀ claim, member claim → Readable claim) {conflicts : List ConflictSet}
    (run : runConflictDetectors context [] = .ok conflicts) (conflict : ConflictSet) :
    conflict ∈ conflicts ↔ ∃ key, context.finding key = .ok (some conflict) := by
  rcases directConflicts_ok grouped readable with ⟨direct, detected, _, members⟩
  rcases runConflictDetectors_composes run with ⟨findings, finds, composes⟩
  have same : findings = direct :=
    finds.unique ⟨direct, [], detected, rfl, (List.append_nil direct).symm⟩
  subst same
  rw [← members]
  constructor
  · exact composes.sound conflict
  · intro found
    rcases composes.complete conflict found with ⟨other, ⟨listed, equal⟩, _⟩
    rcases (members conflict).mp found with ⟨key, isFinding⟩
    rcases (members other).mp (composes.sound other listed) with ⟨otherKey, otherFinding⟩
    have sameKey : other.key = conflict.key :=
      congrArg (fun fields => fields.1.2.1) (pyEq_iff.mp equal)
    rw [(finding_direct grouped isFinding).1, (finding_direct grouped otherFinding).1] at sameKey
    have sameConflict := finding_eq otherFinding isFinding sameKey
    exact sameConflict ▸ listed

/-- There is a finding about a key exactly when two of its claims clash. -/
theorem exists_finding_iff (grouped : context.Groups member)
    (readable : ∀ claim, member claim → Readable claim) (key : ClaimKey) :
    (∃ conflict, context.finding key = .ok (some conflict)) ↔
      ∃ first second, (member first ∧ first.key = key) ∧ (member second ∧ second.key = key) ∧
        Clash context.predicateRegistry key first second := by
  have sorted := active_sorted grouped key
  rcases finding_exists grouped key (fun claim isMember _ => readable claim isMember) with
    ⟨found, isFound⟩
  have clashes := fun first second : Claim =>
    (mem_clashingPairs sorted first second :
      (first, second) ∈ clashingPairs context.predicateRegistry key _ ↔ _)
  simp only [mem_active grouped] at clashes
  rw [ConflictDetectionContext.finding] at isFound ⊢
  cases found with
  | none =>
      have none := findingOf_none isFound
      constructor
      · rintro ⟨conflict, other⟩
        rw [isFound] at other
        cases other
      · rintro ⟨first, second, clash⟩
        have listed := (clashes first second).mpr clash
        rw [none] at listed
        cases listed
  | some conflict =>
      constructor
      · intro _
        have some : clashingPairs context.predicateRegistry key
            (context.activeClaimsByKey[key]?.getD []) ≠ [] := by
          intro none
          rw [findingOf, if_pos none] at isFound
          cases isFound
        rcases List.exists_mem_of_ne_nil _ some with ⟨⟨first, second⟩, listed⟩
        exact ⟨first, second, (clashes first second).mp listed⟩
      · intro _
        exact ⟨conflict, isFound⟩

/-- The pairs that the witness of a conflict lists. -/
def ConflictSet.incompatiblePairs (conflict : ConflictSet) : List JSONValue :=
  (getOrNull conflict.witness "incompatible_pairs").asArr?.getD []

private theorem finding_pairs (grouped : context.Groups member) {key : ClaimKey}
    {conflict : ConflictSet} (found : context.finding key = .ok (some conflict)) :
    conflict.conflictType = directConflictType ∧
      (getOrNull conflict.witness "incompatible_pairs").asArr? = some
        (((clashingPairs context.predicateRegistry key
          (context.activeClaimsByKey[key]?.getD [])).map witnessOf).map .obj) := by
  have sorted := active_sorted grouped key
  have keyed : ∀ claim ∈ context.activeClaimsByKey[key]?.getD [], claim.key = key :=
    fun claim listed => ((mem_active grouped key claim).mp listed).2
  have isFinding := findingOf_spec sorted keyed found
  refine ⟨isFinding.conflictType, ?_⟩
  rw [isFinding.witness]
  simp [getOrNull, objectOf]

/-- The pairs of a finding are the clashes among the claims of its key. -/
theorem mem_incompatiblePairs (grouped : context.Groups member) {key : ClaimKey}
    {conflict : ConflictSet} (found : context.finding key = .ok (some conflict))
    (pair : JSONValue) :
    pair ∈ conflict.incompatiblePairs ↔
      ∃ first second, (member first ∧ first.key = key) ∧ (member second ∧ second.key = key) ∧
        Clash context.predicateRegistry key first second ∧
        pair = .obj (witnessOf (first, second)) := by
  have clashes := fun first second : Claim =>
    (mem_clashingPairs (active_sorted grouped key) first second :
      (first, second) ∈ clashingPairs context.predicateRegistry key _ ↔ _)
  simp only [mem_active grouped] at clashes
  rw [ConflictSet.incompatiblePairs, (finding_pairs grouped found).2, Option.getD_some,
    List.mem_map]
  constructor
  · rintro ⟨witness, listed, same⟩
    rcases List.mem_map.mp listed with ⟨⟨first, second⟩, isPair, isWitness⟩
    subst isWitness
    rcases (clashes first second).mp isPair with ⟨isFirst, isSecond, clash⟩
    exact ⟨first, second, isFirst, isSecond, clash, same.symm⟩
  · rintro ⟨first, second, isFirst, isSecond, clash, same⟩
    exact ⟨_, List.mem_map_of_mem ((clashes first second).mpr ⟨isFirst, isSecond, clash⟩),
      same.symm⟩

/-- A finding matches a context exactly when two clashing claims suit it. -/
theorem finding_matches_iff (grouped : context.Groups member)
    (readable : ∀ claim, member claim → Readable claim) {key : ClaimKey} {conflict : ConflictSet}
    (found : context.finding key = .ok (some conflict)) :
    conflictMatchesContext conflict query = true ↔
      ∃ first second, (member first ∧ first.key = key) ∧ (member second ∧ second.key = key) ∧
        Clash context.predicateRegistry key first second ∧
        contextExcludes first query = false ∧ contextExcludes second query = false := by
  have suited : ∀ first second, (member first ∧ first.key = key) →
      (member second ∧ second.key = key) → Clash context.predicateRegistry key first second →
      (pairMatchesContext query (.obj (witnessOf (first, second))) = true ↔
        contextExcludes first query = false ∧ contextExcludes second query = false) := by
    intro first second isFirst isSecond clash
    rcases readable first isFirst.1 with ⟨firstBounds, firstRead⟩
    rcases readable second isSecond.1 with ⟨secondBounds, secondRead⟩
    have overlap := ((incompatible_iff _ key firstRead secondRead).mp clash.2.2).2.1
    rw [pairMatchesContext_witness (overlapWitness_eq_witnessOf ⟨_, firstRead⟩ ⟨_, secondRead⟩),
      agreesWith_merged overlap]
  have matched : conflictMatchesContext conflict query = true ↔
      ∃ pair ∈ conflict.incompatiblePairs, pairMatchesContext query pair = true := by
    rcases finding_pairs grouped found with ⟨isDirect, entries⟩
    rw [ConflictSet.incompatiblePairs, entries]
    simp only [conflictMatchesContext, entries, if_pos isDirect, List.any_eq_true,
      Option.getD_some]
  rw [matched]
  constructor
  · rintro ⟨pair, listed, suits⟩
    rcases (mem_incompatiblePairs grouped found pair).mp listed with
      ⟨first, second, isFirst, isSecond, clash, same⟩
    subst same
    exact ⟨first, second, isFirst, isSecond, clash,
      (suited first second isFirst isSecond clash).mp suits⟩
  · rintro ⟨first, second, isFirst, isSecond, clash, suits⟩
    exact ⟨_, (mem_incompatiblePairs grouped found _).mpr
      ⟨first, second, isFirst, isSecond, clash, rfl⟩,
      (suited first second isFirst isSecond clash).mpr suits⟩

end Findings

/-! ## States of one log -/

section States

variable {log : OpLog} {registry : PredicateRegistry} {validAt : Option String}
  {context : JSONObject} {state : MemoryState}

theorem contextExcludes_empty (claim : Claim) : contextExcludes claim ∅ = false := by
  apply contextExcludes_eq_false.mpr
  intro name value other bound
  rw [Dict.get_empty] at bound
  cases bound

theorem claimApplies_none_iff (claim : Claim) (context : JSONObject) :
    claimApplies claim none context = .ok true ↔ contextExcludes claim context = false := by
  unfold claimApplies
  cases contextExcludes claim context <;> simp

/-- The conflicts of a state without custom detectors are the findings about its
applicable claims, which are readable. -/
theorem mem_conflicts_iff (run : materialize log registry [] validAt context = .ok state) :
    state.context.Groups (state.Applicable validAt context) ∧
      (∀ claim, state.Applicable validAt context claim → Readable claim) ∧
      ∀ conflict, conflict ∈ state.conflicts ↔
        ∃ key, state.context.finding key = .ok (some conflict) := by
  have grouped : state.context.Groups (state.Applicable validAt context) :=
    (materialize_active run).1
  rcases materialize_ok_iff.mp run with ⟨_, collected, _, active, _, decisions, _, conflicts,
    detected, indexes, built, lifecycle, _, same⟩
  subst same
  have readable : ∀ claim, MemoryState.Applicable _ validAt context claim → Readable claim :=
    fun claim applicable =>
      readable_of_buildIndexes grouped built claim.key claim ⟨applicable, rfl⟩
  exact ⟨grouped, readable, mem_runConflictDetectors grouped readable detected⟩

/-- The keys that a context query finds conflicts about. -/
theorem mem_context_keys (run : materialize log registry [] validAt context = .ok state)
    (query : JSONObject) (key : ClaimKey) :
    (∃ conflict ∈ state.findConflicts { context := query }, conflict.key = key) ↔
      ∃ first second, (state.Applicable validAt context first ∧ first.key = key) ∧
        (state.Applicable validAt context second ∧ second.key = key) ∧
        Clash state.predicateRegistry key first second ∧
        contextExcludes first query = false ∧ contextExcludes second query = false := by
  rcases mem_conflicts_iff run with ⟨grouped, readable, members⟩
  have selected : ∀ conflict, conflict ∈ state.findConflicts { context := query } ↔
      conflict ∈ state.conflicts ∧
        (query = ∅ ∨ conflictMatchesContext conflict query = true) := by
    intro conflict
    simp [MemoryState.findConflicts, mem_sortBy, MemoryState.matchesQuery, accepts]
  constructor
  · rintro ⟨conflict, found, sameKey⟩
    rcases (selected conflict).mp found with ⟨current, filtered⟩
    rcases (members conflict).mp current with ⟨place, isFinding⟩
    have samePlace : place = key := (finding_direct grouped isFinding).1.symm.trans sameKey
    subst samePlace
    rcases filtered with empty | matched
    · rcases (exists_finding_iff grouped readable place).mp ⟨conflict, isFinding⟩ with
        ⟨first, second, isFirst, isSecond, clash⟩
      rw [empty]
      exact ⟨first, second, isFirst, isSecond, clash, contextExcludes_empty first,
        contextExcludes_empty second⟩
    · exact (finding_matches_iff grouped readable isFinding).mp matched
  · rintro ⟨first, second, isFirst, isSecond, clash, suits⟩
    rcases (exists_finding_iff grouped readable key).mpr ⟨first, second, isFirst, isSecond, clash⟩
      with ⟨conflict, isFinding⟩
    have matched := (finding_matches_iff grouped readable isFinding).mpr
      ⟨first, second, isFirst, isSecond, clash, suits⟩
    exact ⟨conflict, (selected conflict).mpr ⟨(members conflict).mpr ⟨key, isFinding⟩,
      Or.inr matched⟩, (finding_direct grouped isFinding).1⟩

theorem materialize_registry {detectors : List ConflictDetector}
    (run : materialize log registry detectors validAt context = .ok state) :
    state.predicateRegistry = registry := by
  rcases materialize_ok_iff.mp run with ⟨_, _, _, _, _, _, _, _, _, _, _, _, _, same⟩
  rw [← same]
  rfl

/-- What applies in a scope is what applies anywhere and applies there. -/
theorem applicable_scope_iff {narrowed : MemoryState}
    (run : materialize log registry [] none ∅ = .ok state)
    (narrowedRun : materialize log registry [] validAt context = .ok narrowed) (claim : Claim) :
    narrowed.Applicable validAt context claim ↔
      state.Applicable none ∅ claim ∧ claimApplies claim validAt context = .ok true := by
  rcases materialize_ok_iff.mp run with ⟨_, collected, collects, _, _, _, _, _, _, _, _, _, _, same⟩
  rcases materialize_ok_iff.mp narrowedRun with ⟨_, narrowedCollected, narrowedCollects, _, _, _,
    _, _, _, _, _, _, _, narrowedSame⟩
  rw [collects] at narrowedCollects
  injection narrowedCollects with sameCollected
  subst sameCollected same narrowedSame
  unfold MemoryState.Applicable
  rw [claimApplies_none_iff claim ∅]
  constructor
  · rintro ⟨found, present, applies⟩
    exact ⟨⟨found, present, contextExcludes_empty claim⟩, applies⟩
  · rintro ⟨⟨found, present, _⟩, applies⟩
    exact ⟨found, present, applies⟩

/-- What applies in a context is what applies anywhere and suits the context. -/
theorem applicable_context_iff {narrowed : MemoryState}
    (run : materialize log registry [] none ∅ = .ok state)
    (narrowedRun : materialize log registry [] none context = .ok narrowed) (claim : Claim) :
    narrowed.Applicable none context claim ↔
      state.Applicable none ∅ claim ∧ contextExcludes claim context = false := by
  rw [applicable_scope_iff run narrowedRun, claimApplies_none_iff]

/-- A log that can be materialized can be materialized for a scope whose instant its
resolutions can be compared with. -/
theorem materialize_scope_exists (collisionFree : CollisionFree)
    (run : materialize log registry [] none ∅ = .ok state)
    (parsed : checkInstant validAt = .ok ()) (context : JSONObject)
    (comparable : ∀ (recordId : String) (record : ResolutionRecord),
      state.resolutionsById[recordId]? = some record →
        ∃ applies, resolutionApplies record validAt = .ok applies) :
    ∃ narrowed, materialize log registry [] validAt context = .ok narrowed := by
  have readable := (mem_conflicts_iff run).2.1
  rcases materialize_ok_iff.mp run with ⟨_, collected, collects, _, _, decisions, sorts, _, _, _,
    _, _, _, same⟩
  subst same
  have gathers := collect_gathers collects
  have keyed := collect_keyed collects
  have present : ∀ claim ∈ Dict.values collected.claimsById,
      claim.claimId ∉ inactiveIds collected → Readable claim := by
    intro claim listed kept
    rcases (Dict.mem_values _ _).mp listed with ⟨claimId, found⟩
    have isId := gathers.claims.keyed claimId claim found
    exact readable claim ⟨by rw [isId]; exact found, kept,
      (claimApplies_none_iff claim ∅).mpr (contextExcludes_empty claim)⟩
  have asked : ∀ claim ∈ Dict.values collected.claimsById, claim.claimId ∉ inactiveIds collected →
      ∃ applies, claimApplies claim validAt context = .ok applies := by
    intro claim listed kept
    rcases present claim listed kept with ⟨bounds, read⟩
    unfold claimApplies
    cases contextExcludes claim context with
    | true => exact ⟨false, rfl⟩
    | false =>
        cases validAt with
        | none => exact ⟨true, rfl⟩
        | some text =>
            rcases map_ok_iff.mp parsed with ⟨instant, isInstant, _⟩
            refine ⟨boundsContain bounds instant, ?_⟩
            rw [if_neg Bool.false_ne_true]
            simp only [bind_of_ok isInstant, bind_of_ok read]
            rfl
  rcases partitionClaims_exists asked with ⟨active, partitioned⟩
  have grouped := partition_grouped gathers.claims.keyed partitioned
  rcases conflicts_of_active collisionFree grouped (by
      rintro first second ⟨firstFound, _⟩ ⟨secondFound, _⟩ ids
      have ids : first.claimId = second.claimId := ids
      rw [ids, secondFound, Option.some.injEq] at firstFound
      exact firstFound.symm)
    (by
      rintro claim ⟨found, kept, _⟩
      exact present claim ((Dict.mem_values _ _).mpr ⟨_, found⟩) kept)
    registry collected.evidenceById collected.sourcesById collected.derivationsById decisions with
    ⟨conflicts, indexes, detected, built⟩
  rcases (foldLifecycle_ok_iff keyed.resolutions keyed.events
    (Dict.ofItems (·.conflictRef) conflicts) validAt).mpr comparable with ⟨lifecycle, folds⟩
  exact ⟨_, materialize_ok_iff.mpr ⟨parsed, collected, collects, active, partitioned, decisions,
    sorts, conflicts, detected, indexes, built, lifecycle, folds, rfl⟩⟩

/-- A log that can be materialized can be materialized in a context. -/
theorem materialize_context_exists (collisionFree : CollisionFree)
    (run : materialize log registry [] none ∅ = .ok state) (context : JSONObject) :
    ∃ narrowed, materialize log registry [] none context = .ok narrowed :=
  materialize_scope_exists collisionFree run rfl context (fun _ _ _ => ⟨true, rfl⟩)

/-- The keys that a context query finds conflicts about are those about which the
materialization in that context has a conflict. -/
theorem findConflicts_context_keys (run : materialize log registry [] none ∅ = .ok state)
    (query : JSONObject) :
    (∀ narrowed, materialize log registry [] none query = .ok narrowed → ∀ key,
      ((∃ conflict ∈ state.findConflicts { context := query }, conflict.key = key) ↔
        ∃ conflict ∈ narrowed.conflicts, conflict.key = key)) ∧
    (CollisionFree → ∃ narrowed, materialize log registry [] none query = .ok narrowed) := by
  refine ⟨?_, fun collisionFree => materialize_context_exists collisionFree run query⟩
  intro narrowed narrowedRun key
  rcases mem_conflicts_iff narrowedRun with ⟨grouped, readable, members⟩
  have found : (∃ conflict ∈ narrowed.conflicts, conflict.key = key) ↔
      ∃ conflict, narrowed.context.finding key = .ok (some conflict) := by
    constructor
    · rintro ⟨conflict, current, sameKey⟩
      rcases (members conflict).mp current with ⟨place, isFinding⟩
      have samePlace : place = key := (finding_direct grouped isFinding).1.symm.trans sameKey
      exact ⟨conflict, samePlace ▸ isFinding⟩
    · rintro ⟨conflict, isFinding⟩
      exact ⟨conflict, (members conflict).mpr ⟨key, isFinding⟩,
        (finding_direct grouped isFinding).1⟩
  have sameRegistry : narrowed.context.predicateRegistry = state.predicateRegistry :=
    (materialize_registry narrowedRun).trans (materialize_registry run).symm
  rw [mem_context_keys run query key, found, exists_finding_iff grouped readable key, sameRegistry]
  simp only [applicable_context_iff run narrowedRun]
  constructor
  · rintro ⟨first, second, isFirst, isSecond, clash, firstSuits, secondSuits⟩
    exact ⟨first, second, ⟨⟨isFirst.1, firstSuits⟩, isFirst.2⟩,
      ⟨⟨isSecond.1, secondSuits⟩, isSecond.2⟩, clash⟩
  · rintro ⟨first, second, ⟨⟨isFirst, firstSuits⟩, firstKey⟩, ⟨⟨isSecond, secondSuits⟩, secondKey⟩,
      clash⟩
    exact ⟨first, second, ⟨isFirst, firstKey⟩, ⟨isSecond, secondKey⟩, clash, firstSuits,
      secondSuits⟩

end States

end Theory

section Example

attribute [local instance] Reference.runtime

/-- A fact, and a fact of another value that holds by day only. -/
def modalOps : List Op :=
  [.claimAdded ⟨"op-a", "r", "t"⟩ (Reference.fact "a" Reference.key (.str "x") []),
    .claimAdded ⟨"op-b", "r", "t"⟩ (Reference.factIn "b" Reference.key (.str "y") "day")]

theorem findConflicts_context_keys_modal :
    ∃ state narrowed, materialize (Reference.logOf modalOps) .empty [] none ∅ = .ok state ∧
      materialize (Reference.logOf modalOps) .empty [] none (objectOf [("mode", .str "day")]) =
        .ok narrowed ∧
      (∃ conflict ∈ state.findConflicts { context := objectOf [("mode", .str "day")] },
        conflict.key = Reference.key) ∧
      ∃ conflict ∈ narrowed.conflicts, conflict.key = Reference.key := by
  have computed : ((materialize (Reference.logOf modalOps) .empty [] none ∅).toOption.map
      fun state => (state.findConflicts
        { context := objectOf [("mode", .str "day")] }).map fun conflict => conflict.key) =
      some [Reference.key] := by
    decide +kernel
  cases run : materialize (Reference.logOf modalOps) .empty [] none ∅ with
  | error failure =>
      rw [run] at computed
      cases computed
  | ok state =>
      rw [run] at computed
      injection computed with computed
      rcases List.map_eq_singleton_iff.mp computed with ⟨conflict, single, sameKey⟩
      have found : ∃ conflict ∈ state.findConflicts { context := objectOf [("mode", .str "day")] },
          conflict.key = Reference.key :=
        ⟨conflict, by rw [single]; exact List.mem_singleton_self _, sameKey⟩
      have equivalence := findConflicts_context_keys run (objectOf [("mode", .str "day")])
      rcases equivalence.2 Reference.collisionFree with ⟨narrowed, narrowedRun⟩
      exact ⟨state, narrowed, rfl, narrowedRun, found,
        (equivalence.1 narrowed narrowedRun Reference.key).mp found⟩

end Example

end Statefuse
