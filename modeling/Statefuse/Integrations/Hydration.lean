import Statefuse.Foundation.OrderedDict
import Statefuse.Integrations.Models
import Statefuse.Materialize.Effective
import Statefuse.Materialize.Gathering
import Statefuse.Memory.Materialization

/-!
# Hydration

A search returns hits, which are not records of the memory.  `hydrate_search_hits` reads
the current records that they lead to: the claims they name, the conflicts they hint at
or that one of these claims is a candidate of, and the other candidates.  Two bounds cut
the lists of ids, and what is cut off is listed as omitted; so every record the hits lead
to is either there, or missing from the state, or omitted (`hydrate_closed`).
-/

namespace Statefuse

open Foundation

variable [Runtime]

/-- Hits are told apart by both of their ids; their order reads an absent projection id
as the empty text. -/
def uniqueHits (hits : List SearchHit) : List SearchHit :=
  sortBy (fun hit => toLex (hit.projectionId.getD "", hit.externalId))
    (OrderedDict.ofItems (fun hit : SearchHit => (hit.externalId, hit.projectionId)) hits).values

def seedClaimIds (hits : List SearchHit) : PySet String :=
  Std.ExtTreeSet.ofList ((hits.flatMap SearchHit.claimIds).filter (· ≠ "")) compare

def hintedConflictIds (hits : List SearchHit) : PySet String :=
  Std.ExtTreeSet.ofList ((hits.flatMap SearchHit.conflictIds).filter (· ≠ "")) compare

/-- The conflicts of a claim's key that have the claim as a candidate. -/
def conflictIdsOfClaim (state : MemoryState) (claimId : String) : List String :=
  match state.claimsById[claimId]? with
  | none => []
  | some claim =>
      ((state.conflictsByKey[claim.key]?.getD []).filter fun conflict =>
        conflict.candidates.any fun candidate => candidate.claimId = claimId).map (·.conflictId)

/-- The current conflicts that are hinted or that a seed belongs to. -/
def currentConflictIds (state : MemoryState) (seeds hinted : PySet String) : PySet String :=
  Std.ExtTreeSet.ofList
    (hinted.toList.filter (fun conflictId => conflictId ∈ state.conflictsById) ++
      seeds.toList.flatMap (conflictIdsOfClaim state)) compare

/-- `state.conflicts_by_id[conflict_id].candidates`, their ids. -/
def candidateIdsOf (state : MemoryState) (conflictId : String) : Result (List String) :=
  match state.conflictsById[conflictId]? with
  | none => .error (.keyError conflictId)
  | some conflict => .ok (conflict.candidates.map Claim.claimId)

/-- The effective resolution of a conflict in the lane of every scope, with the status of
that lane. -/
def globalResolution (state : MemoryState) (conflict : ConflictSet) :
    Option (ResolutionRecord × LifecycleStatus) :=
  let lane := Lane.global conflict.conflictRef
  state.effectiveResolutionsByConflictRefAndScope[lane]?.map fun resolution =>
    (resolution, state.lifecycleStatusByConflictRefAndScope[lane]?.getD .opened)

/-- `hydrate_search_hits` once the bounds are checked and the state is there. -/
def hydrate (state : MemoryState) (hits : List SearchHit) (maxRelatedConflicts maxClaims : Int) :
    Result HydratedContext := do
  let unique := uniqueHits hits
  let seeds := seedClaimIds unique
  let hinted := hintedConflictIds unique
  let orderedConflictIds := (currentConflictIds state seeds hinted).toList
  let selectedConflictIds := orderedConflictIds.take maxRelatedConflicts.toNat
  let candidateIds ← selectedConflictIds.mapM (candidateIdsOf state)
  let orderedClaimIds := sortedSet (seeds.toList ++ candidateIds.flatten)
  let claims := (orderedClaimIds.take maxClaims.toNat).filterMap
    fun claimId => state.claimsById[claimId]?
  let conflicts := selectedConflictIds.filterMap fun conflictId => state.conflictsById[conflictId]?
  let resolved := conflicts.filterMap (globalResolution state)
  return {
    claims := claims
    conflicts := conflicts
    missingClaimIds := seeds.toList.filter fun claimId => claimId ∉ state.claimsById
    missingConflictIds := hinted.toList.filter fun conflictId => conflictId ∉ state.conflictsById
    searchHits := unique
    claimStatuses := (Dict.ofItems Claim.claimId claims).map fun claimId _ =>
      if claimId ∈ state.inactiveClaimIds then .inactive else .active
    conflictStatuses := (Dict.ofItems (fun conflict : ConflictSet => conflict.conflictId)
      conflicts).map fun _ conflict =>
        state.lifecycleStatusByConflictRefAndScope[Lane.global conflict.conflictRef]?.getD .opened
    resolutions := Dict.values (Dict.ofItems (fun resolution : ResolutionRecord =>
      resolution.resolutionId) (resolved.map Prod.fst))
    resolutionStatuses := (Dict.ofItems (fun entry : ResolutionRecord × LifecycleStatus =>
      entry.1.resolutionId) resolved).map fun _ entry => entry.2
    omittedClaimIds := orderedClaimIds.drop maxClaims.toNat
    omittedConflictIds := orderedConflictIds.drop maxRelatedConflicts.toNat }

/-- The bounds of a hydration have to be positive. -/
def checkBounds (maxRelatedConflicts maxClaims : Int) : Result Unit :=
  if maxRelatedConflicts < 1 ∨ maxClaims < 1 then
    valueError "Hydration bounds must be positive."
  else .ok ()

/-- `hydrate_search_hits`: the memory is materialized with its own arguments. -/
def hydrateSearchHits (codec : CheckpointCodec) (memory : Memory) (hits : List SearchHit)
    (maxRelatedConflicts maxClaims : Int) : Result HydratedContext × Memory :=
  match checkBounds maxRelatedConflicts maxClaims with
  | .error failure => (.error failure, memory)
  | .ok () =>
      let materialized := memory.materialize codec .default
      (materialized.1 >>= fun state => hydrate state hits maxRelatedConflicts maxClaims,
        materialized.2)

/-- Hits with the same two ids are the same hit. -/
def Identified (hits : List SearchHit) : Prop :=
  ∀ first ∈ hits, ∀ second ∈ hits, first.externalId = second.externalId →
    first.projectionId = second.projectionId → first = second

/-- A hit names the claim; the empty text names none. -/
def IsSeed (hits : List SearchHit) (claimId : String) : Prop :=
  claimId ≠ "" ∧ ∃ hit ∈ hits, claimId ∈ hit.claimIds

/-- A hit names the conflict. -/
def IsHinted (hits : List SearchHit) (conflictId : String) : Prop :=
  conflictId ≠ "" ∧ ∃ hit ∈ hits, conflictId ∈ hit.conflictIds

/-- The claim is retracted in the log, by its id or by its reference. -/
def OpLog.Retracts (log : OpLog) (registry : PredicateRegistry) (claimId : String) : Prop :=
  (Contents.of (· ∈ log.iterOps)).inactive registry claimId

/-- The context lists current records only, and accounts for every record that the hits
lead to. -/
structure HydratedContext.Closed (context : HydratedContext) (log : OpLog)
    (registry : PredicateRegistry) (state : MemoryState) (hits : List SearchHit) : Prop where
  claimsCurrent : ∀ claim ∈ context.claims, state.claimsById[claim.claimId]? = some claim
  conflictsCurrent : ∀ conflict ∈ context.conflicts,
    conflict ∈ state.conflicts ∧ state.conflictsById[conflict.conflictId]? = some conflict
  active : ∀ claimId : String, context.claimStatuses[claimId]? = some .active ↔
    (∃ claim ∈ context.claims, claim.claimId = claimId) ∧ ¬log.Retracts registry claimId
  inactive : ∀ claimId : String, context.claimStatuses[claimId]? = some .inactive ↔
    (∃ claim ∈ context.claims, claim.claimId = claimId) ∧ log.Retracts registry claimId
  related : ∀ conflict ∈ state.conflicts,
    (IsHinted hits conflict.conflictId ∨
      ∃ candidate ∈ conflict.candidates, IsSeed hits candidate.claimId) →
    conflict ∈ context.conflicts ∨ conflict.conflictId ∈ context.omittedConflictIds
  candidates : ∀ conflict ∈ context.conflicts, ∀ candidate ∈ conflict.candidates,
    (∃ claim ∈ context.claims, claim.claimId = candidate.claimId ∧
      pyEq claim candidate = true) ∨ candidate.claimId ∈ context.omittedClaimIds
  seeds : ∀ claimId, IsSeed hits claimId →
    (∃ claim ∈ context.claims, claim.claimId = claimId) ∨
      claimId ∈ context.missingClaimIds ∨ claimId ∈ context.omittedClaimIds
  hints : ∀ conflictId, IsHinted hits conflictId →
    (∃ conflict ∈ context.conflicts, conflict.conflictId = conflictId) ∨
      conflictId ∈ context.missingConflictIds ∨ conflictId ∈ context.omittedConflictIds
  resolutions : ∀ resolution, resolution ∈ context.resolutions ↔
    ∃ conflict ∈ context.conflicts, state.effectiveResolutionsByConflictRefAndScope[
      Lane.global conflict.conflictRef]? = some resolution

section Hits

variable {hits others : List SearchHit}

omit [Runtime] in
theorem Identified.keyed (identified : Identified hits) :
    ∀ first ∈ hits, ∀ second ∈ hits,
      (first.externalId, first.projectionId) = (second.externalId, second.projectionId) →
        first = second := by
  intro first firstListed second secondListed same
  injection same with external projection
  exact identified first firstListed second secondListed external projection

omit [Runtime] in
theorem mem_uniqueHits (identified : Identified hits) (hit : SearchHit) :
    hit ∈ uniqueHits hits ↔ hit ∈ hits := by
  rw [uniqueHits, mem_sortBy, OrderedDict.mem_values_ofItems identified.keyed]

omit [Runtime] in
theorem mem_seedClaimIds (identified : Identified hits) (claimId : String) :
    claimId ∈ seedClaimIds (uniqueHits hits) ↔ IsSeed hits claimId := by
  simp only [seedClaimIds, PySet.mem_ofList, List.mem_filter, List.mem_flatMap,
    mem_uniqueHits identified, decide_eq_true_eq, IsSeed, and_comm]

omit [Runtime] in
theorem mem_hintedConflictIds (identified : Identified hits) (conflictId : String) :
    conflictId ∈ hintedConflictIds (uniqueHits hits) ↔ IsHinted hits conflictId := by
  simp only [hintedConflictIds, PySet.mem_ofList, List.mem_filter, List.mem_flatMap,
    mem_uniqueHits identified, decide_eq_true_eq, IsHinted, and_comm]

end Hits

/-! ## The state -/

section State

variable {log : OpLog} {registry : PredicateRegistry} {detectors : List ConflictDetector}
  {validAt : Option String} {context : JSONObject} {state : MemoryState}

theorem conflictsById_get (run : materialize log registry detectors validAt context = .ok state)
    (conflictId : String) (conflict : ConflictSet) :
    state.conflictsById[conflictId]? = some conflict ↔
      conflict ∈ state.conflicts ∧ conflict.conflictId = conflictId := by
  have sorted := materialize_conflicts_sorted run
  obtain ⟨_, _, _, _, _, _, _, _, _, _, _, _, _, same⟩ := materialize_ok_iff.mp run
  subst same
  exact Lists.ofItems (sorted.imp (fun below => ne_of_lt below)) conflictId conflict

theorem mem_conflictsByKey (run : materialize log registry detectors validAt context = .ok state)
    (key : ClaimKey) (conflict : ConflictSet) :
    conflict ∈ state.conflictsByKey[key]?.getD [] ↔
      conflict ∈ state.conflicts ∧ key ∈ conflict.keys := by
  obtain ⟨_, _, _, _, _, _, _, _, _, _, _, _, _, same⟩ := materialize_ok_iff.mp run
  subst same
  exact mem_groupConflictsByKey

theorem claimsById_keyed (run : materialize log registry detectors validAt context = .ok state) :
    Keyed state.claimsById Claim.claimId := by
  obtain ⟨_, _, collects, _, _, _, _, _, _, _, _, _, _, same⟩ := materialize_ok_iff.mp run
  subst same
  exact (collect_gathers collects).claims.keyed

theorem mem_inactiveClaimIds
    (run : materialize log registry detectors validAt context = .ok state) (claimId : String) :
    claimId ∈ state.inactiveClaimIds ↔ log.Retracts registry claimId := by
  obtain ⟨_, _, collects, _, _, _, _, _, _, _, _, _, _, same⟩ := materialize_ok_iff.mp run
  subst same
  exact (collect_gathers collects).mem_inactive claimId

/-- A candidate of a current conflict is equal to the claim that the state has under its id. -/
theorem candidate_known (run : materialize log registry detectors validAt context = .ok state)
    {conflict : ConflictSet} (current : conflict ∈ state.conflicts) {candidate : Claim}
    (among : candidate ∈ conflict.candidates) :
    ∃ known, state.claimsById[candidate.claimId]? = some known ∧ known.key = candidate.key ∧
      pyEq known candidate = true := by
  obtain ⟨known, listed, sameId, equal⟩ := candidates_active run current among
  rw [(materialize_active run).1.mem_getD] at listed
  obtain ⟨⟨found, _⟩, sameKey⟩ := listed
  rw [sameId] at found
  exact ⟨known, found, sameKey, equal⟩

/-- The conflicts of a claim are the current ones with a candidate of its id. -/
theorem mem_conflictIdsOfClaim
    (run : materialize log registry detectors validAt context = .ok state)
    (claimId conflictId : String) :
    conflictId ∈ conflictIdsOfClaim state claimId ↔
      ∃ conflict ∈ state.conflicts, conflict.conflictId = conflictId ∧
        ∃ candidate ∈ conflict.candidates, candidate.claimId = claimId := by
  unfold conflictIdsOfClaim
  cases found : state.claimsById[claimId]? with
  | none =>
      constructor
      · intro listed
        cases listed
      · intro related
        rcases related with ⟨conflict, current, _, candidate, among, sameId⟩
        obtain ⟨known, present, _⟩ := candidate_known run current among
        rw [sameId, found] at present
        cases present
  | some claim =>
      simp only [List.mem_map, List.mem_filter, mem_conflictsByKey run, List.any_eq_true,
        decide_eq_true_eq]
      constructor
      · intro listed
        rcases listed with ⟨conflict, ⟨⟨current, _⟩, candidate⟩, sameId⟩
        exact ⟨conflict, current, sameId, candidate⟩
      · intro related
        rcases related with ⟨conflict, current, sameConflict, candidate, among, sameId⟩
        obtain ⟨known, present, sameKey, _⟩ := candidate_known run current among
        rw [sameId, found, Option.some.injEq] at present
        have touched := conflict.valid.candidateKeysListed candidate among
        rw [← sameKey, ← present] at touched
        exact ⟨conflict, ⟨⟨current, touched⟩, candidate, among, sameId⟩, sameConflict⟩

/-- The conflicts to hydrate are the current ones that the hits lead to. -/
theorem mem_currentConflictIds
    (run : materialize log registry detectors validAt context = .ok state)
    (seeds hinted : PySet String) (conflictId : String) :
    conflictId ∈ currentConflictIds state seeds hinted ↔
      ∃ conflict ∈ state.conflicts, conflict.conflictId = conflictId ∧
        (conflictId ∈ hinted ∨ ∃ candidate ∈ conflict.candidates, candidate.claimId ∈ seeds) := by
  simp only [currentConflictIds, PySet.mem_ofList, List.mem_append, List.mem_filter,
    List.mem_flatMap, PySet.mem_toList, decide_eq_true_eq, mem_conflictIdsOfClaim run,
    Dict.mem_iff, conflictsById_get run]
  constructor
  · intro either
    rcases either with ⟨named, conflict, current, sameId⟩ |
      ⟨claimId, seed, conflict, current, sameId, candidate, among, sameClaim⟩
    · exact ⟨conflict, current, sameId, Or.inl named⟩
    · exact ⟨conflict, current, sameId, Or.inr ⟨candidate, among, by rw [sameClaim]; exact seed⟩⟩
  · intro related
    rcases related with ⟨conflict, current, sameId, named | ⟨candidate, among, seed⟩⟩
    · exact Or.inl ⟨named, conflict, current, sameId⟩
    · exact Or.inr ⟨candidate.claimId, seed, conflict, current, sameId, candidate, among, rfl⟩

theorem conflictsById_keyed
    (run : materialize log registry detectors validAt context = .ok state) :
    Keyed state.conflictsById (fun conflict : ConflictSet => conflict.conflictId) :=
  fun conflictId conflict found => ((conflictsById_get run conflictId conflict).mp found).2

/-- An effective resolution of a current conflict is the record of its id. -/
theorem effective_known (run : materialize log registry detectors validAt context = .ok state)
    {conflict : ConflictSet} (current : conflict ∈ state.conflicts) {resolution : ResolutionRecord}
    (effective : state.effectiveResolutionsByConflictRefAndScope[
      Lane.global conflict.conflictRef]? = some resolution) :
    state.resolutionsById[resolution.resolutionId]? = some resolution := by
  obtain ⟨⟨entry, ⟨entered, _⟩, shown⟩, _⟩ :=
    ((effective_resolution_iff run current none).1 resolution).mp effective
  cases shown with
  | itself =>
      cases entered with
      | resolution _ known _ _ => exact known
  | named _ _ _ _ known => exact known

/-- The conflicts that are selected are there, so no lookup fails. -/
theorem hydrate_exists (run : materialize log registry detectors validAt context = .ok state)
    (hits : List SearchHit) (maxRelatedConflicts maxClaims : Int) :
    ∃ hydrated, hydrate state hits maxRelatedConflicts maxClaims = .ok hydrated := by
  have found : ∀ conflictId ∈ ((currentConflictIds state (seedClaimIds (uniqueHits hits))
      (hintedConflictIds (uniqueHits hits))).toList.take maxRelatedConflicts.toNat),
      ∃ candidateIds, candidateIdsOf state conflictId = .ok candidateIds := by
    intro conflictId selected
    have listed := List.mem_of_mem_take selected
    rw [PySet.mem_toList, mem_currentConflictIds run] at listed
    obtain ⟨conflict, current, sameId, _⟩ := listed
    refine ⟨conflict.candidates.map Claim.claimId, ?_⟩
    rw [candidateIdsOf, (conflictsById_get run conflictId conflict).mpr ⟨current, sameId⟩]
  obtain ⟨candidateIds, gathered⟩ := exists_mapM_ok found
  exact ⟨_, bind_ok_iff.mpr ⟨candidateIds, gathered, rfl⟩⟩

end State

/-! ## The parts of a context -/

section Parts

section Tables

variable {V : Type} {table : Dict String V} {key : V → String} {ordered asked : List String}
  {name : String} {record : V}

omit [Runtime] in
/-- What a keyed table has for a list of keys. -/
private theorem mem_filterMap_get (keyed : Keyed table key) (ordered : List String) (record : V) :
    record ∈ ordered.filterMap (fun name => table[name]?) ↔
      key record ∈ ordered ∧ table[key record]? = some record := by
  rw [List.mem_filterMap]
  constructor
  · intro listed
    rcases listed with ⟨name, member, found⟩
    have same := keyed name record found
    rw [← same] at member found
    exact ⟨member, found⟩
  · intro both
    exact ⟨key record, both.1, both.2⟩

omit [Runtime] in
/-- Records that are found under their keys are told apart by them. -/
private theorem filterMap_get_injective (keyed : Keyed table key) (ordered : List String) :
    ∀ first ∈ ordered.filterMap (fun name => table[name]?),
      ∀ second ∈ ordered.filterMap (fun name => table[name]?),
        key first = key second → first = second := by
  intro first firstListed second secondListed same
  have found := ((mem_filterMap_get keyed ordered first).mp firstListed).2
  rw [same, ((mem_filterMap_get keyed ordered second).mp secondListed).2,
    Option.some.injEq] at found
  exact found.symm

omit [Runtime] in
/-- A bound keeps a record that is there, or leaves its name out. -/
private theorem kept_or_left (keyed : Keyed table key) (bound : Nat) (listed : name ∈ ordered)
    (found : table[name]? = some record) :
    record ∈ (ordered.take bound).filterMap (fun name => table[name]?) ∨
      name ∈ ordered.drop bound := by
  have same := keyed name record found
  rw [← List.take_append_drop bound ordered, List.mem_append] at listed
  rcases listed with kept | left
  · left
    rw [mem_filterMap_get keyed, same]
    exact ⟨kept, found⟩
  · exact Or.inr left

omit [Runtime] in
/-- A name that is asked for is there, missing or left out. -/
private theorem accounted (keyed : Keyed table key) (bound : Nat) (isAsked : name ∈ asked)
    (listed : ∀ record, table[name]? = some record → name ∈ ordered) :
    (∃ record ∈ (ordered.take bound).filterMap (fun name => table[name]?), key record = name) ∨
      name ∈ asked.filter (fun name => name ∉ table) ∨ name ∈ ordered.drop bound := by
  cases found : table[name]? with
  | none =>
      right
      left
      have unknown : name ∉ table := by
        rw [Dict.mem_iff, found]
        simp
      simp [List.mem_filter, isAsked, unknown]
  | some record =>
      rcases kept_or_left keyed bound (listed record found) found with kept | left
      · exact Or.inl ⟨record, kept, keyed name record found⟩
      · exact Or.inr (Or.inr left)

end Tables

/-- The status of a listed claim. -/
private theorem get_claimStatuses {claims : List Claim} {inactive : PySet String}
    (injective : ∀ first ∈ claims, ∀ second ∈ claims, first.claimId = second.claimId →
      first = second) (claimId : String) (status : ClaimStatus) :
    ((Dict.ofItems Claim.claimId claims).map fun claimId _ =>
        if claimId ∈ inactive then ClaimStatus.inactive else ClaimStatus.active)[claimId]? =
        some status ↔
      (∃ claim ∈ claims, claim.claimId = claimId) ∧
        (if claimId ∈ inactive then ClaimStatus.inactive else ClaimStatus.active) = status := by
  rw [Dict.get_map, Option.map_eq_some_iff]
  constructor
  · intro found
    rcases found with ⟨claim, found, same⟩
    exact ⟨⟨claim, (Lists.ofItems_of_injective injective claimId claim).mp found⟩, same⟩
  · intro both
    rcases both with ⟨⟨claim, listed⟩, same⟩
    exact ⟨claim, (Lists.ofItems_of_injective injective claimId claim).mpr listed, same⟩

end Parts

/-! ## Every hydrated context is closed -/

section Closed

variable {log : OpLog} {registry : PredicateRegistry} {detectors : List ConflictDetector}
  {validAt : Option String} {context : JSONObject} {state : MemoryState} {hits : List SearchHit}
  {maxRelatedConflicts maxClaims : Int} {hydrated : HydratedContext}

private theorem mem_candidateIds {selected : List String} {candidateIds : List (List String)}
    (gathered : selected.mapM (candidateIdsOf state) = .ok candidateIds) (claimId : String) :
    claimId ∈ candidateIds.flatten ↔ ∃ conflictId ∈ selected, ∃ conflict,
      state.conflictsById[conflictId]? = some conflict ∧
        ∃ candidate ∈ conflict.candidates, candidate.claimId = claimId := by
  rw [List.mem_flatten]
  constructor
  · intro listed
    rcases listed with ⟨ids, among, member⟩
    rcases (mem_mapM_ok gathered ids).mp among with ⟨conflictId, chosen, found⟩
    unfold candidateIdsOf at found
    cases present : state.conflictsById[conflictId]? with
    | none =>
        rw [present] at found
        cases found
    | some conflict =>
        rw [present] at found
        injection found with found
        rw [← found, List.mem_map] at member
        exact ⟨conflictId, chosen, conflict, present, member⟩
  · intro related
    rcases related with ⟨conflictId, chosen, conflict, present, member⟩
    refine ⟨conflict.candidates.map Claim.claimId, ?_, List.mem_map.mpr member⟩
    rw [mem_mapM_ok gathered]
    exact ⟨conflictId, chosen, by rw [candidateIdsOf, present]⟩

/-- The resolutions of current conflicts are their effective ones in the lane of every
scope. -/
private theorem mem_globalResolutions
    (run : materialize log registry detectors validAt context = .ok state)
    {conflicts : List ConflictSet} (current : ∀ conflict ∈ conflicts, conflict ∈ state.conflicts)
    (resolution : ResolutionRecord) :
    resolution ∈ Dict.values (Dict.ofItems (fun resolution : ResolutionRecord =>
        resolution.resolutionId) ((conflicts.filterMap (globalResolution state)).map Prod.fst)) ↔
      ∃ conflict ∈ conflicts, state.effectiveResolutionsByConflictRefAndScope[
        Lane.global conflict.conflictRef]? = some resolution := by
  have among : ∀ record : ResolutionRecord,
      record ∈ (conflicts.filterMap (globalResolution state)).map Prod.fst ↔
        ∃ conflict ∈ conflicts, state.effectiveResolutionsByConflictRefAndScope[
          Lane.global conflict.conflictRef]? = some record := by
    intro record
    simp [globalResolution]
  rw [← among]
  refine (Lists.ofItems_of_injective ?_).mem_values resolution
  intro first firstListed second secondListed sameId
  obtain ⟨firstConflict, firstAmong, firstEffective⟩ := (among first).mp firstListed
  obtain ⟨secondConflict, secondAmong, secondEffective⟩ := (among second).mp secondListed
  have found := effective_known run (current _ firstAmong) firstEffective
  rw [sameId, effective_known run (current _ secondAmong) secondEffective,
    Option.some.injEq] at found
  exact found.symm

/-- Every record that the hits lead to is in the context, or missing, or omitted. -/
theorem hydrate_closed (run : materialize log registry detectors validAt context = .ok state)
    (identified : Identified hits)
    (computed : hydrate state hits maxRelatedConflicts maxClaims = .ok hydrated) :
    hydrated.Closed log registry state hits := by
  simp only [hydrate, bind_ok_iff, pure_ok_iff] at computed
  obtain ⟨candidateIds, gathered, same⟩ := computed
  subst same
  have seeds := mem_seedClaimIds identified
  have hints := mem_hintedConflictIds identified
  have claimsKeyed := claimsById_keyed run
  have conflictsKeyed := conflictsById_keyed run
  have conflictIds : ∀ conflictId, conflictId ∈ (currentConflictIds state
      (seedClaimIds (uniqueHits hits)) (hintedConflictIds (uniqueHits hits))).toList ↔
      ∃ conflict ∈ state.conflicts, conflict.conflictId = conflictId ∧
        (IsHinted hits conflictId ∨
          ∃ candidate ∈ conflict.candidates, IsSeed hits candidate.claimId) := by
    intro conflictId
    simp only [PySet.mem_toList, mem_currentConflictIds run, seeds, hints]
  have claimIds : ∀ claimId, claimId ∈ sortedSet ((seedClaimIds (uniqueHits hits)).toList ++
      candidateIds.flatten) ↔ IsSeed hits claimId ∨ claimId ∈ candidateIds.flatten := by
    intro claimId
    rw [mem_sortedSet, List.mem_append, PySet.mem_toList, seeds]
  have seedListed : ∀ claimId, IsSeed hits claimId →
      claimId ∈ (seedClaimIds (uniqueHits hits)).toList := by
    intro claimId seed
    rw [PySet.mem_toList, seeds]
    exact seed
  have hintListed : ∀ conflictId, IsHinted hits conflictId →
      conflictId ∈ (hintedConflictIds (uniqueHits hits)).toList := by
    intro conflictId hinted
    rw [PySet.mem_toList, hints]
    exact hinted
  generalize (currentConflictIds state (seedClaimIds (uniqueHits hits))
    (hintedConflictIds (uniqueHits hits))).toList = orderedConflictIds at gathered conflictIds ⊢
  generalize sortedSet ((seedClaimIds (uniqueHits hits)).toList ++ candidateIds.flatten) =
    orderedClaimIds at claimIds ⊢
  have conflicts := mem_filterMap_get conflictsKeyed
    (orderedConflictIds.take maxRelatedConflicts.toNat)
  have injective := filterMap_get_injective claimsKeyed (orderedClaimIds.take maxClaims.toNat)
  have found : ∀ conflict ∈ state.conflicts,
      state.conflictsById[conflict.conflictId]? = some conflict :=
    fun conflict isCurrent => (conflictsById_get run _ conflict).mpr ⟨isCurrent, rfl⟩
  have current : ∀ conflict ∈ (orderedConflictIds.take maxRelatedConflicts.toNat).filterMap
      (fun conflictId => state.conflictsById[conflictId]?), conflict ∈ state.conflicts :=
    fun conflict listed =>
      ((conflictsById_get run _ conflict).mp ((conflicts conflict).mp listed).2).1
  refine ⟨?_, ?_, ?_, ?_, ?_, ?_, ?_, ?_, mem_globalResolutions run current⟩
  · intro claim listed
    exact ((mem_filterMap_get claimsKeyed _ claim).mp listed).2
  · intro conflict listed
    exact ⟨current conflict listed, ((conflicts conflict).mp listed).2⟩
  · intro claimId
    rw [get_claimStatuses injective, ← mem_inactiveClaimIds run]
    simp
  · intro claimId
    rw [get_claimStatuses injective, ← mem_inactiveClaimIds run]
    simp
  · intro conflict isCurrent related
    have ordered := (conflictIds conflict.conflictId).mpr ⟨conflict, isCurrent, rfl, related⟩
    exact kept_or_left conflictsKeyed _ ordered (found conflict isCurrent)
  · intro conflict listed candidate among
    obtain ⟨known, present, _, equal⟩ := candidate_known run (current conflict listed) among
    have chosen := (conflicts conflict).mp listed
    have ordered := (claimIds candidate.claimId).mpr (Or.inr
      ((mem_candidateIds gathered _).mpr ⟨_, chosen.1, conflict, chosen.2, candidate, among, rfl⟩))
    rcases kept_or_left claimsKeyed maxClaims.toNat ordered present with kept | left
    · exact Or.inl ⟨known, kept, claimsKeyed _ known present, equal⟩
    · exact Or.inr left
  · intro claimId seed
    exact accounted claimsKeyed _ (seedListed claimId seed)
      (fun _ _ => (claimIds claimId).mpr (Or.inl seed))
  · intro conflictId hinted
    refine accounted conflictsKeyed _ (hintListed conflictId hinted) ?_
    intro conflict present
    obtain ⟨isCurrent, sameId⟩ := (conflictsById_get run conflictId conflict).mp present
    exact (conflictIds conflictId).mpr ⟨conflict, isCurrent, sameId, Or.inl hinted⟩

end Closed

end Statefuse
