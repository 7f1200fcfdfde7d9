import Statefuse.Integrations.Convergence
import Statefuse.Integrations.HydrationOrder

/-!
# Searches are current

What a search returns shows the records of the current state, however many
synchronizations have failed before (`search_shows_current`).  A delta is pending exactly
where the repository may be behind, and what is pending decides what is merged; so a hit
that the repository reads off a record either has been superseded or is of a current one.
-/

namespace Statefuse

open Foundation

section Theory

variable [Runtime]

/-- The hit shows the record; its score, its metadata and its external id are the
repository's. -/
structure SearchHit.Displays (hit : SearchHit) (record : RetrievalRecord) : Prop where
  projectionId : hit.projectionId = some record.projectionId
  text : hit.text = record.text
  claimIds : hit.claimIds = record.claimIds
  conflictIds : hit.conflictIds = record.conflictIds

/-- The hits show records that the repository holds, current or not. -/
def Mirror.ReadBy (mirror : Mirror) (hits : List SearchHit) : Prop :=
  ∀ hit ∈ hits, ∃ record : RetrievalRecord,
    mirror.remote[record.projectionId]? = some record ∧ hit.Displays record

omit [Runtime] in
theorem SearchHit.Carries.displays {hit : SearchHit} {record : RetrievalRecord}
    (carries : hit.Carries record) : hit.Displays record :=
  ⟨carries.projectionId, carries.text, carries.claimIds, carries.conflictIds⟩

omit [Runtime] in
theorem ShowsPending.displays [WordSplitting] {hits : List SearchHit} {request : SearchRequest}
    {record : RetrievalRecord} {hit : SearchHit}
    (shows : ShowsPending hits request record hit) : hit.Displays record := by
  rcases shows with isLocal | ⟨given, _, _, same⟩
  · exact (localSearchHit_carries isLocal).1.displays
  · rw [same]
    exact (given.refreshed_carries record).displays

/-- A projected record is one of the namespace, and its id is not empty. -/
theorem projected_placed {state : MemoryState} {nameSpace projectionId : String}
    {record : RetrievalRecord} (found : (projected state nameSpace)[projectionId]? = some record) :
    record.nameSpace = nameSpace ∧ record.projectionId ≠ "" := by
  have prefixed (start rest : String) (nonempty : start ≠ "") : start ++ rest ≠ "" := by
    intro none
    exact nonempty (String.append_eq_empty_iff.mp none).1
  have listed := (Mirror.ofItems_listed found).1
  rw [projectState, mem_sortBy, List.mem_append, List.mem_append] at listed
  rcases listed with (isClaim | isConflict) | isResolution
  · obtain ⟨claim, isInside, same⟩ := List.mem_map.mp isClaim
    rw [← same]
    exact ⟨of_decide_eq_true (List.mem_filter.mp (mem_sortBy.mp isInside)).2,
      prefixed _ _ (by decide)⟩
  · obtain ⟨conflict, _, same⟩ := List.mem_map.mp isConflict
    rw [← same]
    exact ⟨rfl, prefixed _ _ (by decide)⟩
  · obtain ⟨resolution, _, same⟩ := List.mem_filterMap.mp isResolution
    unfold resolutionRecord at same
    simp only at same
    split at same
    · injection same with same
      rw [← same]
      exact ⟨rfl, prefixed _ _ (by decide)⟩
    · cases same

namespace Mirror

variable {mirror : Mirror} {nameSpace : String} {state : MemoryState}
  {delta : MaterializationDelta} {wanted : Dict String RetrievalRecord}

/-- What is pending after a refresh from the whole state is what should be projected. -/
theorem refresh_pending (rebuilds : delta.fullRebuild = true) {projectionId : String}
    {pending : PendingProjectionDelta}
    (found : (mirror.refresh nameSpace state delta).deltas[projectionId]? = some pending) :
    pending.record = (projected state nameSpace)[projectionId]? := by
  have entered := rebuild_entry mirror (projected_filed state nameSpace) projectionId
  rw [← refresh_of_full rebuilds] at entered
  have isPending := congrArg (fun entry => entry.2.1) entered
  simp only [entry, found] at isPending
  cases isWanted : (projected state nameSpace)[projectionId]? with
  | none =>
      rw [isWanted] at isPending
      simp only at isPending
      split at isPending
      · injection isPending with isPending
        rw [isPending]
        rfl
      · cases isPending
  | some record =>
      rw [isWanted] at isPending
      simp only at isPending
      split at isPending
      · cases isPending
      · injection isPending with isPending
        rw [isPending]
        rfl

/-- What is pending is what should be projected. -/
def Awaits (mirror : Mirror) (wanted : Dict String RetrievalRecord) : Prop :=
  ∀ (projectionId : String) (pending : PendingProjectionDelta),
    mirror.deltas[projectionId]? = some pending → pending.record = wanted[projectionId]?

theorem Faithful.found (faithful : mirror.Faithful wanted) {pending : PendingProjectionDelta}
    (listed : pending ∈ Dict.values mirror.deltas) :
    mirror.deltas[pending.projectionId]? = some pending := by
  obtain ⟨projectionId, found⟩ := (Dict.mem_values mirror.deltas pending).mp listed
  rw [faithful.deltas projectionId pending found]
  exact found

theorem Faithful.unique (faithful : mirror.Faithful wanted) :
    ((Dict.values mirror.deltas).map PendingProjectionDelta.projectionId).Nodup := by
  rw [values_ids mirror.deltas _ faithful.deltas]
  exact mirror.deltas.keys_nodup

theorem Faithful.own (faithful : mirror.Faithful wanted) (awaits : mirror.Awaits wanted)
    (filed : Filed wanted) : OwnRecords (Dict.values mirror.deltas) := by
  intro pending listed record recorded
  have isWanted := awaits _ _ (faithful.found listed)
  rw [recorded] at isWanted
  exact filed _ _ isWanted.symm

variable [WordSplitting] {hits : List SearchHit} {request : SearchRequest}

/-- A merged hit shows a record that should be projected. -/
theorem Faithful.merged_current (faithful : mirror.Faithful wanted)
    (collisionFree : CollisionFree) (awaits : mirror.Awaits wanted) (filed : Filed wanted)
    (read : mirror.ReadBy hits) {key : HitKey} {hit : SearchHit}
    (origin : Origin hits (Dict.values mirror.deltas) request key hit) :
    ∃ record : RetrievalRecord, wanted[record.projectionId]? = some record ∧
      hit.Displays record := by
  have own := faithful.own awaits filed
  rcases origin.cases_on_pending faithful.unique own with
    ⟨given, unmasked, _, settled⟩ | ⟨pending, record, shown⟩
  · obtain ⟨record, held, displays⟩ := read hit given
    refine ⟨record, faithful.current_of_idle collisionFree ?_ held, displays⟩
    -- a delta would have masked the hit or replaced it
    refine Option.eq_none_iff_forall_ne_some.mpr fun pending found => ?_
    have listed := (Dict.mem_values mirror.deltas pending).mpr ⟨_, found⟩
    have named := faithful.deltas _ pending found
    cases operation : pending.operation with
    | delete =>
        have gone := (mem_deletedProjectionIds record.projectionId).mpr
          ⟨pending, listed, operation, named⟩
        simp [isMasked, displays.projectionId, gone] at unmasked
    | upsert =>
        have upsert := (pendingUpserts_get faithful.unique record.projectionId pending).mpr
          ⟨listed, pending.recorded.mpr operation, named⟩
        rw [displays.projectionId, Option.getD_some, upsert] at settled
        cases settled
  · refine ⟨record, ?_, shown.carries.displays⟩
    have isWanted := awaits _ _ (faithful.found shown.listed)
    rw [shown.recorded] at isWanted
    rw [own pending shown.listed record shown.recorded]
    exact isWanted.symm

/-- A record that should be projected and matches the request is held or merged. -/
theorem Faithful.merged_complete (faithful : mirror.Faithful wanted)
    (collisionFree : CollisionFree) (holds : mirror.HoldsAll wanted)
    (awaits : mirror.Awaits wanted) (filed : Filed wanted) {record : RetrievalRecord}
    {hit : SearchHit} (isWanted : wanted[record.projectionId]? = some record)
    (matching : localSearchHit record request = some hit) :
    mirror.remote[record.projectionId]? = some record ∨
      ∃ shown ∈ (mergedHits hits (Dict.values mirror.deltas) request).values,
        shown.Displays record := by
  cases found : mirror.deltas[record.projectionId]? with
  | none => exact Or.inl (faithful.complete_of_idle collisionFree holds found isWanted)
  | some pending =>
      have recorded := awaits _ _ found
      rw [isWanted] at recorded
      have listed := (Dict.mem_values mirror.deltas pending).mpr ⟨_, found⟩
      have bound : HitKey.projection pending.projectionId ∈
          (mergedHits hits (Dict.values mirror.deltas) request).keys :=
        mergedHits_pending listed recorded matching
      obtain ⟨shown, merged, shows⟩ := shows_of_isFor faithful.unique
        (faithful.own awaits filed) listed recorded (Or.inl rfl) bound
      exact Or.inr ⟨shown, merged, shows.displays⟩

end Mirror

section Returned

variable [WordSplitting] {hits : List SearchHit} {pending : List PendingProjectionDelta}
  {request : SearchRequest} {hit : SearchHit}

omit [Runtime] in
theorem mem_mergeSearchHits (returned : hit ∈ mergeSearchHits hits pending request) :
    ∃ key, Origin hits pending request key hit := by
  obtain ⟨key, entered⟩ :=
    OrderedDict.mem_values.mp (mem_sortBy.mp (List.mem_of_mem_take returned))
  exact ⟨key, mergedHits_originated key hit entered⟩

omit [Runtime] in
/-- What is merged is returned, unless as many hits as asked for are. -/
theorem mergeSearchHits_complete (merged : hit ∈ (mergedHits hits pending request).values) :
    hit ∈ mergeSearchHits hits pending request ∨
      (mergeSearchHits hits pending request).length = request.limit := by
  have result : mergeSearchHits hits pending request =
      (sortBy SearchHit.order (mergedHits hits pending request).values).take
        request.limit.toNat := rfl
  have limit : (request.limit.toNat : Int) = request.limit :=
    Int.toNat_of_nonneg (le_trans (by decide) request.limitPositive)
  rw [result]
  by_cases few : (sortBy SearchHit.order (mergedHits hits pending request).values).length ≤
      request.limit.toNat
  · rw [List.take_of_length_le few]
    exact Or.inl (mem_sortBy.mpr merged)
  · right
    rw [List.length_take, min_eq_left (le_of_not_ge few), limit]

omit [Runtime] in
/-- Named hits are returned once for every projection. -/
theorem mergeSearchHits_distinct (unique : (pending.map (·.projectionId)).Nodup)
    (own : OwnRecords pending) (named : ∀ hit ∈ mergeSearchHits hits pending request,
      ∃ projectionId, projectionId ≠ "" ∧ hit.projectionId = some projectionId) :
    ((mergeSearchHits hits pending request).map SearchHit.projectionId).Nodup := by
  have apart : (mergeSearchHits hits pending request).Pairwise fun first second =>
      ∀ projectionId, projectionId ≠ "" →
        first.projectionId = some projectionId → second.projectionId ≠ some projectionId := by
    refine List.Pairwise.sublist (List.take_sublist _ _) ?_
    refine (sortBy_perm SearchHit.order _).symm.pairwise (mergedHits_distinct unique own) ?_
    intro first second different projectionId nonempty secondNamed firstNamed
    exact different projectionId nonempty firstNamed secondNamed
  refine List.pairwise_map.mpr (apart.imp_of_mem ?_)
  intro first second firstListed _ different same
  obtain ⟨projectionId, nonempty, isNamed⟩ := named first firstListed
  exact different projectionId nonempty isNamed (same ▸ isNamed)

omit [Runtime] [WordSplitting] in
theorem uniqueHits_perm (distinct : (hits.map SearchHit.projectionId).Nodup) :
    (uniqueHits hits).Perm hits := by
  have identified : Identified hits := fun _ firstListed _ secondListed _ same =>
    List.inj_on_of_nodup_map distinct firstListed secondListed same
  refine (List.perm_ext_iff_of_nodup ?_ (List.Nodup.of_map _ distinct)).mpr
    (mem_uniqueHits identified)
  exact sortBy_nodup (OrderedDict.values_ofItems_nodup identified.keyed)

end Returned

/-! ## Searches -/

namespace Installation

variable [WordSplitting] {codec : CheckpointCodec} {repository nameSpace : String}
  {installation : Installation} {cursor : Nat} {context : HydratedContext}
  {raised : Option AdapterFailure} {next : Installation}

/-- What a service that has just been started finds. -/
theorem search_of_started {request : SearchRequest}
    {reply : Except AdapterFailure (List SearchHit)}
    (returned : installation.search codec none request reply =
      (.ok (cursor, context, raised), next)) :
    ∃ state delta, (installation.memory.materialize codec .default).1 = .ok state ∧
      delta.fullRebuild = true ∧
      context.searchHits = uniqueHits (mergeSearchHits (reply.toOption.getD [])
        (Dict.values (installation.mirror.refresh request.nameSpace state delta).deltas)
        request) := by
  unfold search at returned
  split at returned
  · injection returned with failed
    cases failed
  · rename_i refreshed
    obtain ⟨state, delta, isState, rebuilds, same⟩ := refresh_of_started refreshed
    injection returned with result _
    rw [map_ok_iff] at result
    obtain ⟨found, hydrated, isFound⟩ := result
    injection isFound with _ isFound
    injection isFound with isContext _
    rw [same] at hydrated
    unfold hydrateSearchHits at hydrated
    rw [show checkBounds 32 128 = .ok () from rfl] at hydrated
    obtain ⟨_, _, computed⟩ := bind_ok_iff.mp hydrated
    refine ⟨state, delta, isState, rebuilds, ?_⟩
    rw [← isContext]
    exact hydrate_searchHits computed

/-- A search of an installation whose mirror is faithful shows the current state. -/
theorem Mirrors.search_displays {atomic : Prop} (mirrors : installation.Mirrors atomic)
    (collisionFree : CollisionFree)
    (request : {request : SearchRequest // request.nameSpace = nameSpace})
    (reply : Except AdapterFailure (List SearchHit))
    (returned : installation.search codec none request.val reply =
      (.ok (cursor, context, raised), next))
    (read : installation.mirror.ReadBy (reply.toOption.getD [])) :
    ∃ state, (installation.memory.materialize codec .default).1 = .ok state ∧
      (∀ hit ∈ context.searchHits, ∃ record : RetrievalRecord,
        (projected state nameSpace)[record.projectionId]? = some record ∧ hit.Displays record) ∧
      (atomic → ∀ (record : RetrievalRecord) (hit : SearchHit),
        (projected state nameSpace)[record.projectionId]? = some record →
        localSearchHit record request.val = some hit →
          installation.mirror.remote[record.projectionId]? = some record ∨
            (∃ shown ∈ context.searchHits, shown.Displays record) ∨
            context.searchHits.length = request.val.limit) := by
  rcases mirrors with ⟨wanted, faithful, holds⟩
  obtain ⟨state, delta, isState, rebuilds, found⟩ := search_of_started returned
  rw [request.property] at found
  generalize installation.mirror = mirror at faithful holds read found ⊢
  have faithfulNow : (mirror.refresh nameSpace state delta).Faithful (projected state nameSpace) :=
    Mirror.refresh_faithful faithful rebuilds
  have awaits : (mirror.refresh nameSpace state delta).Awaits (projected state nameSpace) :=
    fun _ _ isPending => Mirror.refresh_pending rebuilds isPending
  have filed := Mirror.projected_filed state nameSpace
  have readNow : (mirror.refresh nameSpace state delta).ReadBy (reply.toOption.getD []) := by
    intro hit given
    rw [(Mirror.refresh_stores _ _ _ _).2]
    exact read hit given
  have current (hit : SearchHit) (isReturned : hit ∈ mergeSearchHits (reply.toOption.getD [])
      (Dict.values (mirror.refresh nameSpace state delta).deltas) request.val) :
      ∃ record : RetrievalRecord,
        (projected state nameSpace)[record.projectionId]? = some record ∧ hit.Displays record := by
    obtain ⟨key, origin⟩ := mem_mergeSearchHits isReturned
    exact faithfulNow.merged_current collisionFree awaits filed readNow origin
  have distinct := mergeSearchHits_distinct faithfulNow.unique (faithfulNow.own awaits filed)
    fun hit isReturned => by
      obtain ⟨record, isCurrent, displays⟩ := current hit isReturned
      exact ⟨_, (projected_placed isCurrent).2, displays.projectionId⟩
  have permuted := uniqueHits_perm distinct
  rw [found]
  refine ⟨state, isState, fun hit listed => current hit (permuted.mem_iff.mp listed), ?_⟩
  intro atomic record hit isCurrent matching
  have holdsNow : (mirror.refresh nameSpace state delta).HoldsAll (projected state nameSpace) :=
    (holds atomic).refresh _ _ _ _
  rcases faithfulNow.merged_complete collisionFree holdsNow awaits filed isCurrent matching with
    held | ⟨shown, merged, displays⟩
  · rw [(Mirror.refresh_stores _ _ _ _).2] at held
    exact Or.inl held
  · rcases mergeSearchHits_complete merged with isReturned | full
    · exact Or.inr (Or.inl ⟨shown, permuted.mem_iff.mpr isReturned, displays⟩)
    · refine Or.inr (Or.inr ?_)
      rw [permuted.length_eq]
      exact full

/-- In every run from empty stores, whatever has been raised and whether it has taken
effect: when the repository answers a search with records that it holds, or raises, every
hit that is returned shows a record of the current state.  Where deletions that raise are
not carried out, a current record that matches the request is held by the repository or
returned, unless as many hits as asked for are. -/
theorem search_shows_current (collisionFree : CollisionFree) (memory : Memory)
    (calls : List (ServiceCall nameSpace))
    (request : {request : SearchRequest // request.nameSpace = nameSpace})
    (reply : Except AdapterFailure (List SearchHit))
    (returned : (run codec repository nameSpace ⟨memory, .empty⟩ calls).search codec none
      request.val reply = (.ok (cursor, context, raised), next))
    (read : (run codec repository nameSpace ⟨memory, .empty⟩ calls).mirror.ReadBy
      (reply.toOption.getD [])) :
    ∃ state, ((run codec repository nameSpace ⟨memory, .empty⟩ calls).memory.materialize codec
        .default).1 = .ok state ∧
      (∀ hit ∈ context.searchHits, ∃ record : RetrievalRecord,
        (projected state nameSpace)[record.projectionId]? = some record ∧ hit.Displays record) ∧
      ((∀ call ∈ calls, call.DeletesAtomically) → ∀ (record : RetrievalRecord) (hit : SearchHit),
        (projected state nameSpace)[record.projectionId]? = some record →
        localSearchHit record request.val = some hit →
          (run codec repository nameSpace ⟨memory, .empty⟩ calls).mirror.remote[
              record.projectionId]? = some record ∨
            (∃ shown ∈ context.searchHits, shown.Displays record) ∨
            context.searchHits.length = request.val.limit) :=
  (run_empty_mirrors codec repository memory calls).search_displays collisionFree request reply
    returned read

end Installation

end Theory

section Example

attribute [local instance] Reference.runtime plainWords

namespace Installation

/-- Every write is stored, and raises. -/
private def storing : Replies where
  upsert _ := .raised ⟨"E", ""⟩ true
  delete _ := .answered true

private def unconfirmed : Installation :=
  run Memory.blankCodec "r" Reference.key.nameSpace ⟨Memory.withOne, .empty⟩
    [.synchronize "t" storing]

/-- How the repository shows a record that it holds. -/
private def hitOf (record : RetrievalRecord) : SearchHit :=
  ⟨"x", some record.projectionId, record.text, none, record.claimIds, record.conflictIds, ∅⟩

private def anything : SearchRequest := ⟨"", Reference.key.nameSpace, 5, ∅, by decide⟩

private def searched : Result (Nat × HydratedContext × Option AdapterFailure) × Installation :=
  unconfirmed.search Memory.blankCodec none anything
    (.ok ((Dict.values unconfirmed.mirror.remote).map hitOf))

private def sizes : Option (Nat × Nat) :=
  searched.1.toOption.map fun returned =>
    (returned.2.1.searchHits.length, searched.2.mirror.deltas.size)

/-- The claim whose write has raised is pending, and it is shown once. -/
theorem search_shows_current_raised :
    ∃ context state hit record, searched.1.toOption.map (·.2.1) = some context ∧
      searched.2.mirror.deltas.size = 1 ∧ context.searchHits = [hit] ∧
      (projected state Reference.key.nameSpace)[(record : RetrievalRecord).projectionId]? =
        some record ∧ hit.Displays record := by
  have computed : sizes = some (1, 1) := by decide +kernel
  unfold sizes at computed
  cases returned : searched.1 with
  | error failure =>
      rw [returned] at computed
      cases computed
  | ok result =>
      rw [returned] at computed
      injection computed with computed
      simp only [Prod.mk.injEq] at computed
      obtain ⟨hit, only⟩ := List.length_eq_one_iff.mp computed.1
      have read : unconfirmed.mirror.ReadBy
          ((Dict.values unconfirmed.mirror.remote).map hitOf) := by
        intro hit given
        obtain ⟨record, listed, same⟩ := List.mem_map.mp given
        obtain ⟨projectionId, held⟩ := (Dict.mem_values _ _).mp listed
        obtain ⟨wanted, faithful, _⟩ := run_empty_mirrors Memory.blankCodec "r" Memory.withOne
          [.synchronize "t" storing]
        refine ⟨record, ?_, same ▸ ⟨rfl, rfl, rfl, rfl⟩⟩
        rw [(faithful.within projectionId).remote record held]
        exact held
      obtain ⟨state, _, shown, _⟩ := search_shows_current Reference.collisionFree Memory.withOne
        [.synchronize "t" storing] ⟨anything, rfl⟩ _ (Prod.ext returned rfl) read
      obtain ⟨record, isCurrent, displays⟩ := shown hit (only ▸ List.mem_singleton.mpr rfl)
      exact ⟨result.2.1, state, hit, record, rfl, computed.2, only, isCurrent, displays⟩

end Installation

end Example

end Statefuse
