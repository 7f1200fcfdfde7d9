import Statefuse.Integrations.SearchMerge

/-!
# Local freshness

What `_merge_search_hits` returns, for any external hits and any pending deltas with
distinct projection ids (`mergeSearchHits_fresh`).  The deltas that a refresh writes carry
the record of their own projection; a delta with the record of another projection can
bring that projection in twice.  A score of minus infinity ranks with no score at all.
-/

namespace Statefuse

open Foundation

section Theory

variable [WordSplitting]

/-- The query asks for the record: it has no words, or shares one with the record, or the
repository has a hit for the projection that mentions no claim pending deletion. -/
def IsAskedFor (externalHits : List SearchHit) (pending : List PendingProjectionDelta)
    (request : SearchRequest) (record : RetrievalRecord) : Prop :=
  wordTokens request.query = ∅ ∨ (wordTokens request.query ∩ wordTokens record.text).Nonempty ∨
    ∃ hit ∈ externalHits, hit.projectionId = some record.projectionId ∧
      ∀ claimId ∈ hit.claimIds, ¬PendingDeletion pending claimId

/-- Local freshness: what is pending decides what is returned. -/
structure Fresh (externalHits : List SearchHit) (pending : List PendingProjectionDelta)
    (request : SearchRequest) (result : List SearchHit) : Prop where
  withinLimit : result.length ≤ request.limit
  distinct : result.Pairwise fun first second => ∀ projectionId, projectionId ≠ "" →
    first.projectionId = some projectionId → second.projectionId ≠ some projectionId
  descending : result.Pairwise fun first second => ∀ higher lower,
    first.score = some higher → second.score = some lower → lower ≤ higher
  unscoredLast : result.Pairwise fun first second => first.score = none →
    second.score = none ∨ second.score = some ⊥
  undeleted : ∀ hit ∈ result, ∀ delta ∈ pending, delta.operation = .delete →
    hit.projectionId ≠ some delta.projectionId
  external : ∀ hit ∈ result,
    (∃ delta ∈ pending, ∃ record, delta.record = some record ∧ hit.Carries record) ∨
      (hit ∈ externalHits ∧ ∀ claimId ∈ hit.claimIds, ¬PendingDeletion pending claimId)
  current : ∀ hit ∈ result, ∀ delta ∈ pending, ∀ record, delta.record = some record →
    hit.projectionId = some delta.projectionId →
      hit.Carries record ∧ record.satisfies request = true
  complete : ∀ delta ∈ pending, ∀ record, delta.record = some record →
    record.satisfies request = true → IsAskedFor externalHits pending request record →
      ∃ hit, ShowsPending externalHits request record hit ∧
        (hit ∈ result ∨ (result.length = request.limit ∧
          ∀ kept ∈ result, kept.order ≤ hit.order))

section Merge

variable {externalHits : List SearchHit} {pending : List PendingProjectionDelta}
  {request : SearchRequest}

/-- The entry of a pending upsert that is asked for shows its record. -/
theorem shows_of_isFor (unique : (pending.map (·.projectionId)).Nodup) (own : OwnRecords pending)
    {delta : PendingProjectionDelta} (listed : delta ∈ pending) {record : RetrievalRecord}
    (recorded : delta.record = some record) {key : HitKey} (isFor : key.IsFor delta.projectionId)
    (bound : key ∈ (mergedHits externalHits pending request).keys) :
    ∃ hit ∈ (mergedHits externalHits pending request).values,
      ShowsPending externalHits request record hit := by
  obtain ⟨hit, entered⟩ := OrderedDict.mem_keys.mp bound
  refine ⟨hit, OrderedDict.mem_values.mpr ⟨key, entered⟩, ?_⟩
  rcases (mergedHits_originated key hit entered).cases_on_pending unique own with
    ⟨_, _, own, settled⟩ | ⟨other, held, shown⟩
  · rw [own] at isFor
    have named := hit.key_isFor.unique isFor
    have upsert := (pendingUpserts_get unique delta.projectionId delta).mpr
      ⟨listed, by rw [recorded]; rfl, rfl⟩
    rw [named, upsert] at settled
    cases settled
  · have same := List.inj_on_of_nodup_map unique shown.listed listed (shown.isFor.unique isFor)
    have records := shown.recorded
    rw [same, recorded, Option.some.injEq] at records
    rw [records]
    exact shown.shows

/-- A record that is asked for has an entry. -/
theorem exists_isFor (unique : (pending.map (·.projectionId)).Nodup) (own : OwnRecords pending)
    {delta : PendingProjectionDelta} (listed : delta ∈ pending) {record : RetrievalRecord}
    (recorded : delta.record = some record) (satisfied : record.satisfies request = true)
    (asked : IsAskedFor externalHits pending request record) :
    ∃ key ∈ (mergedHits externalHits pending request).keys, key.IsFor delta.projectionId := by
  have local_ : (wordTokens request.query = ∅ ∨
      (wordTokens request.query ∩ wordTokens record.text).Nonempty) →
      ∃ key ∈ (mergedHits externalHits pending request).keys, key.IsFor delta.projectionId := by
    intro shared
    have shown : ∃ hit, localSearchHit record request = some hit := by
      unfold localSearchHit
      rw [if_pos satisfied]
      refine ⟨_, if_neg ?_⟩
      rintro ⟨words, none⟩
      rcases shared with empty | overlap
      · exact words empty
      · rw [Finset.card_eq_zero] at none
        exact overlap.ne_empty none
    obtain ⟨hit, shown⟩ := shown
    exact ⟨_, mergedHits_pending listed recorded shown, Or.inl rfl⟩
  rcases asked with empty | overlap | ⟨hit, given, named, harmless⟩
  · exact local_ (Or.inl empty)
  · exact local_ (Or.inr overlap)
  · rw [own delta listed record recorded] at named
    have unmasked : isMasked pending hit = false := by
      rw [Bool.eq_false_iff]
      intro masked
      simp only [isMasked, named, Option.any_some, Option.isNone_some, Bool.false_and,
        Bool.or_false, Bool.or_eq_true, decide_eq_true_eq, List.any_eq_true,
        mem_deletedProjectionIds, mem_deletedClaimIds] at masked
      rcases masked with ⟨other, otherListed, deleted, sameId⟩ | ⟨claimId, mentioned, deleted⟩
      · have same := List.inj_on_of_nodup_map unique otherListed listed sameId
        rw [same, PendingProjectionDelta.upsert_of_record recorded] at deleted
        cases deleted
      · exact harmless claimId mentioned deleted
    refine ⟨hit.key, mergedHits_external unique listed recorded satisfied given unmasked named, ?_⟩
    have isFor := hit.key_isFor
    rw [named, Option.getD_some] at isFor
    exact isFor

/-! ## The merged hits that are returned -/

omit [WordSplitting] in
/-- A bound on a sorted list keeps an item, or everything it keeps comes before the item. -/
private theorem kept_or_cut {α β : Type} [LinearOrder β] (order : α → β) {items : List α}
    {item : α} (bound : Nat) (listed : item ∈ items) :
    item ∈ (sortBy order items).take bound ∨
      (((sortBy order items).take bound).length = bound ∧
        ∀ kept ∈ (sortBy order items).take bound, order kept ≤ order item) := by
  have sorted := sortBy_pairwise order items
  replace listed : item ∈ sortBy order items := mem_sortBy.mpr listed
  rw [← List.take_append_drop bound (sortBy order items)] at sorted listed
  rcases List.mem_append.mp listed with inside | outside
  · exact Or.inl inside
  · right
    constructor
    · rw [List.length_take]
      have longer := List.length_pos_of_mem outside
      rw [List.length_drop] at longer
      omega
    · intro kept inside
      exact (List.pairwise_append.mp sorted).2.2 kept inside item outside

/-- No two merged hits have the same projection. -/
theorem mergedHits_distinct (unique : (pending.map (·.projectionId)).Nodup)
    (own : OwnRecords pending) :
    (mergedHits externalHits pending request).values.Pairwise fun first second =>
      ∀ projectionId, projectionId ≠ "" →
        first.projectionId = some projectionId → second.projectionId ≠ some projectionId := by
  have key_of : ∀ key hit, (key, hit) ∈ (mergedHits externalHits pending request).entries →
      ∀ projectionId, projectionId ≠ "" → hit.projectionId = some projectionId →
        key = .projection projectionId := by
    intro key hit entered projectionId nonempty named
    rcases (mergedHits_originated key hit entered).cases_on_pending unique own with
      ⟨_, _, same, _⟩ | ⟨delta, record, shown⟩
    · have isFor := hit.key_isFor
      rw [named, Option.getD_some, ← same] at isFor
      exact isFor.projection nonempty
    · have isFor := shown.isFor
      have carried := shown.carries.projectionId
      rw [own delta shown.listed record shown.recorded, named, Option.some.injEq] at carried
      rw [← carried] at isFor
      exact isFor.projection nonempty
  have distinct := List.pairwise_map.mp (mergedHits externalHits pending request).keysDistinct
  rw [OrderedDict.values, List.pairwise_map]
  refine distinct.imp_of_mem ?_
  rintro ⟨firstKey, first⟩ ⟨secondKey, second⟩ firstEntered secondEntered different
    projectionId nonempty firstNamed secondNamed
  exact different ((key_of _ _ firstEntered _ nonempty firstNamed).trans
    (key_of _ _ secondEntered _ nonempty secondNamed).symm)

end Merge

section Fresh

variable {externalHits : List SearchHit} {pending : List PendingProjectionDelta}
  {request : SearchRequest}

/-- A merged hit whose projection has a pending upsert shows it. -/
theorem Origin.current (unique : (pending.map (·.projectionId)).Nodup) (own : OwnRecords pending)
    {key : HitKey} {hit : SearchHit} (origin : Origin externalHits pending request key hit)
    {delta : PendingProjectionDelta} (listed : delta ∈ pending) {record : RetrievalRecord}
    (recorded : delta.record = some record)
    (named : hit.projectionId = some delta.projectionId) :
    hit.Carries record ∧ record.satisfies request = true := by
  rcases origin.cases_on_pending unique own with ⟨_, _, _, settled⟩ | ⟨other, held, shown⟩
  · have upsert := (pendingUpserts_get unique delta.projectionId delta).mpr
      ⟨listed, by rw [recorded]; rfl, rfl⟩
    rw [named, Option.getD_some, upsert] at settled
    cases settled
  · have carried := shown.carries.projectionId
    rw [own other shown.listed held shown.recorded, named, Option.some.injEq] at carried
    have same := List.inj_on_of_nodup_map unique shown.listed listed carried.symm
    have records := shown.recorded
    rw [same, recorded, Option.some.injEq] at records
    rw [records]
    exact ⟨shown.carries, shown.satisfied⟩

/-- A merged hit has no projection that is pending deletion. -/
theorem Origin.undeleted (unique : (pending.map (·.projectionId)).Nodup) (own : OwnRecords pending)
    {key : HitKey} {hit : SearchHit} (origin : Origin externalHits pending request key hit)
    {delta : PendingProjectionDelta} (listed : delta ∈ pending)
    (deleted : delta.operation = .delete) : hit.projectionId ≠ some delta.projectionId := by
  intro named
  rcases origin.cases_on_pending unique own with ⟨_, unmasked, _, _⟩ | ⟨other, held, shown⟩
  · have gone := (mem_deletedProjectionIds delta.projectionId).mpr ⟨delta, listed, deleted, rfl⟩
    simp [isMasked, named, gone] at unmasked
  · have carried := shown.carries.projectionId
    rw [own other shown.listed held shown.recorded, named, Option.some.injEq] at carried
    have same := List.inj_on_of_nodup_map unique shown.listed listed carried.symm
    have upsert := PendingProjectionDelta.upsert_of_record shown.recorded
    rw [same, deleted] at upsert
    cases upsert

/-- A merged hit shows a pending record, or mentions no claim that is pending deletion. -/
theorem Origin.harmless (unique : (pending.map (·.projectionId)).Nodup) (own : OwnRecords pending)
    {key : HitKey} {hit : SearchHit} (origin : Origin externalHits pending request key hit) :
    (∃ delta ∈ pending, ∃ record, delta.record = some record ∧ hit.Carries record) ∨
      (hit ∈ externalHits ∧ ∀ claimId ∈ hit.claimIds, ¬PendingDeletion pending claimId) := by
  rcases origin.cases_on_pending unique own with ⟨given, unmasked, _, _⟩ | ⟨delta, record, shown⟩
  · refine Or.inr ⟨given, ?_⟩
    intro claimId mentioned deleted
    have gone := (mem_deletedClaimIds claimId).mpr deleted
    have masked : isMasked pending hit = true := by
      simp only [isMasked, Bool.or_eq_true, List.any_eq_true, decide_eq_true_eq]
      exact Or.inl (Or.inr ⟨claimId, mentioned, gone⟩)
    rw [unmasked] at masked
    cases masked
  · exact Or.inl ⟨delta, shown.listed, record, shown.recorded, shown.carries⟩

/-- Merging search hits is locally fresh, for every list of pending deltas with distinct
projection ids whose upserts carry records of their own projection id. -/
theorem mergeSearchHits_fresh (externalHits : List SearchHit)
    (pending : List PendingProjectionDelta) (request : SearchRequest)
    (unique : (pending.map (·.projectionId)).Nodup) (own : OwnRecords pending) :
    Fresh externalHits pending request (mergeSearchHits externalHits pending request) := by
  have result : mergeSearchHits externalHits pending request =
      (sortBy SearchHit.order (mergedHits externalHits pending request).values).take
        request.limit.toNat := rfl
  have limit : (request.limit.toNat : Int) = request.limit :=
    Int.toNat_of_nonneg (le_trans (by decide) request.limitPositive)
  have origin : ∀ hit ∈ mergeSearchHits externalHits pending request,
      ∃ key, Origin externalHits pending request key hit := by
    intro hit returned
    rw [result] at returned
    obtain ⟨key, entered⟩ :=
      OrderedDict.mem_values.mp (mem_sortBy.mp (List.mem_of_mem_take returned))
    exact ⟨key, mergedHits_originated key hit entered⟩
  have ranked : (mergeSearchHits externalHits pending request).Pairwise
      fun first second => second.rank ≤ first.rank := by
    rw [result]
    refine ((sortBy_pairwise SearchHit.order _).sublist (List.take_sublist _ _)).imp ?_
    intro first second ordered
    rcases (Prod.Lex.le_iff.mp ordered) with below | ⟨same, _⟩
    · exact le_of_lt (OrderDual.toDual_lt_toDual.mp below)
    · exact le_of_eq (OrderDual.toDual.injective same).symm
  refine ⟨?_, ?_, ?_, ?_, ?_, ?_, ?_, ?_⟩
  · rw [result, ← limit]
    exact_mod_cast List.length_take_le _ _
  · rw [result]
    refine List.Pairwise.sublist (List.take_sublist _ _) ?_
    refine (sortBy_perm SearchHit.order _).symm.pairwise (mergedHits_distinct unique own) ?_
    intro first second different projectionId nonempty secondNamed firstNamed
    exact different projectionId nonempty firstNamed secondNamed
  · refine ranked.imp ?_
    intro first second ordered higher lower firstScored secondScored
    simpa [SearchHit.rank, firstScored, secondScored] using ordered
  · refine ranked.imp ?_
    intro first second ordered unscored
    rw [SearchHit.rank, SearchHit.rank, unscored, Option.getD_none, le_bot_iff] at ordered
    cases scored : second.score with
    | none => exact Or.inl rfl
    | some score =>
        rw [scored, Option.getD_some] at ordered
        rw [ordered]
        exact Or.inr rfl
  · intro hit returned delta listed deleted
    obtain ⟨key, hasOrigin⟩ := origin hit returned
    exact hasOrigin.undeleted unique own listed deleted
  · intro hit returned
    obtain ⟨key, hasOrigin⟩ := origin hit returned
    exact hasOrigin.harmless unique own
  · intro hit returned delta listed record recorded named
    obtain ⟨key, hasOrigin⟩ := origin hit returned
    exact hasOrigin.current unique own listed recorded named
  · intro delta listed record recorded satisfied asked
    obtain ⟨key, bound, isFor⟩ := exists_isFor unique own listed recorded satisfied asked
    obtain ⟨hit, merged, shows⟩ := shows_of_isFor unique own listed recorded isFor bound
    refine ⟨hit, shows, ?_⟩
    rcases kept_or_cut SearchHit.order request.limit.toNat merged with kept | cut
    · rw [result]
      exact Or.inl kept
    · rw [result]
      refine Or.inr ⟨?_, cut.2⟩
      rw [cut.1, limit]

end Fresh

end Theory

section Example

/-- Words of letters and digits. -/
@[reducible] def plainWords : WordSplitting := ⟨id, Char.isAlphanum⟩

attribute [local instance] plainWords

private def recordOf (projectionId : String) : RetrievalRecord :=
  ⟨projectionId, "x", "n", [], [], ∅⟩

private theorem upsert_recorded (record : RetrievalRecord) :
    (some record).isSome = true ↔ ProjectionOperation.upsert = .upsert := by simp

private def upsertOf (projectionId recordId : String) : PendingProjectionDelta :=
  ⟨projectionId, .upsert, some (recordOf recordId), upsert_recorded (recordOf recordId)⟩

private theorem ten_positive : (1 : Int) ≤ 10 := by decide

private def wordRequest : SearchRequest := ⟨"x", "n", 10, ∅, ten_positive⟩

private def hitOf (externalId : String) (projectionId : Option String)
    (score : Option SearchScore) : SearchHit := ⟨externalId, projectionId, "y", score, [], [], ∅⟩

/-- A pending upsert with the record of another projection returns that projection twice,
and a hit without a score comes before one with the least score. -/
theorem merge_repeats_projection :
    ([upsertOf "p" "q"].map (·.projectionId)).Nodup ∧
    ¬(mergeSearchHits [hitOf "e" (some "q") none] [upsertOf "p" "q"] wordRequest).Pairwise
      (fun first second => ∀ projectionId, projectionId ≠ "" →
        first.projectionId = some projectionId → second.projectionId ≠ some projectionId) ∧
    ¬(mergeSearchHits [hitOf "e" (some "q") (some ⊥), hitOf "f" none none] [] wordRequest).Pairwise
      (fun first second => first.score = none → second.score = none) := by
  have repeated : (mergeSearchHits [hitOf "e" (some "q") none] [upsertOf "p" "q"]
      wordRequest).map (·.projectionId) = [some "q", some "q"] := by
    decide +kernel
  have early : (mergeSearchHits [hitOf "e" (some "q") (some ⊥), hitOf "f" none none] []
      wordRequest).map (·.score) = [none, some ⊥] := by
    decide +kernel
  refine ⟨by decide, ?_, ?_⟩
  · intro distinct
    have ids : ((mergeSearchHits [hitOf "e" (some "q") none] [upsertOf "p" "q"]
        wordRequest).map (·.projectionId)).Pairwise (fun first second =>
          ∀ projectionId, projectionId ≠ "" → first = some projectionId →
            second ≠ some projectionId) := List.pairwise_map.mpr distinct
    rw [repeated] at ids
    exact (List.pairwise_pair.mp ids) "q" (by decide) rfl rfl
  · intro last
    have scores : ((mergeSearchHits [hitOf "e" (some "q") (some ⊥), hitOf "f" none none] []
        wordRequest).map (·.score)).Pairwise (fun first second => first = none → second = none) :=
      List.pairwise_map.mpr last
    rw [early] at scores
    cases (List.pairwise_pair.mp scores) rfl

private theorem deletion_unrecorded :
    (none : Option RetrievalRecord).isSome = true ↔ ProjectionOperation.delete = .upsert := by simp

private def deletionOf (projectionId : String) : PendingProjectionDelta :=
  ⟨projectionId, .delete, none, deletion_unrecorded⟩

/-- An upsert whose record the request does not ask for. -/
private def foreignUpsert : PendingProjectionDelta :=
  ⟨"m", .upsert, some { recordOf "m" with nameSpace := "other" }, upsert_recorded _⟩

private def staleHits : List SearchHit :=
  [hitOf "e" (some "q") none, hitOf "f" (some "d") (some ⊥), hitOf "g" (some "m") none,
    hitOf "h" none none]

private def mixedDeltas : List PendingProjectionDelta :=
  [upsertOf "q" "q", deletionOf "d", foreignUpsert]

/-- Of four hits one shows the pending record, two are withdrawn, and one stays as it is. -/
theorem mergeSearchHits_fresh_own :
    Fresh staleHits mixedDeltas wordRequest
        (mergeSearchHits staleHits mixedDeltas wordRequest) ∧
      (mergeSearchHits staleHits mixedDeltas wordRequest).map
          (fun hit => (hit.projectionId, hit.text)) = [(none, "y"), (some "q", "x")] := by
  refine ⟨mergeSearchHits_fresh staleHits mixedDeltas wordRequest (by decide) ?_, ?_⟩
  · intro delta listed record recorded
    have each : delta = upsertOf "q" "q" ∨ delta = deletionOf "d" ∨ delta = foreignUpsert := by
      simpa [mixedDeltas] using listed
    rcases each with isDelta | isDelta | isDelta
    · rw [isDelta] at recorded ⊢
      injection recorded with recorded
      rw [← recorded]
      rfl
    · rw [isDelta] at recorded
      cases recorded
    · rw [isDelta] at recorded ⊢
      injection recorded with recorded
      rw [← recorded]
      rfl
  · decide +kernel

end Example

end Statefuse
