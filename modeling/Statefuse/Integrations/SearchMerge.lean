import Statefuse.Foundation.OrderedDict
import Statefuse.Integrations.Models

/-!
# Merging search hits

The hits of an external repository are merged with the deltas that it has not been told
about.  A first pass goes through the external hits: it drops those that a pending
deletion concerns and gives those of a pending upsert the contents of the pending record.
A second pass adds a local hit for every pending upsert that the query shares a word with
and that has no entry yet.  Whatever is merged has one of three origins (`Origin`).

What the host language does with the letters of a text is left open: nothing below
depends on which characters make a word.
-/

namespace Statefuse

open Foundation

/-- How the host language splits text into words: `str.casefold`, and which characters
`\w` matches. -/
class WordSplitting where
  casefold : String → String
  isWordCharacter : Char → Bool

variable [WordSplitting]

/-- `set(re.findall(r"\w+", text.casefold()))`: the longest runs of word characters. -/
def wordTokens (text : String) : Finset (List Char) :=
  (((WordSplitting.casefold text).toList.splitOnP fun character =>
    !WordSplitting.isWordCharacter character).filter (· ≠ [])).toFinset

/-- The record is in the namespace of the request and has the values it filters by; a
missing member has the value null. -/
def RetrievalRecord.satisfies (record : RetrievalRecord) (request : SearchRequest) : Bool :=
  record.nameSpace = request.nameSpace ∧
    request.filters.toList.all fun entry => pyEq (getOrNull record.metadata entry.1) entry.2

def freshMetadata (record : RetrievalRecord) : JSONObject :=
  record.metadata.insert "freshness_source" (.str "local_pending")

/-- `_local_search_hit`.  The score is the quotient of two small numbers as a float. -/
def localSearchHit (record : RetrievalRecord) (request : SearchRequest) : Option SearchHit :=
  if record.satisfies request then
    let queryTokens := wordTokens request.query
    let overlap := (queryTokens ∩ wordTokens record.text).card
    if queryTokens ≠ ∅ ∧ overlap = 0 then none
    else some {
      externalId := "local:" ++ record.projectionId
      projectionId := some record.projectionId
      text := record.text
      score := some (((if queryTokens ≠ ∅ then binary64 (overlap / queryTokens.card) else 1 : ℚ) :
        WithTop ℚ) : WithBot (WithTop ℚ))
      claimIds := record.claimIds
      conflictIds := record.conflictIds
      metadata := freshMetadata record }
  else none

def deletedProjectionIds (pending : List PendingProjectionDelta) : List String :=
  (pending.filter fun delta => delta.operation = .delete).map (·.projectionId)

def pendingUpserts (pending : List PendingProjectionDelta) : Dict String PendingProjectionDelta :=
  Dict.ofItems (·.projectionId)
    (pending.filter fun delta => delta.operation = .upsert ∧ delta.record.isSome)

def pendingClaimIds (pending : List PendingProjectionDelta) : List String :=
  (pending.filterMap (·.record)).flatMap RetrievalRecord.claimIds

/-- What follows `statefuse:claim:` in a projection id that starts so. -/
def claimIdOfProjection (projectionId : String) : Option String :=
  (projectionId.toList.dropPrefix? "statefuse:claim:".toList).map String.ofList

def deletedClaimIds (pending : List PendingProjectionDelta) : List String :=
  (deletedProjectionIds pending).filterMap claimIdOfProjection

/-- Hits are merged under their projection id, or under their external id when they have
none. -/
inductive HitKey where
  | projection (projectionId : String)
  | external (externalId : String)
  deriving DecidableEq

def SearchHit.key (hit : SearchHit) : HitKey :=
  match truthy hit.projectionId with
  | some projectionId => .projection projectionId
  | none => .external hit.externalId

/-- An external hit is dropped when its projection is pending deletion, when it mentions a
claim whose projection is, or when it has no projection and mentions a pending claim. -/
def isMasked (pending : List PendingProjectionDelta) (hit : SearchHit) : Bool :=
  (hit.projectionId.any fun projectionId => projectionId ∈ deletedProjectionIds pending) ||
    (hit.claimIds.any fun claimId => claimId ∈ deletedClaimIds pending) ||
    (hit.projectionId.isNone && hit.claimIds.any fun claimId => claimId ∈ pendingClaimIds pending)

/-- An external hit with the contents of a pending record. -/
def SearchHit.refreshed (hit : SearchHit) (record : RetrievalRecord) : SearchHit where
  externalId := hit.externalId
  projectionId := some record.projectionId
  text := record.text
  score := hit.score
  claimIds := record.claimIds
  conflictIds := record.conflictIds
  metadata := freshMetadata record

/-- One external hit of the first pass. -/
def mergeExternal (pending : List PendingProjectionDelta) (request : SearchRequest)
    (merged : OrderedDict HitKey SearchHit) (hit : SearchHit) : OrderedDict HitKey SearchHit :=
  if isMasked pending hit then merged
  else match (pendingUpserts pending)[hit.projectionId.getD ""]? with
    | none => merged.assign hit.key hit
    | some current => match current.record with
      | none => merged
      | some record =>
          if record.satisfies request then merged.assign hit.key (hit.refreshed record)
          else merged

/-- One pending delta of the second pass. -/
def mergePending (request : SearchRequest) (merged : OrderedDict HitKey SearchHit)
    (delta : PendingProjectionDelta) : OrderedDict HitKey SearchHit :=
  match delta.operation, delta.record with
  | .upsert, some record => match localSearchHit record request with
      | none => merged
      | some hit => merged.setDefault (.projection delta.projectionId) hit
  | _, _ => merged

/-- A hit without a score ranks with the least score. -/
def SearchHit.rank (hit : SearchHit) : SearchScore := hit.score.getD ⊥

/-- Hits are ordered by descending score, then by their ids. -/
def SearchHit.order (hit : SearchHit) : SearchScoreᵒᵈ ×ₗ String ×ₗ String :=
  toLex (OrderDual.toDual hit.rank, toLex (hit.projectionId.getD "", hit.externalId))

/-- `_merge_search_hits` -/
def mergeSearchHits (externalHits : List SearchHit) (pending : List PendingProjectionDelta)
    (request : SearchRequest) : List SearchHit :=
  let merged := externalHits.foldl (mergeExternal pending request) .empty
  let filled := pending.foldl (mergePending request) merged
  (sortBy SearchHit.order filled.values).take request.limit.toNat

/-- The projection of a claim is pending deletion. -/
def PendingDeletion (pending : List PendingProjectionDelta) (claimId : String) : Prop :=
  ∃ delta ∈ pending, delta.operation = .delete ∧
    delta.projectionId = "statefuse:claim:" ++ claimId

/-- The hit shows the pending record and nothing else. -/
structure SearchHit.Carries (hit : SearchHit) (record : RetrievalRecord) : Prop where
  projectionId : hit.projectionId = some record.projectionId
  text : hit.text = record.text
  claimIds : hit.claimIds = record.claimIds
  conflictIds : hit.conflictIds = record.conflictIds
  metadata : hit.metadata = freshMetadata record

/-- The hit is the local one for the record, or an external one that was refreshed. -/
def ShowsPending (externalHits : List SearchHit) (request : SearchRequest)
    (record : RetrievalRecord) (hit : SearchHit) : Prop :=
  localSearchHit record request = some hit ∨
    ∃ given ∈ externalHits, given.projectionId.getD "" = record.projectionId ∧
      hit = given.refreshed record

/-- Every upsert carries a record of its own projection id, as refreshing the pending
deltas builds them. -/
def OwnRecords (pending : List PendingProjectionDelta) : Prop :=
  ∀ delta ∈ pending, ∀ record, delta.record = some record →
    record.projectionId = delta.projectionId

section Pending

variable {pending : List PendingProjectionDelta}

omit [WordSplitting] in
theorem PendingProjectionDelta.upsert_of_record {delta : PendingProjectionDelta}
    {record : RetrievalRecord} (recorded : delta.record = some record) :
    delta.operation = .upsert :=
  delta.recorded.mp (by rw [recorded]; rfl)

omit [WordSplitting] in
theorem claimIdOfProjection_iff (projectionId claimId : String) :
    claimIdOfProjection projectionId = some claimId ↔
      projectionId = "statefuse:claim:" ++ claimId := by
  rw [claimIdOfProjection, Option.map_eq_some_iff]
  constructor
  · intro found
    rcases found with ⟨rest, dropped, same⟩
    rcases List.dropPrefix?_eq_some_iff.mp dropped with ⟨start, split, equal⟩
    rw [eq_of_beq equal] at split
    have letters : rest = claimId.toList := by
      rw [← same, String.toList_ofList]
    apply String.toList_injective
    rw [split, letters, String.toList_append]
  · intro same
    refine ⟨claimId.toList, ?_, String.ofList_toList⟩
    rw [List.dropPrefix?_eq_some_iff]
    exact ⟨_, by rw [same, String.toList_append], beq_self_eq_true _⟩

omit [WordSplitting] in
theorem mem_deletedProjectionIds (projectionId : String) :
    projectionId ∈ deletedProjectionIds pending ↔
      ∃ delta ∈ pending, delta.operation = .delete ∧ delta.projectionId = projectionId := by
  simp [deletedProjectionIds, and_assoc]

omit [WordSplitting] in
theorem mem_deletedClaimIds (claimId : String) :
    claimId ∈ deletedClaimIds pending ↔ PendingDeletion pending claimId := by
  simp only [deletedClaimIds, List.mem_filterMap, claimIdOfProjection_iff,
    mem_deletedProjectionIds, exists_eq_right, PendingDeletion]

omit [WordSplitting] in
/-- Under distinct projection ids the upserts are found under theirs. -/
theorem pendingUpserts_get (unique : (pending.map (·.projectionId)).Nodup) (projectionId : String)
    (delta : PendingProjectionDelta) :
    (pendingUpserts pending)[projectionId]? = some delta ↔
      delta ∈ pending ∧ delta.record.isSome = true ∧ delta.projectionId = projectionId := by
  have injective : ∀ first ∈ pending.filter (fun delta =>
      delta.operation = .upsert ∧ delta.record.isSome), ∀ second ∈ pending.filter (fun delta =>
      delta.operation = .upsert ∧ delta.record.isSome),
      first.projectionId = second.projectionId → first = second := by
    intro first firstListed second secondListed same
    exact List.inj_on_of_nodup_map unique (List.mem_of_mem_filter firstListed)
      (List.mem_of_mem_filter secondListed) same
  refine (Lists.ofItems_of_injective injective projectionId delta).trans ?_
  simp only [List.mem_filter, decide_eq_true_eq, and_assoc]
  constructor
  · intro found
    exact ⟨found.1, found.2.2⟩
  · intro found
    exact ⟨found.1, delta.recorded.mp found.2.1, found.2⟩

end Pending

/-! ## Where a merged hit comes from -/

/-- How a hit gets under its key: it is an external one that nothing pending concerns, or
an external one that was refreshed, or a local one. -/
inductive Origin (externalHits : List SearchHit) (pending : List PendingProjectionDelta)
    (request : SearchRequest) : HitKey → SearchHit → Prop
  | external (hit : SearchHit) (given : hit ∈ externalHits)
      (unmasked : isMasked pending hit = false)
      (settled : (pendingUpserts pending)[hit.projectionId.getD ""]? = none) :
      Origin externalHits pending request hit.key hit
  | refreshed (hit : SearchHit) (given : hit ∈ externalHits) (delta : PendingProjectionDelta)
      (record : RetrievalRecord)
      (upsert : (pendingUpserts pending)[hit.projectionId.getD ""]? = some delta)
      (recorded : delta.record = some record) (satisfied : record.satisfies request = true) :
      Origin externalHits pending request hit.key (hit.refreshed record)
  | found (delta : PendingProjectionDelta) (listed : delta ∈ pending) (record : RetrievalRecord)
      (recorded : delta.record = some record) (hit : SearchHit)
      (shown : localSearchHit record request = some hit) :
      Origin externalHits pending request (.projection delta.projectionId) hit

section Merge

variable {externalHits : List SearchHit} {pending : List PendingProjectionDelta}
  {request : SearchRequest} {merged : OrderedDict HitKey SearchHit}

/-- Every entry has an origin. -/
def Originated (externalHits : List SearchHit) (pending : List PendingProjectionDelta)
    (request : SearchRequest) (merged : OrderedDict HitKey SearchHit) : Prop :=
  ∀ key hit, (key, hit) ∈ merged.entries → Origin externalHits pending request key hit

theorem Originated.assign (originated : Originated externalHits pending request merged)
    {key : HitKey} {hit : SearchHit} (origin : Origin externalHits pending request key hit) :
    Originated externalHits pending request (merged.assign key hit) := by
  intro other entered listed
  rcases OrderedDict.mem_assign.mp listed with same | ⟨earlier, _⟩
  · injection same with sameKey sameHit
    rw [sameKey, sameHit]
    exact origin
  · exact originated other entered earlier

theorem Originated.setDefault (originated : Originated externalHits pending request merged)
    {key : HitKey} {hit : SearchHit} (origin : Origin externalHits pending request key hit) :
    Originated externalHits pending request (merged.setDefault key hit) := by
  intro other entered listed
  rcases OrderedDict.mem_setDefault.mp listed with earlier | ⟨same, _⟩
  · exact originated other entered earlier
  · injection same with sameKey sameHit
    rw [sameKey, sameHit]
    exact origin

theorem mergeExternal_originated (originated : Originated externalHits pending request merged)
    {hit : SearchHit} (given : hit ∈ externalHits) :
    Originated externalHits pending request (mergeExternal pending request merged hit) := by
  unfold mergeExternal
  split
  · exact originated
  · rename_i unmasked
    split
    · rename_i settled
      exact originated.assign (.external hit given (Bool.eq_false_iff.mpr unmasked) settled)
    · rename_i delta upsert
      split
      · exact originated
      · rename_i record recorded
        split
        · rename_i satisfied
          exact originated.assign (.refreshed hit given delta record upsert recorded satisfied)
        · exact originated

theorem mergePending_originated (originated : Originated externalHits pending request merged)
    {delta : PendingProjectionDelta} (listed : delta ∈ pending) :
    Originated externalHits pending request (mergePending request merged delta) := by
  unfold mergePending
  split
  · rename_i record _ recorded
    split
    · exact originated
    · rename_i hit shown
      exact originated.setDefault (.found delta listed record recorded hit shown)
  · exact originated

omit [WordSplitting] in
/-- A pass keeps what each of its steps keeps. -/
private theorem foldl_keeps {α : Type} {step : OrderedDict HitKey SearchHit → α →
    OrderedDict HitKey SearchHit} (holds : OrderedDict HitKey SearchHit → Prop) (items : List α)
    (keeps : ∀ merged, ∀ item ∈ items, holds merged → holds (step merged item))
    (start : holds merged) : holds (items.foldl step merged) := by
  induction items generalizing merged with
  | nil => exact start
  | cons head tail inductionHypothesis =>
      exact inductionHypothesis
        (fun merged item later => keeps merged item (List.mem_cons_of_mem _ later))
        (keeps merged head List.mem_cons_self start)

/-- Everything that is merged. -/
def mergedHits (externalHits : List SearchHit) (pending : List PendingProjectionDelta)
    (request : SearchRequest) : OrderedDict HitKey SearchHit :=
  pending.foldl (mergePending request)
    (externalHits.foldl (mergeExternal pending request) .empty)

theorem mergedHits_originated :
    Originated externalHits pending request (mergedHits externalHits pending request) := by
  refine foldl_keeps _ pending
    (fun merged delta listed originated => mergePending_originated originated listed) ?_
  refine foldl_keeps _ externalHits
    (fun merged hit given originated => mergeExternal_originated originated given) ?_
  intro key hit listed
  cases listed

/-! ## What an origin says -/

/-- The key is one for hits of the projection; the empty projection id counts as none. -/
def HitKey.IsFor (key : HitKey) (projectionId : String) : Prop :=
  key = .projection projectionId ∨ (projectionId = "" ∧ ∃ externalId, key = .external externalId)

omit [WordSplitting] in
theorem SearchHit.key_isFor (hit : SearchHit) : hit.key.IsFor (hit.projectionId.getD "") := by
  unfold SearchHit.key truthy
  cases hit.projectionId with
  | none => exact Or.inr ⟨rfl, _, rfl⟩
  | some name =>
      by_cases empty : name = ""
      · simp [HitKey.IsFor, Option.filter, empty]
      · simp [HitKey.IsFor, Option.filter, empty]

omit [WordSplitting] in
theorem HitKey.IsFor.unique {key : HitKey} {first second : String} (isFirst : key.IsFor first)
    (isSecond : key.IsFor second) : first = second := by
  rcases isFirst with isFirst | ⟨firstEmpty, _, isFirst⟩
  · rcases isSecond with isSecond | ⟨_, _, isSecond⟩
    · rw [isFirst] at isSecond
      injection isSecond
    · rw [isFirst] at isSecond
      cases isSecond
  · rcases isSecond with isSecond | ⟨secondEmpty, _⟩
    · rw [isFirst] at isSecond
      cases isSecond
    · rw [firstEmpty, secondEmpty]

omit [WordSplitting] in
theorem HitKey.IsFor.projection {key : HitKey} {projectionId : String}
    (isFor : key.IsFor projectionId) (named : projectionId ≠ "") :
    key = .projection projectionId := by
  rcases isFor with same | ⟨empty, _⟩
  · exact same
  · exact absurd empty named

theorem localSearchHit_carries {record : RetrievalRecord} {hit : SearchHit}
    (shown : localSearchHit record request = some hit) :
    hit.Carries record ∧ record.satisfies request = true := by
  unfold localSearchHit at shown
  by_cases satisfied : record.satisfies request = true
  · rw [if_pos satisfied] at shown
    simp only at shown
    split at shown
    · cases shown
    · injection shown with shown
      rw [← shown]
      exact ⟨⟨rfl, rfl, rfl, rfl, rfl⟩, satisfied⟩
  · rw [if_neg satisfied] at shown
    cases shown

omit [WordSplitting] in
theorem SearchHit.refreshed_carries (hit : SearchHit) (record : RetrievalRecord) :
    (hit.refreshed record).Carries record :=
  ⟨rfl, rfl, rfl, rfl, rfl⟩

/-- A hit that shows a pending record, under a key for its projection. -/
structure ShownUnder (externalHits : List SearchHit) (pending : List PendingProjectionDelta)
    (request : SearchRequest) (key : HitKey) (hit : SearchHit) (delta : PendingProjectionDelta)
    (record : RetrievalRecord) : Prop where
  listed : delta ∈ pending
  recorded : delta.record = some record
  carries : hit.Carries record
  satisfied : record.satisfies request = true
  shows : ShowsPending externalHits request record hit
  isFor : key.IsFor delta.projectionId

/-- A merged hit is an external one that nothing pending concerns, or it shows a pending
record. -/
theorem Origin.cases_on_pending (unique : (pending.map (·.projectionId)).Nodup)
    (own : OwnRecords pending) {key : HitKey} {hit : SearchHit}
    (origin : Origin externalHits pending request key hit) :
    (hit ∈ externalHits ∧ isMasked pending hit = false ∧ key = hit.key ∧
        (pendingUpserts pending)[hit.projectionId.getD ""]? = none) ∨
      ∃ delta record, ShownUnder externalHits pending request key hit delta record := by
  cases origin with
  | external _ given unmasked settled => exact Or.inl ⟨given, unmasked, rfl, settled⟩
  | refreshed given among delta record upsert recorded satisfied =>
      obtain ⟨listed, _, sameId⟩ := (pendingUpserts_get unique _ delta).mp upsert
      have owned := own delta listed record recorded
      refine Or.inr ⟨delta, record, listed, recorded, given.refreshed_carries record, satisfied,
        Or.inr ⟨given, among, ?_, rfl⟩, ?_⟩
      · rw [owned, sameId]
      · rw [sameId]
        exact given.key_isFor
  | found delta listed record recorded _ shown =>
      obtain ⟨carries, satisfied⟩ := localSearchHit_carries shown
      exact Or.inr ⟨delta, record, listed, recorded, carries, satisfied, Or.inl shown, Or.inl rfl⟩

omit [WordSplitting] in
/-- A key that is bound by one step of a pass stays bound. -/
private theorem foldl_reaches {α : Type} {step : OrderedDict HitKey SearchHit → α →
    OrderedDict HitKey SearchHit} (holds : OrderedDict HitKey SearchHit → Prop) {items : List α}
    {item : α} (listed : item ∈ items)
    (keeps : ∀ merged item, holds merged → holds (step merged item))
    (reaches : ∀ merged, holds (step merged item)) (merged : OrderedDict HitKey SearchHit) :
    holds (items.foldl step merged) := by
  induction items generalizing merged with
  | nil => cases listed
  | cons head tail inductionHypothesis =>
      rcases List.mem_cons.mp listed with same | later
      · rw [List.foldl_cons, ← same]
        exact foldl_keeps holds tail (fun merged item _ => keeps merged item) (reaches merged)
      · exact inductionHypothesis later (step merged head)

omit [WordSplitting] in
theorem mergeExternal_keys {key : HitKey} (bound : key ∈ merged.keys) (hit : SearchHit) :
    key ∈ (mergeExternal pending request merged hit).keys := by
  unfold mergeExternal
  split
  · exact bound
  · split
    · exact OrderedDict.mem_keys_assign.mpr (Or.inl bound)
    · split
      · exact bound
      · split
        · exact OrderedDict.mem_keys_assign.mpr (Or.inl bound)
        · exact bound

theorem mergePending_keys {key : HitKey} (bound : key ∈ merged.keys)
    (delta : PendingProjectionDelta) : key ∈ (mergePending request merged delta).keys := by
  unfold mergePending
  split
  · split
    · exact bound
    · exact OrderedDict.mem_keys_setDefault.mpr (Or.inl bound)
  · exact bound

/-- An unmasked hit of a pending upsert that satisfies the request binds its key. -/
theorem mergedHits_external (unique : (pending.map (·.projectionId)).Nodup)
    {delta : PendingProjectionDelta} (listed : delta ∈ pending) {record : RetrievalRecord}
    (recorded : delta.record = some record) (satisfied : record.satisfies request = true)
    {hit : SearchHit} (given : hit ∈ externalHits) (unmasked : isMasked pending hit = false)
    (named : hit.projectionId = some delta.projectionId) :
    hit.key ∈ (mergedHits externalHits pending request).keys := by
  refine foldl_keeps (hit.key ∈ OrderedDict.keys ·) pending
    (fun _ delta _ bound => mergePending_keys bound delta) ?_
  refine foldl_reaches (hit.key ∈ OrderedDict.keys ·) given
    (fun _ hit bound => mergeExternal_keys bound hit) ?_ _
  intro merged
  have upsert : (pendingUpserts pending)[hit.projectionId.getD ""]? = some delta := by
    rw [pendingUpserts_get unique]
    exact ⟨listed, by rw [recorded]; rfl, by rw [named, Option.getD_some]⟩
  rw [mergeExternal, if_neg (by rw [unmasked]; exact Bool.false_ne_true), upsert]
  simp only [recorded]
  rw [if_pos satisfied]
  exact OrderedDict.mem_keys_assign.mpr (Or.inr rfl)

/-- A pending upsert with a local hit binds the key of its projection. -/
theorem mergedHits_pending {delta : PendingProjectionDelta} (listed : delta ∈ pending)
    {record : RetrievalRecord} (recorded : delta.record = some record) {hit : SearchHit}
    (shown : localSearchHit record request = some hit) :
    HitKey.projection delta.projectionId ∈ (mergedHits externalHits pending request).keys := by
  refine foldl_reaches (HitKey.projection delta.projectionId ∈ OrderedDict.keys ·) listed
    (fun _ delta bound => mergePending_keys bound delta) ?_ _
  intro merged
  rw [mergePending, PendingProjectionDelta.upsert_of_record recorded, recorded]
  simp only [shown]
  exact OrderedDict.mem_keys_setDefault.mpr (Or.inr rfl)

end Merge

end Statefuse
