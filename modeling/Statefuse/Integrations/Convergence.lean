import Statefuse.Codec
import Statefuse.Integrations.Freshness
import Statefuse.Integrations.Synchronize
import Statefuse.Memory.Deltas

/-!
# The repository converges

For every projection id the mirror is a cell of an outbox: the refresh and the delivery of
a delta are its steps (`refresh_step`, `deliver_steps`).  What holds of cells therefore
holds of every run, whatever the repository has answered.
-/

namespace Statefuse

open Foundation

section Runs

variable [Runtime]

/-- Records with one id and one fingerprint are one record. -/
theorem fingerprint_injective (collisionFree : CollisionFree) {first second : RetrievalRecord}
    (same : fingerprint first = fingerprint second)
    (sameId : first.projectionId = second.projectionId) : first = second := by
  have objects := JsonValue.obj_injective (digestJsonValue_injective collisionFree same)
  have field (name : String) := congrArg (fun members : JSONObject => members[name]?) objects
  simp only [get_objectOf] at field
  have text : JsonValue.str first.text = JsonValue.str second.text := Option.some.inj (field "text")
  have nameSpace : JsonValue.str first.nameSpace = JsonValue.str second.nameSpace :=
    Option.some.inj (field "namespace")
  have claimIds : strList first.claimIds = strList second.claimIds :=
    Option.some.inj (field "claim_ids")
  have conflictIds : strList first.conflictIds = strList second.conflictIds :=
    Option.some.inj (field "conflict_ids")
  have metadata : JsonValue.obj first.metadata = JsonValue.obj second.metadata :=
    Option.some.inj (field "metadata")
  cases first
  cases second
  simp only [RetrievalRecord.mk.injEq]
  exact ⟨sameId, Option.some.inj (congrArg JsonValue.asStr? text),
    Option.some.inj (congrArg JsonValue.asStr? nameSpace), strList_injective claimIds,
    strList_injective conflictIds, JsonValue.obj_injective metadata⟩

/-- What references are compared by. -/
def stampOf (record : RetrievalRecord) : Json ℚ :=
  PyEq.key (JsonValue.str (fingerprint record) : JSONValue)

theorem stampOf_injective (collisionFree : CollisionFree) {first second : RetrievalRecord}
    (same : stampOf first = stampOf second)
    (sameId : first.projectionId = second.projectionId) : first = second := by
  injection same with same
  exact fingerprint_injective collisionFree same sameId

namespace Mirror

variable {mirror : Mirror} {nameSpace : String} {state : MemoryState}
  {delta : MaterializationDelta} {wanted : Dict String RetrievalRecord}

/-- What the mirror has of one projection id. -/
def entry (mirror : Mirror) (projectionId : String) :
    Option ExternalReference × Option PendingProjectionDelta × Option RetrievalRecord :=
  (mirror.references[projectionId]?, mirror.deltas[projectionId]?, mirror.remote[projectionId]?)

def stamp (reference : ExternalReference) : Json ℚ :=
  PyEq.key (getOrNull reference.metadata "fingerprint")

/-- The cell of one projection id, when `wanted` should be projected. -/
def cell (mirror : Mirror) (wanted : Dict String RetrievalRecord) (projectionId : String) :
    Cell RetrievalRecord (Json ℚ) where
  wanted := wanted[projectionId]?
  remote := (mirror.entry projectionId).2.2
  stamp := (mirror.entry projectionId).1.map stamp
  pending := (mirror.entry projectionId).2.1.map PendingProjectionDelta.record

theorem isAcknowledged_iff {reference : Option ExternalReference} {record : RetrievalRecord} :
    isAcknowledged reference record = true ↔ reference.map stamp = some (stampOf record) := by
  cases reference with
  | none => simp [isAcknowledged]
  | some reference =>
      rw [isAcknowledged, Option.any_some, pyEq_iff, Option.map_some, Option.some.injEq]
      rfl

/-- Records and deltas are filed under their own ids. -/
def Filed (records : Dict String RetrievalRecord) : Prop :=
  ∀ (projectionId : String) (record : RetrievalRecord), records[projectionId]? = some record →
    record.projectionId = projectionId

/-- Deltas are filed under their ids, and every cell is sound. -/
structure Faithful (mirror : Mirror) (wanted : Dict String RetrievalRecord) : Prop where
  deltas : ∀ (projectionId : String) (delta : PendingProjectionDelta),
    mirror.deltas[projectionId]? = some delta → delta.projectionId = projectionId
  sound : ∀ projectionId : String, (mirror.cell wanted projectionId).Sound stampOf
  within : ∀ projectionId : String, (mirror.cell wanted projectionId).Within
    fun record => record.projectionId = projectionId

/-- What the repository has acknowledged it holds. -/
def HoldsAll (mirror : Mirror) (wanted : Dict String RetrievalRecord) : Prop :=
  ∀ projectionId : String, (mirror.cell wanted projectionId).Holds

theorem empty_faithful : empty.Faithful ∅ where
  deltas := by simp [empty]
  sound := fun projectionId => by
    convert Cell.empty_sound stampOf
    simp [cell, entry, empty, Cell.empty]
  within := fun projectionId => by constructor <;> simp [cell, entry, empty]

omit [Runtime] in
theorem ofItems_listed {records : List RetrievalRecord} {projectionId : String}
    {record : RetrievalRecord}
    (found : (Dict.ofItems RetrievalRecord.projectionId records)[projectionId]? = some record) :
    record ∈ records ∧ record.projectionId = projectionId := by
  induction records using List.reverseRecOn with
  | nil => simp [Dict.ofItems] at found
  | append_singleton init last inductionHypothesis =>
      rw [Dict.ofItems, List.foldl_append, List.foldl_cons, List.foldl_nil,
        Dict.get_insert] at found
      split at found
      · rename_i same
        injection found with found
        rw [← found]
        exact ⟨List.mem_append_right _ (List.mem_singleton.mpr rfl), same⟩
      · have earlier := inductionHypothesis found
        exact ⟨List.mem_append_left _ earlier.1, earlier.2⟩

theorem projected_filed (state : MemoryState) (nameSpace : String) :
    Filed (projected state nameSpace) :=
  fun _ _ found => (ofItems_listed found).2

omit [Runtime] in
/-- The values of a table that are filed under their ids have different ids. -/
theorem values_ids {V : Type} (table : Dict String V) (idOf : V → String)
    (filed : ∀ (projectionId : String) (value : V), table[projectionId]? = some value →
      idOf value = projectionId) : (Dict.values table).map idOf = table.keys := by
  rw [Dict.values, List.map_map, ← Std.ExtTreeMap.map_fst_toList_eq_keys]
  apply List.map_congr_left
  intro entry listed
  exact filed entry.1 entry.2 ((Dict.mem_toList _ _ _).mp listed)

/-! ## Refreshing -/

theorem offer_frame (mirror : Mirror) (record : RetrievalRecord) (projectionId : String)
    (apart : projectionId ≠ record.projectionId) :
    (mirror.offer record).entry projectionId = mirror.entry projectionId := by
  unfold offer
  split
  · simp only [entry, Dict.get_erase, if_neg (Ne.symm apart)]
  · simp only [entry, Dict.get_insert, if_neg (Ne.symm apart)]

omit [Runtime] in
theorem withdraw_frame (mirror : Mirror) (withdrawn projectionId : String)
    (apart : projectionId ≠ withdrawn) :
    (mirror.withdraw withdrawn).entry projectionId = mirror.entry projectionId := by
  simp only [entry, withdraw, Dict.get_insert, if_neg (Ne.symm apart)]

/-- Where a refresh leaves the delta of a record. -/
theorem offer_entry (mirror : Mirror) (record : RetrievalRecord) :
    (mirror.offer record).entry record.projectionId =
      (mirror.references[record.projectionId]?,
        if isAcknowledged mirror.references[record.projectionId]? record then none
        else some (.ofRecord record),
        mirror.remote[record.projectionId]?) := by
  unfold offer
  split
  · simp only [entry, Dict.get_erase, if_pos]
  · simp only [entry, Dict.get_insert_self]

/-- Records that are offered and others that are withdrawn, at one projection id. -/
theorem project_entry (mirror : Mirror) {upserts : Dict String RetrievalRecord}
    (filed : Filed upserts) {deletes : List String} (distinct : deletes.Nodup)
    (apart : ∀ projectionId ∈ deletes, upserts[projectionId]? = none) (projectionId : String) :
    (deletes.foldl withdraw ((Dict.values upserts).foldl offer mirror)).entry projectionId =
      (mirror.references[projectionId]?,
        upserts[projectionId]?.elim
          (if projectionId ∈ deletes then some (.ofDeletion projectionId)
            else mirror.deltas[projectionId]?)
          (fun record =>
            if isAcknowledged mirror.references[projectionId]? record then none
            else some (.ofRecord record)),
        mirror.remote[projectionId]?) := by
  have ids := values_ids upserts RetrievalRecord.projectionId filed
  cases found : upserts[projectionId]? with
  | some record =>
      have same := filed projectionId record found
      subst same
      have kept : record.projectionId ∉ deletes.map id := by
        rw [List.map_id]
        intro deleted
        rw [apart _ deleted] at found
        cases found
      have single : ((Dict.values upserts).map RetrievalRecord.projectionId).Nodup := by
        rw [ids]
        exact upserts.keys_nodup
      obtain ⟨before, untouched, after⟩ := view_foldl_of_mem (fun mirror record place apart =>
        offer_frame mirror record place apart) single mirror
        ((Dict.mem_values upserts record).mpr ⟨_, found⟩)
      rw [view_foldl_of_not_mem withdraw_frame _ _ kept, after, offer_entry]
      simp only [entry, Prod.mk.injEq] at untouched
      rw [untouched.1, untouched.2.2]
      rfl
  | none =>
      have absent : projectionId ∉ (Dict.values upserts).map RetrievalRecord.projectionId := by
        rw [ids, Dict.mem_keys]
        simp [found]
      have offered := view_foldl_of_not_mem offer_frame _ mirror absent
      by_cases deleted : projectionId ∈ deletes
      · have single : (deletes.map id).Nodup := by
          rw [List.map_id]
          exact distinct
        obtain ⟨before, untouched, after⟩ := view_foldl_of_mem withdraw_frame single
          ((Dict.values upserts).foldl offer mirror) deleted
        change before.entry projectionId = _ at untouched
        rw [offered] at untouched
        simp only [entry, Prod.mk.injEq] at untouched
        rw [after]
        simp only [entry, withdraw, Dict.get_insert_self, untouched.1, untouched.2.2,
          Option.elim_none, if_pos deleted]
      · have kept : projectionId ∉ deletes.map id := by
          rw [List.map_id]
          exact deleted
        rw [view_foldl_of_not_mem withdraw_frame _ _ kept, offered]
        simp only [entry, Option.elim_none, if_neg deleted]

/-- A refresh that projects the whole state, at one projection id. -/
theorem rebuild_entry (mirror : Mirror) {desired : Dict String RetrievalRecord}
    (filed : Filed desired) (projectionId : String) :
    ((mirror.rebuild desired).deletes.foldl withdraw
        ((mirror.rebuild desired).upserts.foldl offer mirror)).entry projectionId =
      (mirror.references[projectionId]?,
        match desired[projectionId]? with
        | some record =>
            if isAcknowledged mirror.references[projectionId]? record then none
            else some (.ofRecord record)
        | none =>
            if projectionId ∈ mirror.references.keys ∨ projectionId ∈ mirror.deltas.keys then
              some (.ofDeletion projectionId)
            else none,
        mirror.remote[projectionId]?) := by
  have distinct : (mirror.rebuild desired).deletes.Nodup :=
    ((sortedSet_sorted _).imp (fun below => ne_of_lt below)).filter _
  have deleted (projectionId : String) : projectionId ∈ (mirror.rebuild desired).deletes ↔
      (projectionId ∈ mirror.references.keys ∨ projectionId ∈ mirror.deltas.keys) ∧
        desired[projectionId]? = none := by
    rw [rebuild, List.mem_filter, mem_sortedSet, List.mem_append, Bool.not_eq_true',
      ← Bool.not_eq_true, Std.ExtTreeMap.contains_iff_mem, Dict.mem_iff,
      ← Option.isSome_iff_exists, Option.not_isSome_iff_eq_none]
  have entered := project_entry mirror filed distinct
    (fun place listed => ((deleted place).mp listed).2) projectionId
  refine entered.trans ?_
  cases found : desired[projectionId]? with
  | some record => rfl
  | none =>
      rw [Option.elim_none]
      by_cases known : projectionId ∈ mirror.references.keys ∨ projectionId ∈ mirror.deltas.keys
      · rw [if_pos ((deleted projectionId).mpr ⟨known, found⟩), if_pos known]
      · rw [if_neg (fun listed => known ((deleted projectionId).mp listed).1), if_neg known]
        rw [not_or, Dict.mem_keys, Dict.mem_keys] at known
        rw [Option.eq_none_iff_forall_ne_some.mpr fun delta isDelta => known.2 ⟨delta, isDelta⟩]

/-- A refresh calls nothing and acknowledges nothing. -/
theorem refresh_stores (mirror : Mirror) (nameSpace : String) (state : MemoryState)
    (delta : MaterializationDelta) :
    (mirror.refresh nameSpace state delta).references = mirror.references ∧
      (mirror.refresh nameSpace state delta).remote = mirror.remote := by
  have offered (records : List RetrievalRecord) (mirror : Mirror) :
      (records.foldl offer mirror).references = mirror.references ∧
        (records.foldl offer mirror).remote = mirror.remote := by
    induction records generalizing mirror with
    | nil => exact ⟨rfl, rfl⟩
    | cons head tail inductionHypothesis =>
        obtain ⟨references, remote⟩ := inductionHypothesis (mirror.offer head)
        rw [List.foldl_cons, references, remote, offer]
        split
        · exact ⟨rfl, rfl⟩
        · exact ⟨rfl, rfl⟩
  have withdrawn (ids : List String) (mirror : Mirror) :
      (ids.foldl withdraw mirror).references = mirror.references ∧
        (ids.foldl withdraw mirror).remote = mirror.remote := by
    induction ids generalizing mirror with
    | nil => exact ⟨rfl, rfl⟩
    | cons head tail inductionHypothesis => exact inductionHypothesis (mirror.withdraw head)
  unfold refresh
  split
  · exact ⟨rfl, rfl⟩
  · obtain ⟨references, remote⟩ := withdrawn _ _
    rw [references, remote]
    exact offered _ _

theorem refresh_of_full (rebuilds : delta.fullRebuild = true) :
    mirror.refresh nameSpace state delta =
      (mirror.rebuild (projected state nameSpace)).deletes.foldl withdraw
        ((mirror.rebuild (projected state nameSpace)).upserts.foldl offer mirror) := by
  have changed : ¬delta.isEmpty = true := by
    rw [MaterializationDelta.isEmpty, rebuilds]
    simp
  rw [refresh, if_neg changed, if_pos rebuilds]

/-- Projecting the whole state refreshes every cell. -/
theorem refresh_step (atomic : Prop) (rebuilds : delta.fullRebuild = true)
    (wanted : Dict String RetrievalRecord) (projectionId : String) :
    Cell.Step stampOf atomic (mirror.cell wanted projectionId)
      ((mirror.refresh nameSpace state delta).cell (projected state nameSpace) projectionId) := by
  have entered := rebuild_entry mirror (projected_filed state nameSpace) projectionId
  rw [← refresh_of_full rebuilds] at entered
  have due : (mirror.cell wanted projectionId).Due stampOf
      (projected state nameSpace)[projectionId]?
      (((mirror.refresh nameSpace state delta).entry projectionId).2.1.map
        PendingProjectionDelta.record) := by
    rw [entered]
    cases found : (projected state nameSpace)[projectionId]? with
    | some record =>
        change _ = if mirror.references[projectionId]?.map stamp = some (stampOf record) then none
          else some (some record)
        by_cases acknowledged : isAcknowledged mirror.references[projectionId]? record = true
        · rw [if_pos (isAcknowledged_iff.mp acknowledged)]
          simp only [if_pos acknowledged]
          rfl
        · rw [if_neg fun same => acknowledged (isAcknowledged_iff.mpr same)]
          simp only [if_neg acknowledged]
          rfl
    | none =>
        by_cases known : projectionId ∈ mirror.references.keys ∨ projectionId ∈ mirror.deltas.keys
        · left
          simp only [if_pos known]
          rfl
        · right
          have unknown := not_or.mp known
          rw [Dict.mem_keys, Dict.mem_keys] at unknown
          have unstamped : mirror.references[projectionId]? = none :=
            Option.eq_none_iff_forall_ne_some.mpr fun item isItem => unknown.1 ⟨item, isItem⟩
          have idle : mirror.deltas[projectionId]? = none :=
            Option.eq_none_iff_forall_ne_some.mpr fun item isItem => unknown.2 ⟨item, isItem⟩
          simp only [if_neg known, Option.map_none, cell, entry, unstamped, idle, and_self]
  have step : Cell.Step stampOf atomic _ _ :=
    Cell.Step.refresh (mirror.cell wanted projectionId) _ _ due
  convert step using 1
  simp only [cell, entered]
  rfl

/-! ## Delivering -/

/-- What a delivery has of one projection id: its entry, and whether it has failed. -/
def deliverEntry (state : Mirror × SyncReport) (projectionId : String) :
    (Option ExternalReference × Option PendingProjectionDelta × Option RetrievalRecord) × Bool :=
  (state.1.entry projectionId,
    state.2.failed.any fun failure => failure.projectionId = projectionId)

variable {repository now : String} {replies : Replies} {known : Dict String ExternalReference}

theorem applyDelta_frame (state : Mirror × SyncReport) (delta : PendingProjectionDelta)
    (projectionId : String) (apart : projectionId ≠ delta.projectionId) :
    deliverEntry (applyDelta repository now replies known state delta) projectionId =
      deliverEntry state projectionId := by
  have other : delta.projectionId ≠ projectionId := Ne.symm apart
  rw [applyDelta]
  cases delta.record with
  | none =>
      simp only [applyDelete]
      cases replies.delete delta.projectionId with
      | answered existed => simp [deliverEntry, entry, Dict.get_erase, other]
      | raised failure removed =>
          cases removed <;> simp [deliverEntry, entry, Dict.get_erase, other]
  | some record =>
      simp only [applyUpsert, failWrite]
      split
      · simp [deliverEntry, entry, Dict.get_erase, other]
      · cases known[delta.projectionId]? with
        | none =>
            cases replies.upsert delta.projectionId with
            | answered result =>
                simp only
                split <;> simp [deliverEntry, entry, Dict.get_erase, Dict.get_insert, other]
            | raised failure stored =>
                cases stored <;> simp [deliverEntry, entry, Dict.get_insert, other]
        | some reference =>
            cases replies.upsert delta.projectionId with
            | answered result =>
                simp only
                split <;> simp [deliverEntry, entry, Dict.get_erase, Dict.get_insert, other]
            | raised failure stored =>
                cases stored <;>
                  simp [deliverEntry, entry, Dict.get_erase, Dict.get_insert, other]

/-- A delta goes, or it fails and stays. -/
def Settled (before after : Mirror × SyncReport) (projectionId : String) : Prop :=
  ((deliverEntry after projectionId).1.2.1 = none ∧
      (deliverEntry after projectionId).2 = (deliverEntry before projectionId).2) ∨
    (deliverEntry after projectionId).1.2.1 = (deliverEntry before projectionId).1.2.1 ∧
      (deliverEntry after projectionId).2 = true

/-- A deletion is a step of its cell. -/
theorem applyDelete_step (wanted : Dict String RetrievalRecord) (mirror : Mirror)
    (report : SyncReport) {projectionId : String}
    (pending : (mirror.cell wanted projectionId).pending = some none) :
    Cell.Step stampOf replies.DeletesAtomically (mirror.cell wanted projectionId)
        ((applyDelete replies mirror report projectionId).1.cell wanted projectionId) ∧
      Settled (mirror, report) (applyDelete replies mirror report projectionId) projectionId := by
  rw [applyDelete]
  cases answer : replies.delete projectionId with
  | answered existed =>
      constructor
      · convert Cell.Step.removed _ pending using 1
        simp [cell, entry]
      · exact Or.inl (by simp [deliverEntry, entry])
  | raised failure removed =>
      constructor
      · convert Cell.Step.removeFailed _ (if removed then none else mirror.remote[projectionId]?)
          pending ?_ ?_ using 1
        · cases removed <;> simp [cell, entry]
        · cases removed
          · exact Or.inl rfl
          · exact Or.inr rfl
        · intro atomic
          rw [atomic projectionId failure removed answer]
          rfl
      · exact Or.inr (by simp [deliverEntry, entry])

/-- A write that has failed is a step of its cell, stored or not. -/
theorem failWrite_step (wanted : Dict String RetrievalRecord) (atomic : Prop) (mirror : Mirror)
    (report : SyncReport) {projectionId : String} {record : RetrievalRecord}
    (pending : (mirror.cell wanted projectionId).pending = some (some record))
    (unacknowledged : (mirror.cell wanted projectionId).stamp ≠ some (stampOf record))
    (stored : Bool) (failure : AdapterFailure) :
    Cell.Step stampOf atomic (mirror.cell wanted projectionId)
        ((failWrite mirror.references[projectionId]?
          { mirror with
            remote := if stored then mirror.remote.insert projectionId record else mirror.remote }
          report projectionId failure).1.cell wanted projectionId) ∧
      Settled (mirror, report) (failWrite mirror.references[projectionId]?
        { mirror with
          remote := if stored then mirror.remote.insert projectionId record else mirror.remote }
        report projectionId failure) projectionId := by
  constructor
  · convert Cell.Step.writeFailed _ record
      (if stored then some record else mirror.remote[projectionId]?) pending unacknowledged ?_
      using 1
    · cases reference : mirror.references[projectionId]? <;> cases stored <;>
        simp [failWrite, cell, entry, reference]
    · cases stored
      · exact Or.inl rfl
      · exact Or.inr rfl
  · exact Or.inr (by simp [deliverEntry, entry, failWrite])

omit [Runtime] in
theorem stamp_referenceTo [Runtime] (reference : Option ExternalReference)
    (record : RetrievalRecord) (result : ExternalWriteResult) (projectionId : String) :
    stamp (referenceTo reference record result projectionId now) = stampOf record := by
  rw [stamp, referenceTo, getOrNull, Dict.get_insert_of_ne _ (by decide), Dict.get_insert_self]
  rfl

/-- A write is a step of its cell. -/
theorem applyUpsert_step (wanted : Dict String RetrievalRecord) (atomic : Prop) (mirror : Mirror)
    (report : SyncReport) {projectionId : String} {record : RetrievalRecord}
    (live : known[projectionId]? = mirror.references[projectionId]?)
    (pending : (mirror.cell wanted projectionId).pending = some (some record)) :
    Cell.Step stampOf atomic (mirror.cell wanted projectionId)
        ((applyUpsert repository now replies known mirror report projectionId record).1.cell wanted
          projectionId) ∧
      Settled (mirror, report)
        (applyUpsert repository now replies known mirror report projectionId record)
        projectionId := by
  rw [applyUpsert]
  simp only [live]
  split
  · rename_i acknowledged
    constructor
    · convert Cell.Step.unchanged _ record pending (isAcknowledged_iff.mp acknowledged) using 1
      simp [cell, entry]
    · exact Or.inl (by simp [deliverEntry, entry])
  · rename_i unequal
    have unacknowledged : (mirror.cell wanted projectionId).stamp ≠ some (stampOf record) :=
      fun same => unequal (isAcknowledged_iff.mpr same)
    cases replies.upsert projectionId with
    | raised failure stored =>
        exact failWrite_step wanted atomic mirror report pending unacknowledged stored failure
    | answered result =>
        simp only
        split
        · constructor
          · convert Cell.Step.written _ record pending unacknowledged using 1
            simp [cell, entry, stamp_referenceTo]
          · exact Or.inl (by cases mirror.references[projectionId]? <;> simp [deliverEntry, entry])
        · exact failWrite_step wanted atomic mirror report pending unacknowledged true _

/-- A pending delta is a step of its cell. -/
theorem applyDelta_step (wanted : Dict String RetrievalRecord) (state : Mirror × SyncReport)
    {delta : PendingProjectionDelta}
    (live : known[delta.projectionId]? = state.1.references[delta.projectionId]?)
    (pending : state.1.deltas[delta.projectionId]? = some delta) :
    Cell.Step stampOf replies.DeletesAtomically (state.1.cell wanted delta.projectionId)
        ((applyDelta repository now replies known state delta).1.cell wanted delta.projectionId) ∧
      Settled state (applyDelta repository now replies known state delta) delta.projectionId := by
  have waiting : (state.1.cell wanted delta.projectionId).pending = some delta.record := by
    simp only [cell, entry, pending, Option.map_some]
  rw [applyDelta]
  cases recorded : delta.record with
  | none =>
      rw [recorded] at waiting
      exact applyDelete_step wanted state.1 state.2 waiting
  | some record =>
      rw [recorded] at waiting
      exact applyUpsert_step wanted _ state.1 state.2 live waiting

omit [Runtime] in
theorem cell_congr {first second : Mirror} {projectionId : String}
    (same : first.entry projectionId = second.entry projectionId)
    (wanted : Dict String RetrievalRecord) :
    first.cell wanted projectionId = second.cell wanted projectionId := by
  simp only [cell, same]

/-- A pending delta is delivered once, to what the delivery has found of its id. -/
theorem deliver_at {delta : PendingProjectionDelta}
    (filed : ∀ (projectionId : String) (delta : PendingProjectionDelta),
      mirror.deltas[projectionId]? = some delta → delta.projectionId = projectionId)
    (pending : mirror.deltas[delta.projectionId]? = some delta) (repository now : String)
    (replies : Replies) :
    ∃ before, deliverEntry before delta.projectionId =
        deliverEntry (mirror, .empty) delta.projectionId ∧
      deliverEntry (mirror.deliver repository now replies) delta.projectionId =
        deliverEntry (applyDelta repository now replies mirror.references before delta)
          delta.projectionId := by
  have listed : delta ∈ Dict.values mirror.deltas :=
    (Dict.mem_values mirror.deltas delta).mpr ⟨_, pending⟩
  have distinct : ((Dict.values mirror.deltas).map PendingProjectionDelta.projectionId).Nodup := by
    rw [values_ids mirror.deltas PendingProjectionDelta.projectionId filed]
    exact mirror.deltas.keys_nodup
  rw [deliver]
  simp only [if_neg (List.ne_nil_of_mem listed)]
  exact view_foldl_of_mem applyDelta_frame distinct (mirror, SyncReport.empty) listed

/-- A delivery takes a step for every delta, and a delta that is left has failed. -/
theorem deliver_step (faithful : mirror.Faithful wanted) (projectionId : String) :
    (Cell.Step stampOf replies.DeletesAtomically (mirror.cell wanted projectionId)
        ((mirror.deliver repository now replies).1.cell wanted projectionId) ∨
      (mirror.deliver repository now replies).1.cell wanted projectionId =
        mirror.cell wanted projectionId) ∧
      Settled (mirror, .empty) (mirror.deliver repository now replies) projectionId := by
  have idle : mirror.deltas[projectionId]? = none →
      deliverEntry (mirror.deliver repository now replies) projectionId =
          deliverEntry (mirror, .empty) projectionId →
      (Cell.Step stampOf replies.DeletesAtomically (mirror.cell wanted projectionId)
          ((mirror.deliver repository now replies).1.cell wanted projectionId) ∨
        (mirror.deliver repository now replies).1.cell wanted projectionId =
          mirror.cell wanted projectionId) ∧
        Settled (mirror, .empty) (mirror.deliver repository now replies) projectionId := by
    intro absent same
    refine ⟨Or.inr (cell_congr (congrArg Prod.fst same) wanted), Or.inl ?_⟩
    rw [same]
    exact ⟨absent, rfl⟩
  have ids := values_ids mirror.deltas PendingProjectionDelta.projectionId faithful.deltas
  have frame : ∀ (state : Mirror × SyncReport) (delta : PendingProjectionDelta) (place : String),
      place ≠ delta.projectionId →
        deliverEntry (applyDelta repository now replies mirror.references state delta) place =
          deliverEntry state place := applyDelta_frame
  cases pending : mirror.deltas[projectionId]? with
  | none =>
      apply idle pending
      rw [deliver]
      simp only
      split
      · rfl
      · have absent : projectionId ∉
            (Dict.values mirror.deltas).map PendingProjectionDelta.projectionId := by
          rw [ids, Dict.mem_keys]
          simp [pending]
        exact view_foldl_of_not_mem frame _ (mirror, SyncReport.empty) absent
  | some delta =>
      have same := faithful.deltas projectionId delta pending
      subst same
      obtain ⟨before, untouched, after⟩ := deliver_at faithful.deltas pending repository now replies
      have found : before.1.entry delta.projectionId = mirror.entry delta.projectionId :=
        congrArg Prod.fst untouched
      have references : mirror.references[delta.projectionId]? =
          before.1.references[delta.projectionId]? := (congrArg Prod.fst found).symm
      have deltas : before.1.deltas[delta.projectionId]? = mirror.deltas[delta.projectionId]? :=
        congrArg (fun entry => entry.2.1) found
      have ⟨step, settled⟩ : Cell.Step stampOf replies.DeletesAtomically _
          ((applyDelta repository now replies mirror.references before delta).1.cell wanted _) ∧
          Settled before _ _ :=
        applyDelta_step wanted before references (deltas.trans pending)
      rw [Settled, after]
      constructor
      · left
        rw [cell_congr (congrArg Prod.fst after) wanted, ← cell_congr found wanted]
        exact step
      · rw [Settled, untouched] at settled
        exact settled

/-! ## Invariants of a mirror -/

theorem refresh_faithful (faithful : mirror.Faithful wanted) (rebuilds : delta.fullRebuild = true) :
    (mirror.refresh nameSpace state delta).Faithful (projected state nameSpace) where
  deltas := by
    intro projectionId pending found
    have entered := rebuild_entry mirror (projected_filed state nameSpace) projectionId
    rw [← refresh_of_full rebuilds] at entered
    have deltas := congrArg (fun entry => entry.2.1) entered
    simp only [entry] at deltas
    rw [found] at deltas
    cases wantedHere : (projected state nameSpace)[projectionId]? with
    | some record =>
        rw [wantedHere] at deltas
        simp only at deltas
        split at deltas
        · cases deltas
        · injection deltas with deltas
          rw [deltas]
          exact projected_filed state nameSpace projectionId record wantedHere
    | none =>
        rw [wantedHere] at deltas
        simp only at deltas
        split at deltas
        · injection deltas with deltas
          rw [deltas]
          rfl
        · cases deltas
  sound := fun projectionId =>
    (refresh_step True rebuilds wanted projectionId).sound (faithful.sound projectionId)
  within := fun projectionId =>
    (refresh_step True rebuilds wanted projectionId).within (faithful.within projectionId)
      fun record => projected_filed state nameSpace projectionId record

/-- What is acknowledged and held does not depend on what is wanted. -/
theorem HoldsAll.refresh {wanted : Dict String RetrievalRecord} (holds : mirror.HoldsAll wanted)
    (nameSpace : String) (state : MemoryState) (delta : MaterializationDelta)
    (other : Dict String RetrievalRecord) :
    (mirror.refresh nameSpace state delta).HoldsAll other := by
  obtain ⟨references, remote⟩ := refresh_stores mirror nameSpace state delta
  intro projectionId stamped
  have held := holds projectionId
  simp only [Cell.Holds, cell, entry] at held stamped ⊢
  rw [references] at stamped
  rw [remote]
  exact held stamped

theorem deliver_faithful (faithful : mirror.Faithful wanted) :
    (mirror.deliver repository now replies).1.Faithful wanted where
  deltas := by
    intro projectionId pending found
    rcases (deliver_step faithful projectionId).2 with gone | kept
    · exact absurd (found.symm.trans gone.1) (by simp)
    · exact faithful.deltas projectionId pending (kept.1.symm.trans found)
  sound := by
    intro projectionId
    rcases (deliver_step faithful projectionId).1 with step | same
    · exact step.sound (faithful.sound projectionId)
    · rw [same]
      exact faithful.sound projectionId
  within := by
    intro projectionId
    rcases (deliver_step faithful projectionId).1 with step | same
    · exact step.within (faithful.within projectionId) (faithful.within projectionId).wanted
    · rw [same]
      exact faithful.within projectionId

theorem deliver_holds (faithful : mirror.Faithful wanted) (holds : mirror.HoldsAll wanted)
    (atomic : replies.DeletesAtomically) :
    (mirror.deliver repository now replies).1.HoldsAll wanted := by
  intro projectionId
  rcases (deliver_step faithful projectionId).1 with step | same
  · rw [eq_true atomic] at step
    exact step.holds (holds projectionId)
  · rw [same]
    exact holds projectionId

/-- A delivery without failures leaves no delta. -/
theorem deliver_clean (faithful : mirror.Faithful wanted)
    (clean : (mirror.deliver repository now replies).2.failed = []) :
    (mirror.deliver repository now replies).1.deltas = ∅ := by
  apply Dict.ext
  intro projectionId
  rw [Dict.get_empty]
  rcases (deliver_step faithful projectionId).2 with gone | ⟨_, failed⟩
  · exact gone.1
  · simp only [deliverEntry, clean] at failed
    cases failed

/-- What is applied is reported once. -/
theorem applyDelta_ids (state : Mirror × SyncReport) (delta : PendingProjectionDelta) :
    (applyDelta repository now replies known state delta).2.ids.Perm
      (state.2.ids ++ [delta.projectionId]) := by
  apply List.perm_iff_count.mpr
  intro projectionId
  rw [applyDelta]
  cases delta.record with
  | none =>
      simp only [applyDelete]
      cases replies.delete delta.projectionId <;>
        simp only [SyncReport.ids, List.count_append, List.map_append, List.map_cons,
          List.map_nil] <;> omega
  | some record =>
      simp only [applyUpsert, failWrite]
      split
      · simp only [SyncReport.ids, List.count_append]
        omega
      · cases replies.upsert delta.projectionId with
        | raised failure stored =>
            simp only [SyncReport.ids, List.count_append, List.map_append, List.map_cons,
              List.map_nil]
            omega
        | answered result =>
            simp only
            split
            · cases known[delta.projectionId]? <;>
                simp only [SyncReport.ids, List.count_append, Option.isSome, Bool.false_eq_true,
                  if_true, if_false] <;> omega
            · simp only [SyncReport.ids, List.count_append, List.map_append, List.map_cons,
                List.map_nil]
              omega

theorem foldl_ids (items : List PendingProjectionDelta) (state : Mirror × SyncReport) :
    (items.foldl (applyDelta repository now replies known) state).2.ids.Perm
      (state.2.ids ++ items.map PendingProjectionDelta.projectionId) := by
  induction items generalizing state with
  | nil => simp
  | cons item rest inductionHypothesis =>
      have step : (applyDelta repository now replies known state item).2.ids.Perm _ :=
        applyDelta_ids state item
      have longer := step.append_right (rest.map PendingProjectionDelta.projectionId)
      rw [List.append_assoc] at longer
      exact (inductionHypothesis _).trans longer

/-- A delivery reports every delta once, and the deltas that are left are those that have
failed. -/
theorem deliver_report (faithful : mirror.Faithful wanted) (waiting : mirror.deltas ≠ ∅) :
    (mirror.deliver repository now replies).2.ids.Perm mirror.deltas.keys ∧
      ∀ projectionId : String, (mirror.deliver repository now replies).1.deltas[projectionId]? =
        if projectionId ∈ (mirror.deliver repository now replies).2.failed.map
            SyncFailure.projectionId then mirror.deltas[projectionId]?
        else none := by
  constructor
  · have pending : Dict.values mirror.deltas ≠ [] := by
      intro idle
      apply waiting
      apply Dict.ext
      intro projectionId
      rw [Dict.get_empty]
      refine Option.eq_none_iff_forall_ne_some.mpr fun delta found => ?_
      have listed := (Dict.mem_values mirror.deltas delta).mpr ⟨projectionId, found⟩
      rw [idle] at listed
      cases listed
    have all : ((Dict.values mirror.deltas).foldl (applyDelta repository now replies
        mirror.references) (mirror, .empty)).2.ids.Perm _ := foldl_ids _ _
    rw [values_ids mirror.deltas PendingProjectionDelta.projectionId faithful.deltas] at all
    rw [deliver]
    simp only [if_neg pending]
    exact all
  · intro projectionId
    have settled : Settled (mirror, .empty) (mirror.deliver repository now replies) projectionId :=
      (deliver_step faithful projectionId).2
    have failed : projectionId ∈ (mirror.deliver repository now replies).2.failed.map
        SyncFailure.projectionId ↔
        (deliverEntry (mirror.deliver repository now replies) projectionId).2 = true := by
      simp [deliverEntry]
    rcases settled with ⟨gone, unmarked⟩ | ⟨kept, marked⟩
    · rw [if_neg fun listed => absurd ((failed.mp listed).symm.trans unmarked)
        (by simp [deliverEntry, SyncReport.empty])]
      exact gone
    · rw [if_pos (failed.mpr marked)]
      exact kept

/-- With no delta, nothing is called, and everything that is projected is acknowledged. -/
theorem deliver_idle (faithful : mirror.Faithful wanted) (idle : mirror.deltas = ∅)
    (repository now : String) (replies : Replies) :
    mirror.deliver repository now replies =
      (mirror, { SyncReport.empty with unchanged := wanted.keys }) := by
  have pending : Dict.values mirror.deltas = [] := by
    rw [idle]
    simp [Dict.values]
  have known : mirror.references.keys = wanted.keys := by
    refine eq_of_strictly_sorted mirror.references.keys_sorted wanted.keys_sorted ?_
    intro projectionId
    have settled := (faithful.sound projectionId).settled (by simp [cell, entry, idle])
    rw [Dict.mem_keys, Dict.mem_keys, ← Option.isSome_iff_exists, ← Option.isSome_iff_exists]
    have same := congrArg Option.isSome settled
    simp only [cell, entry, Option.isSome_map] at same
    rw [same]
  rw [deliver]
  simp only [if_pos pending, known]

/-- Where nothing is pending, the repository holds no record but the one that is wanted. -/
theorem Faithful.current_of_idle (faithful : mirror.Faithful wanted)
    (collisionFree : CollisionFree) {projectionId : String} {record : RetrievalRecord}
    (idle : mirror.deltas[projectionId]? = none)
    (held : mirror.remote[projectionId]? = some record) : wanted[projectionId]? = some record := by
  have unpending : (mirror.cell wanted projectionId).pending = none := by
    simp [cell, entry, idle]
  rcases (faithful.sound projectionId).current unpending held with
    ⟨wantedRecord, isWanted, sameStamp⟩
  have sameId := ((faithful.within projectionId).remote record held).trans
    ((faithful.within projectionId).wanted wantedRecord isWanted).symm
  rw [stampOf_injective collisionFree sameStamp sameId]
  exact isWanted

/-- Where nothing is pending and deletions are atomic, it holds the record that is wanted. -/
theorem Faithful.complete_of_idle (faithful : mirror.Faithful wanted)
    (collisionFree : CollisionFree) (holds : mirror.HoldsAll wanted) {projectionId : String}
    {record : RetrievalRecord} (idle : mirror.deltas[projectionId]? = none)
    (isWanted : wanted[projectionId]? = some record) :
    mirror.remote[projectionId]? = some record := by
  have unpending : (mirror.cell wanted projectionId).pending = none := by
    simp [cell, entry, idle]
  rcases (faithful.sound projectionId).complete (holds projectionId) unpending isWanted with
    ⟨heldRecord, held, _⟩
  have same := faithful.current_of_idle collisionFree idle held
  rw [isWanted] at same
  exact held.trans same.symm

/-- With no delta left, the repository holds nothing but the records that are wanted. -/
theorem Faithful.current (faithful : mirror.Faithful wanted) (collisionFree : CollisionFree)
    (done : mirror.deltas = ∅) {projectionId : String} {record : RetrievalRecord}
    (held : mirror.remote[projectionId]? = some record) : wanted[projectionId]? = some record :=
  faithful.current_of_idle collisionFree (by rw [done, Dict.get_empty]) held

/-- Where deletions are atomic, it holds them all. -/
theorem Faithful.complete (faithful : mirror.Faithful wanted) (collisionFree : CollisionFree)
    (holds : mirror.HoldsAll wanted) (done : mirror.deltas = ∅) : mirror.remote = wanted := by
  apply Dict.ext
  intro projectionId
  have idle : mirror.deltas[projectionId]? = none := by rw [done, Dict.get_empty]
  cases isWanted : wanted[projectionId]? with
  | none =>
      cases held : mirror.remote[projectionId]? with
      | none => rfl
      | some record =>
          rw [faithful.current_of_idle collisionFree idle held] at isWanted
          cases isWanted
  | some record => exact faithful.complete_of_idle collisionFree holds idle isWanted

end Mirror

/-! ## Runs -/

/-- A deletion that raises during the call has not been carried out. -/
def ServiceCall.DeletesAtomically {nameSpace : String} : ServiceCall nameSpace → Prop
  | .synchronize _ replies => replies.DeletesAtomically
  | _ => True

namespace Installation

variable {codec : CheckpointCodec} {repository nameSpace : String} {installation : Installation}

/-- The mirror is faithful to some projection, and with atomic deletions it holds whatever
is acknowledged. -/
def Mirrors (installation : Installation) (atomic : Prop) : Prop :=
  ∃ wanted, installation.mirror.Faithful wanted ∧ (atomic → installation.mirror.HoldsAll wanted)

theorem materialize_of_delta {memory : Memory} {state : MemoryState}
    {delta : MaterializationDelta}
    (materialized : (memory.materializeWithDelta codec none).1 = .ok (state, delta)) :
    (memory.materialize codec .default).1 = .ok state ∧ delta.fullRebuild = true := by
  unfold Memory.materializeWithDelta at materialized
  split at materialized
  · rw [map_ok_iff] at materialized
    rcases materialized with ⟨found, isFound, same⟩
    injection same with sameState sameDelta
    rw [← sameState, ← sameDelta]
    exact ⟨isFound, rfl⟩
  · rename_i canonical
    rw [map_ok_iff] at materialized
    rcases materialized with ⟨found, isFound, same⟩
    injection same with sameState sameDelta
    rw [← sameState, ← sameDelta]
    refine ⟨?_, rfl⟩
    have detectors : memory.conflictDetectors = [] := not_not.mp canonical
    have isCanonical : memory.isCanonical .default = true := by
      simp [Memory.isCanonical, Memory.detectors, Memory.Arguments.default, detectors]
    rw [Memory.materialize, if_pos isCanonical]
    exact isFound

/-- A service that has just been started refreshes from the whole state. -/
theorem refresh_of_started {cursor : Nat} {next : Installation}
    (refreshed : installation.refresh codec nameSpace none = (.ok cursor, next)) :
    ∃ state delta, (installation.memory.materialize codec .default).1 = .ok state ∧
      delta.fullRebuild = true ∧
      next.mirror = installation.mirror.refresh nameSpace state delta := by
  unfold refresh at refreshed
  split at refreshed
  · injection refreshed with failed
    cases failed
  · rename_i state delta memory materialized
    injection refreshed with _ same
    rw [← same]
    have ⟨isState, rebuilds⟩ := materialize_of_delta (congrArg Prod.fst materialized)
    exact ⟨state, delta, isState, rebuilds, rfl⟩

theorem refresh_mirrors (codec : CheckpointCodec) (nameSpace : String) {atomic : Prop}
    (mirrors : installation.Mirrors atomic) :
    (installation.refresh codec nameSpace none).2.Mirrors atomic := by
  rcases mirrors with ⟨wanted, faithful, holds⟩
  rcases refreshed : installation.refresh codec nameSpace none with ⟨result, next⟩
  cases result with
  | error failure =>
      have same : next.mirror = installation.mirror := by
        unfold refresh at refreshed
        split at refreshed
        · injection refreshed with _ same
          rw [← same]
        · cases refreshed
      exact ⟨wanted, same ▸ faithful, fun isAtomic => same ▸ holds isAtomic⟩
  | ok cursor =>
      have ⟨state, delta, _, rebuilds, same⟩ := refresh_of_started refreshed
      exact ⟨_, same ▸ Mirror.refresh_faithful faithful rebuilds,
        fun isAtomic => same ▸ (holds isAtomic).refresh _ _ _ _⟩

theorem search_mirror [WordSplitting] (codec : CheckpointCodec) (installation : Installation)
    (request : SearchRequest)
    (reply : Except AdapterFailure (List SearchHit)) :
    (installation.search codec none request reply).2.mirror =
      (installation.refresh codec request.nameSpace none).2.mirror := by
  unfold search
  split
  · rename_i refreshed
    rw [refreshed]
  · rename_i refreshed
    rw [refreshed]

theorem synchronize_mirrors {atomic : Prop} (mirrors : installation.Mirrors atomic)
    (now : String) {replies : Replies} (isAtomic : atomic → replies.DeletesAtomically) :
    (installation.synchronize codec repository nameSpace none now replies).2.Mirrors atomic := by
  have refreshed := refresh_mirrors codec nameSpace mirrors
  unfold synchronize
  rcases found : installation.refresh codec nameSpace none with ⟨result, next⟩
  rw [found] at refreshed
  cases result with
  | error failure => exact refreshed
  | ok cursor =>
      rcases refreshed with ⟨wanted, faithful, holds⟩
      exact ⟨wanted, Mirror.deliver_faithful faithful, fun given =>
        Mirror.deliver_holds faithful (holds given) (isAtomic given)⟩

theorem after_mirrors [WordSplitting] {atomic : Prop} (mirrors : installation.Mirrors atomic)
    (call : ServiceCall nameSpace) (isAtomic : atomic → call.DeletesAtomically) :
    (installation.after codec repository nameSpace call).Mirrors atomic := by
  cases call with
  | memory call => exact mirrors
  | search request reply =>
      rcases refresh_mirrors codec request.val.nameSpace mirrors with
        ⟨wanted, faithful, holds⟩
      have same := search_mirror codec installation request.val reply
      exact ⟨wanted, same.symm ▸ faithful, fun given => same.symm ▸ holds given⟩
  | synchronize now replies => exact synchronize_mirrors mirrors now isAtomic

theorem run_mirrors [WordSplitting] {atomic : Prop} (mirrors : installation.Mirrors atomic)
    (calls : List (ServiceCall nameSpace))
    (isAtomic : atomic → ∀ call ∈ calls, call.DeletesAtomically) :
    (installation.run codec repository nameSpace calls).Mirrors atomic := by
  induction calls generalizing installation with
  | nil => exact mirrors
  | cons call rest inductionHypothesis =>
      exact inductionHypothesis
        (after_mirrors mirrors call fun given => isAtomic given call List.mem_cons_self)
        fun given later member => isAtomic given later (List.mem_cons_of_mem _ member)

theorem run_empty_mirrors [WordSplitting] (codec : CheckpointCodec) (repository : String)
    (memory : Memory) (calls : List (ServiceCall nameSpace)) :
    (run codec repository nameSpace ⟨memory, .empty⟩ calls).Mirrors
      (∀ call ∈ calls, call.DeletesAtomically) := by
  refine run_mirrors ⟨∅, Mirror.empty_faithful, fun _ projectionId => ?_⟩ calls id
  intro stamped
  simp [Mirror.cell, Mirror.entry, Mirror.empty] at stamped

/-- What a service that has just been started synchronizes. -/
theorem synchronize_of_started {now : String} {replies : Replies} {cursor : Nat}
    {report : SyncReport} {next : Installation}
    (returned : installation.synchronize codec repository nameSpace none now replies =
      (.ok (cursor, report), next)) :
    ∃ state delta, (installation.memory.materialize codec .default).1 = .ok state ∧
      delta.fullRebuild = true ∧
      (installation.mirror.refresh nameSpace state delta).deliver repository now replies =
        (next.mirror, report) := by
  unfold synchronize at returned
  split at returned
  · injection returned with failed
    cases failed
  · rename_i refreshed
    have ⟨state, delta, isState, rebuilds, same⟩ := refresh_of_started refreshed
    injection returned with result isNext
    injection result with result
    injection result with _ isReport
    rw [same] at isReport isNext
    refine ⟨state, delta, isState, rebuilds, ?_⟩
    rw [← isNext, ← isReport]

/-- Whatever has been raised during a run from empty stores, and whether it has taken effect
or not: after a synchronization without failures nothing is pending, and the repository
holds nothing but the records of the current state.  Where deletions that raise are not
carried out, it holds all of them. -/
theorem synchronize_converges [WordSplitting] (collisionFree : CollisionFree) (memory : Memory)
    (calls : List (ServiceCall nameSpace)) (now : String) (replies : Replies) {cursor : Nat}
    {report : SyncReport} {next : Installation}
    (returned : (run codec repository nameSpace ⟨memory, .empty⟩ calls).synchronize codec
      repository nameSpace none now replies = (.ok (cursor, report), next))
    (clean : report.failed = []) :
    ∃ state, ((run codec repository nameSpace ⟨memory, .empty⟩ calls).memory.materialize codec
        .default).1 = .ok state ∧
      next.mirror.deltas = ∅ ∧
      (∀ (projectionId : String) (record : RetrievalRecord),
        next.mirror.remote[projectionId]? = some record →
          (projected state nameSpace)[projectionId]? = some record) ∧
      ((∀ call ∈ calls, call.DeletesAtomically) → replies.DeletesAtomically →
        next.mirror.remote = projected state nameSpace) := by
  rcases run_empty_mirrors codec repository memory calls with ⟨wanted, faithful, holds⟩
  rcases synchronize_of_started returned with ⟨state, delta, isState, rebuilds, delivered⟩
  generalize (run codec repository nameSpace ⟨memory, .empty⟩ calls).mirror = mirror
    at faithful holds delivered
  have faithfulNow : (mirror.refresh nameSpace state delta).Faithful (projected state nameSpace) :=
    Mirror.refresh_faithful faithful rebuilds
  have faithfulNext : next.mirror.Faithful (projected state nameSpace) := by
    have after : ((mirror.refresh nameSpace state delta).deliver repository now
        replies).1.Faithful _ := Mirror.deliver_faithful faithfulNow
    rw [delivered] at after
    exact after
  have done : next.mirror.deltas = ∅ := by
    have idle : ((mirror.refresh nameSpace state delta).deliver repository now
        replies).1.deltas = ∅ := Mirror.deliver_clean faithfulNow (by rw [delivered]; exact clean)
    rw [delivered] at idle
    exact idle
  refine ⟨state, isState, done, fun projectionId record =>
    faithfulNext.current collisionFree done, fun atomic last => ?_⟩
  have held : ((mirror.refresh nameSpace state delta).deliver repository now
      replies).1.HoldsAll _ :=
    Mirror.deliver_holds faithfulNow ((holds atomic).refresh _ _ _ _) last
  rw [delivered] at held
  exact faithfulNext.complete collisionFree held done

/-- The delta of a service that has just been started. -/
def started : MaterializationDelta := { MaterializationDelta.empty with fullRebuild := true }

/-- In every run, what a synchronization finds pending after its refresh is reported once,
and it stays pending where it is reported as failed, and nowhere else. -/
theorem synchronize_reports [WordSplitting] (memory : Memory)
    (calls : List (ServiceCall nameSpace)) (now : String) (replies : Replies) {cursor : Nat}
    {report : SyncReport} {next : Installation}
    (returned : (run codec repository nameSpace ⟨memory, .empty⟩ calls).synchronize codec
      repository nameSpace none now replies = (.ok (cursor, report), next)) :
    ∃ state refreshed, ((run codec repository nameSpace ⟨memory, .empty⟩ calls).memory.materialize
        codec .default).1 = .ok state ∧
      refreshed = (run codec repository nameSpace ⟨memory, .empty⟩ calls).mirror.refresh nameSpace
        state started ∧
      (refreshed.deltas = ∅ → next.mirror = refreshed ∧
        report = { SyncReport.empty with unchanged := (projected state nameSpace).keys }) ∧
      (refreshed.deltas ≠ ∅ → report.ids.Perm refreshed.deltas.keys ∧
        ∀ projectionId : String, next.mirror.deltas[projectionId]? =
          if projectionId ∈ report.failed.map SyncFailure.projectionId then
            refreshed.deltas[projectionId]?
          else none) := by
  rcases run_empty_mirrors codec repository memory calls with ⟨wanted, faithful, _⟩
  rcases synchronize_of_started returned with ⟨state, delta, isState, rebuilds, delivered⟩
  generalize (run codec repository nameSpace ⟨memory, .empty⟩ calls).mirror = mirror
    at faithful delivered ⊢
  have sameDelta :
      mirror.refresh nameSpace state delta = mirror.refresh nameSpace state started := by
    rw [Mirror.refresh_of_full rebuilds, Mirror.refresh_of_full rfl]
  have faithfulNow : (mirror.refresh nameSpace state delta).Faithful (projected state nameSpace) :=
    Mirror.refresh_faithful faithful rebuilds
  rw [sameDelta] at delivered faithfulNow
  refine ⟨state, _, isState, rfl, fun idle => ?_, fun waiting => ?_⟩
  · have unchanged := Mirror.deliver_idle faithfulNow idle repository now replies
    rw [delivered] at unchanged
    exact Prod.mk.inj unchanged
  · have reported : ((mirror.refresh nameSpace state started).deliver repository now
        replies).2.ids.Perm _ ∧ _ := Mirror.deliver_report faithfulNow waiting
    rw [delivered] at reported
    exact reported

end Installation

end Runs

/-! ## A claim that is written at the second attempt -/

section Example

attribute [local instance] Reference.runtime plainWords

namespace Installation

/-- Every call is answered. -/
private def answering : Replies where
  upsert projectionId := .answered ⟨"r", projectionId, "x", true, ∅⟩
  delete _ := .answered true

/-- Every call raises; the writes have taken effect. -/
private def raising : Replies where
  upsert _ := .raised ⟨"E", ""⟩ true
  delete _ := .raised ⟨"E", ""⟩ false

/-- A memory with one claim has been synchronized once, and every call has raised. -/
private def interrupted : List (ServiceCall Reference.key.nameSpace) :=
  [.synchronize "t" raising]

private def repeated : Result (Nat × SyncReport) × Installation :=
  (run Memory.blankCodec "r" Reference.key.nameSpace ⟨Memory.withOne, .empty⟩
    interrupted).synchronize Memory.blankCodec "r" Reference.key.nameSpace none "t" answering

private def created : Option (Nat × Nat × Nat) :=
  repeated.1.toOption.map fun returned =>
    (returned.2.failed.length, returned.2.created.length, repeated.2.mirror.remote.size)

/-- The claim is written at the second attempt. -/
theorem synchronize_converges_repeated :
    ∃ state report, repeated.1.toOption.map Prod.snd = some report ∧ report.created.length = 1 ∧
      repeated.2.mirror.remote = projected state Reference.key.nameSpace ∧
      repeated.2.mirror.remote.size = 1 := by
  have computed : created = some (0, 1, 1) := by decide +kernel
  unfold created at computed
  cases returned : repeated.1 with
  | error failure =>
      rw [returned] at computed
      cases computed
  | ok result =>
      rw [returned] at computed
      injection computed with computed
      simp only [Prod.mk.injEq] at computed
      rcases synchronize_converges Reference.collisionFree Memory.withOne interrupted "t" answering
        (Prod.ext returned rfl) (List.length_eq_zero_iff.mp computed.1) with
        ⟨state, _, _, _, complete⟩
      refine ⟨state, result.2, rfl, computed.2.1, complete ?_ ?_, computed.2.2⟩
      · intro call member
        rw [List.mem_singleton.mp member]
        intro projectionId failure removed raised
        cases raised
        rfl
      · intro projectionId failure removed raised
        cases raised

private def attempted : Result (Nat × SyncReport) × Installation :=
  (run Memory.blankCodec "r" Reference.key.nameSpace ⟨Memory.withOne, .empty⟩ []).synchronize
    Memory.blankCodec "r" Reference.key.nameSpace none "t" raising

private def kept : Option (Nat × Nat) :=
  attempted.1.toOption.map fun returned =>
    (returned.2.failed.length, attempted.2.mirror.deltas.size)

/-- The claim whose write has failed stays pending. -/
theorem synchronize_reports_failed :
    ∃ report refreshed, attempted.1.toOption.map Prod.snd = some report ∧
      report.failed.length = 1 ∧ attempted.2.mirror.deltas.size = 1 ∧
      (refreshed : Mirror).deltas ≠ ∅ ∧ report.ids.Perm refreshed.deltas.keys := by
  have computed : kept = some (1, 1) := by decide +kernel
  unfold kept at computed
  cases returned : attempted.1 with
  | error failure =>
      rw [returned] at computed
      cases computed
  | ok result =>
      rw [returned] at computed
      injection computed with computed
      simp only [Prod.mk.injEq] at computed
      rcases synchronize_reports Memory.withOne [] "t" raising (Prod.ext returned rfl) with
        ⟨_, refreshed, _, _, idle, waiting⟩
      have pending : refreshed.deltas ≠ ∅ := by
        intro none
        have unfailed := congrArg SyncReport.failed (idle none).2
        rw [unfailed] at computed
        exact absurd computed.1 (by simp [SyncReport.empty])
      exact ⟨result.2, refreshed, rfl, computed.1, computed.2, pending, (waiting pending).1⟩

end Installation

end Example

end Statefuse
