import Statefuse.Integrations.Fake
import Statefuse.Integrations.Search

/-!
# Recovery

A service with the repository in memory is a service in the sense of the other modules,
whose deletions are atomic: what the repository answers one after another could have been
known before (`deliverTo_recorded`, `run_serves`).  So it recovers from every history of
failures (`synchronize_recovers`).
-/

namespace Statefuse

open Foundation

section Theory

variable [Runtime]

namespace FakeMemoryRepositoryAdapter

variable {fake next : FakeMemoryRepositoryAdapter} {operation : String}

omit [Runtime] in
/-- A check changes nothing but the injected failures. -/
theorem check_records (fake : FakeMemoryRepositoryAdapter) (operation : String) :
    (fake.check operation).2.records = fake.records := by
  have raised : (fake.raiseInjected operation).2.records = fake.records := by
    unfold raiseInjected
    split
    · rfl
    · rfl
  unfold check
  split
  · rename_i found
    rw [found] at raised
    exact raised
  · rename_i found
    rw [found] at raised
    split
    · exact raised
    · exact raised

/-- The repository can be reached, and no failure of a write or a deletion is waiting. -/
structure Healthy (fake : FakeMemoryRepositoryAdapter) : Prop where
  available : fake.available = true
  upserts : fake.failures["upsert"]?.getD [] = []
  deletions : fake.failures["delete"]?.getD [] = []

omit [Runtime] in
theorem check_of_idle (available : fake.available = true)
    (idle : fake.failures[operation]?.getD [] = []) : fake.check operation = (.ok (), fake) := by
  rw [check, raiseInjected, idle]
  simp only [available, if_true]

theorem upsert_cases (fake : FakeMemoryRepositoryAdapter) (record : RetrievalRecord) :
    (∃ failure, (fake.upsert record).1 = .error failure ∧
      (fake.upsert record).2.records = fake.records) ∨
    ∃ result, (fake.upsert record).1 = .ok result ∧
      ∀ nameSpace projectionId, (fake.upsert record).2.view nameSpace projectionId =
        if record.nameSpace = nameSpace ∧ record.projectionId = projectionId then
          some (PyEq.key record)
        else fake.view nameSpace projectionId := by
  have same := fake.check_records "upsert"
  unfold upsert
  rcases checked : fake.check "upsert" with ⟨answer, next⟩
  rw [checked] at same
  simp only at same
  cases answer with
  | error failure => exact Or.inl ⟨failure, rfl, same⟩
  | ok _ =>
      refine Or.inr ⟨_, rfl, ?_⟩
      intro nameSpace projectionId
      simp only [view, same]
      have pair : toLex (record.nameSpace, record.projectionId) = toLex (nameSpace, projectionId) ↔
          record.nameSpace = nameSpace ∧ record.projectionId = projectionId := by
        rw [toLex_inj, Prod.mk.injEq]
      split
      · rename_i duplicate
        obtain ⟨previous, found, equal⟩ := (Option.any_eq_true _ _).mp duplicate
        by_cases here : record.nameSpace = nameSpace ∧ record.projectionId = projectionId
        · rw [if_pos here, ← pair.mpr here]
          simp only [found, Option.map_some, pyEq_iff.mp equal]
        · rw [if_neg here]
      · by_cases here : record.nameSpace = nameSpace ∧ record.projectionId = projectionId
        · rw [if_pos here, ← pair.mpr here, Dict.get_insert_self, Option.map_some]
        · rw [if_neg here, Dict.get_insert_of_ne _ (fun equal => here (pair.mp equal))]

omit [Runtime] in
theorem delete_cases (fake : FakeMemoryRepositoryAdapter) (deleted inside : String) :
    (∃ failure, (fake.delete deleted inside).1 = .error failure ∧
      (fake.delete deleted inside).2.records = fake.records) ∨
    ∃ existed, (fake.delete deleted inside).1 = .ok existed ∧
      ∀ nameSpace projectionId, (fake.delete deleted inside).2.view nameSpace projectionId =
        if inside = nameSpace ∧ deleted = projectionId then none
        else fake.view nameSpace projectionId := by
  have same := fake.check_records "delete"
  unfold delete
  rcases checked : fake.check "delete" with ⟨answer, next⟩
  rw [checked] at same
  simp only at same
  cases answer with
  | error failure => exact Or.inl ⟨failure, rfl, same⟩
  | ok _ =>
      refine Or.inr ⟨_, rfl, ?_⟩
      intro nameSpace projectionId
      have pair : toLex (inside, deleted) = toLex (nameSpace, projectionId) ↔
          inside = nameSpace ∧ deleted = projectionId := by
        rw [toLex_inj, Prod.mk.injEq]
      simp only [view, same, Dict.get_erase, pair]
      split
      · rfl
      · rfl

theorem upsert_healthy (healthy : fake.Healthy) (record : RetrievalRecord) :
    (fake.upsert record).2.Healthy ∧ ∃ result, (fake.upsert record).1 = .ok result ∧
      Mirror.isWriteOf name record.projectionId result = true := by
  rw [upsert, check_of_idle healthy.available healthy.upserts]
  constructor
  · simp only
    split
    · exact ⟨healthy.available, healthy.upserts, healthy.deletions⟩
    · exact ⟨healthy.available, healthy.upserts, healthy.deletions⟩
  · refine ⟨_, rfl, ?_⟩
    rw [Mirror.isWriteOf, decide_eq_true_eq]
    refine ⟨rfl, rfl, ?_⟩
    intro none
    exact absurd (String.append_eq_empty_iff.mp none).1 (by decide)

omit [Runtime] in
theorem delete_healthy (healthy : fake.Healthy) (projectionId nameSpace : String) :
    (fake.delete projectionId nameSpace).2.Healthy ∧
      ∃ existed, (fake.delete projectionId nameSpace).1 = .ok existed := by
  rw [delete, check_of_idle healthy.available healthy.deletions]
  exact ⟨⟨healthy.available, healthy.upserts, healthy.deletions⟩, _, rfl⟩

end FakeMemoryRepositoryAdapter

/-! ## Going through the deltas -/

/-- The answers of one repository for one projection id, and of another for the others. -/
def Replies.before (first later : Replies) (projectionId : String) : Replies where
  upsert other := if other = projectionId then first.upsert other else later.upsert other
  delete other := if other = projectionId then first.delete other else later.delete other

namespace Mirror

variable {mirror : Mirror} {now nameSpace : String} {known : Dict String ExternalReference}
  {wanted : Dict String RetrievalRecord} {fake : FakeMemoryRepositoryAdapter}
  {state : (Mirror × SyncReport) × FakeMemoryRepositoryAdapter} {delta : PendingProjectionDelta}

/-- The repository holds what the mirror says, as `==` sees it. -/
def Agrees (mirror : Mirror) (nameSpace : String) (fake : FakeMemoryRepositoryAdapter) : Prop :=
  ∀ projectionId : String,
    fake.view nameSpace projectionId = mirror.remote[projectionId]?.map PyEq.key

omit [Runtime] in
theorem Agrees.of_records {next : FakeMemoryRepositoryAdapter}
    (agrees : mirror.Agrees nameSpace fake) (same : next.records = fake.records) :
    mirror.Agrees nameSpace next := by
  intro projectionId
  rw [FakeMemoryRepositoryAdapter.view, same]
  exact agrees projectionId

/-- The delta carries a record of the namespace under its own projection id. -/
def Places (nameSpace : String) (delta : PendingProjectionDelta) : Prop :=
  ∀ record, delta.record = some record →
    record.nameSpace = nameSpace ∧ record.projectionId = delta.projectionId

theorem applyDeltaTo_agrees (agrees : state.1.1.Agrees nameSpace state.2)
    (places : Places nameSpace delta) :
    (applyDeltaTo now nameSpace known state delta).1.1.Agrees nameSpace
      (applyDeltaTo now nameSpace known state delta).2 := by
  cases recorded : delta.record with
  | none =>
      rcases state.2.delete_cases delta.projectionId nameSpace with
        ⟨failure, answer, same⟩ | ⟨existed, answer, views⟩
      · simp only [applyDeltaTo, applyDelta, recorded, applyDelete,
          FakeMemoryRepositoryAdapter.replies, answer, DeleteReply.ofAnswer,
          FakeMemoryRepositoryAdapter.afterDelta, Bool.false_eq_true, if_false]
        exact agrees.of_records same
      · simp only [applyDeltaTo, applyDelta, recorded, applyDelete,
          FakeMemoryRepositoryAdapter.replies, answer, DeleteReply.ofAnswer,
          FakeMemoryRepositoryAdapter.afterDelta]
        intro projectionId
        rw [views, Dict.get_erase]
        by_cases here : delta.projectionId = projectionId
        · rw [if_pos ⟨rfl, here⟩, if_pos here, Option.map_none]
        · rw [if_neg (fun both => here both.2), if_neg here]
          exact agrees projectionId
  | some record =>
      obtain ⟨inside, own⟩ := places record recorded
      by_cases acknowledged : isAcknowledged known[delta.projectionId]? record = true
      · simp only [applyDeltaTo, applyDelta, recorded, applyUpsert, acknowledged, if_true,
          FakeMemoryRepositoryAdapter.afterDelta]
        exact agrees
      · rcases state.2.upsert_cases record with ⟨failure, answer, same⟩ | ⟨result, answer, views⟩
        · simp only [applyDeltaTo, applyDelta, recorded, applyUpsert, acknowledged,
            FakeMemoryRepositoryAdapter.replies, answer, UpsertReply.ofAnswer, failWrite,
            FakeMemoryRepositoryAdapter.afterDelta, Bool.false_eq_true, if_false]
          exact agrees.of_records same
        · have written : ∀ other : Mirror,
              other.remote = state.1.1.remote.insert delta.projectionId record →
              other.Agrees nameSpace (state.2.upsert record).2 := by
            intro other stored projectionId
            rw [views, stored, Dict.get_insert, inside, own]
            by_cases here : delta.projectionId = projectionId
            · rw [if_pos ⟨rfl, here⟩, if_pos here, Option.map_some]
            · rw [if_neg (fun both => here both.2), if_neg here]
              exact agrees projectionId
          simp only [applyDeltaTo, applyDelta, recorded, applyUpsert, acknowledged,
            FakeMemoryRepositoryAdapter.replies, answer, UpsertReply.ofAnswer, failWrite,
            FakeMemoryRepositoryAdapter.afterDelta, Bool.false_eq_true, if_false]
          apply written
          split
          · rfl
          · rfl

/-- Nothing fails while the repository is healthy. -/
theorem applyDeltaTo_healthy (healthy : state.2.Healthy) (places : Places nameSpace delta) :
    (applyDeltaTo now nameSpace known state delta).2.Healthy ∧
      (applyDeltaTo now nameSpace known state delta).1.2.failed = state.1.2.failed := by
  cases recorded : delta.record with
  | none =>
      obtain ⟨still, existed, answer⟩ :=
        FakeMemoryRepositoryAdapter.delete_healthy healthy delta.projectionId nameSpace
      simp only [applyDeltaTo, applyDelta, recorded, applyDelete,
        FakeMemoryRepositoryAdapter.replies, answer, DeleteReply.ofAnswer,
        FakeMemoryRepositoryAdapter.afterDelta]
      exact ⟨still, trivial⟩
  | some record =>
      obtain ⟨still, result, answer, valid⟩ :=
        FakeMemoryRepositoryAdapter.upsert_healthy healthy record
      rw [(places record recorded).2] at valid
      by_cases acknowledged : isAcknowledged known[delta.projectionId]? record = true
      · simp only [applyDeltaTo, applyDelta, recorded, applyUpsert, acknowledged, if_true,
          FakeMemoryRepositoryAdapter.afterDelta]
        exact ⟨healthy, trivial⟩
      · simp only [applyDeltaTo, applyDelta, recorded, applyUpsert, acknowledged,
          FakeMemoryRepositoryAdapter.replies, answer, UpsertReply.ofAnswer, valid, if_true,
          FakeMemoryRepositoryAdapter.afterDelta, Bool.false_eq_true, if_false]
        refine ⟨still, ?_⟩
        split
        · rfl
        · rfl

/-! ## The answers of a whole delivery -/

theorem applyDelta_congr {repository : String} {first second : Replies}
    (upserts : first.upsert delta.projectionId = second.upsert delta.projectionId)
    (deletions : first.delete delta.projectionId = second.delete delta.projectionId)
    (step : Mirror × SyncReport) :
    applyDelta repository now first known step delta =
      applyDelta repository now second known step delta := by
  cases recorded : delta.record with
  | none => simp only [applyDelta, recorded, applyDelete, deletions]
  | some record => simp only [applyDelta, recorded, applyUpsert, upserts]

theorem replies_atomic (fake : FakeMemoryRepositoryAdapter) (nameSpace : String)
    (delta : PendingProjectionDelta) : (fake.replies nameSpace delta).DeletesAtomically := by
  intro projectionId failure removed raised
  simp only [FakeMemoryRepositoryAdapter.replies] at raised
  cases answer : (fake.delete projectionId nameSpace).1 with
  | ok existed =>
      rw [answer] at raised
      cases raised
  | error failure =>
      rw [answer] at raised
      injection raised with _ same
      exact same.symm

/-- What the repository answers one after another could have been known before. -/
theorem foldl_recorded (items : List PendingProjectionDelta)
    (distinct : (items.map PendingProjectionDelta.projectionId).Nodup)
    (state : (Mirror × SyncReport) × FakeMemoryRepositoryAdapter) :
    ∃ replies : Replies, replies.DeletesAtomically ∧
      (items.foldl (applyDeltaTo now nameSpace known) state).1 =
        items.foldl (applyDelta FakeMemoryRepositoryAdapter.name now replies known) state.1 := by
  induction items generalizing state with
  | nil =>
      refine ⟨⟨fun other => .raised ⟨"", other⟩ false, fun _ => .answered true⟩, ?_, rfl⟩
      intro projectionId failure removed raised
      cases raised
  | cons head tail inductionHypothesis =>
      obtain ⟨absent, rest⟩ := List.nodup_cons.mp distinct
      obtain ⟨later, atomic, same⟩ :=
        inductionHypothesis rest (applyDeltaTo now nameSpace known state head)
      refine ⟨(state.2.replies nameSpace head).before later head.projectionId, ?_, ?_⟩
      · intro projectionId failure removed raised
        simp only [Replies.before] at raised
        split at raised
        · exact replies_atomic state.2 nameSpace head projectionId failure removed raised
        · exact atomic projectionId failure removed raised
      · rw [List.foldl_cons, List.foldl_cons, same]
        have first : applyDelta FakeMemoryRepositoryAdapter.name now
            ((state.2.replies nameSpace head).before later head.projectionId) known state.1
            head = (applyDeltaTo now nameSpace known state head).1 :=
          applyDelta_congr (if_pos rfl) (if_pos rfl) state.1
        rw [first]
        apply List.foldl_ext
        intro step item listed
        have apart : item.projectionId ≠ head.projectionId := by
          intro equal
          exact absent (equal ▸ List.mem_map_of_mem listed)
        exact applyDelta_congr (if_neg apart).symm (if_neg apart).symm step

theorem deliverTo_recorded (faithful : mirror.Faithful wanted) (now nameSpace : String)
    (fake : FakeMemoryRepositoryAdapter) :
    ∃ replies : Replies, replies.DeletesAtomically ∧
      (mirror.deliverTo now nameSpace fake).1 =
        mirror.deliver FakeMemoryRepositoryAdapter.name now replies := by
  obtain ⟨replies, atomic, same⟩ : ∃ replies : Replies, replies.DeletesAtomically ∧
      ((Dict.values mirror.deltas).foldl (applyDeltaTo now nameSpace mirror.references)
        ((mirror, .empty), fake)).1 =
      (Dict.values mirror.deltas).foldl (applyDelta FakeMemoryRepositoryAdapter.name now replies
        mirror.references) (mirror, .empty) :=
    foldl_recorded _ faithful.unique _
  refine ⟨replies, atomic, ?_⟩
  rw [deliverTo, deliver]
  simp only
  split
  · rfl
  · exact same

/-- What holds of the state before a delivery and is kept by each of its steps holds after
it. -/
theorem deliverTo_keeps (holds : (Mirror × SyncReport) × FakeMemoryRepositoryAdapter → Prop)
    (start : holds ((mirror, .empty), fake))
    (idle : holds ((mirror, { SyncReport.empty with unchanged := mirror.references.keys }), fake))
    (keeps : ∀ state, ∀ delta ∈ Dict.values mirror.deltas, holds state →
      holds (applyDeltaTo now nameSpace mirror.references state delta)) :
    holds (mirror.deliverTo now nameSpace fake) := by
  rw [deliverTo]
  simp only
  split
  · exact idle
  · revert keeps start
    generalize ((mirror, SyncReport.empty), fake) = state
    induction Dict.values mirror.deltas generalizing state with
    | nil => exact fun start _ => start
    | cons head tail inductionHypothesis =>
        intro start keeps
        exact inductionHypothesis _ (keeps state head List.mem_cons_self start)
          fun later item listed => keeps later item (List.mem_cons_of_mem _ listed)

/-- The deltas of a refresh from the whole state carry records of the namespace. -/
theorem refresh_places {state : MemoryState} {delta : MaterializationDelta}
    (faithful : mirror.Faithful wanted) (rebuilds : delta.fullRebuild = true)
    {pending : PendingProjectionDelta}
    (listed : pending ∈ Dict.values (mirror.refresh nameSpace state delta).deltas) :
    Places nameSpace pending := by
  intro record recorded
  have found := (refresh_faithful faithful rebuilds).found listed
  have isWanted := refresh_pending rebuilds found
  rw [recorded] at isWanted
  exact ⟨(projected_placed isWanted.symm).1, projected_filed state nameSpace _ record isWanted.symm⟩

end Mirror

/-- What the repository finds it has read off records that the mirror says it holds. -/
theorem FakeMemoryRepositoryAdapter.search_read [WordSplitting] {mirror : Mirror}
    {wanted : Dict String RetrievalRecord} {fake : FakeMemoryRepositoryAdapter}
    (faithful : mirror.Faithful wanted) (request : SearchRequest)
    (agrees : mirror.Agrees request.nameSpace fake) :
    mirror.ReadBy ((fake.search request).1.toOption.getD []) := by
  intro hit given
  have records := fake.check_records "search"
  unfold search at given
  rcases checked : fake.check "search" with ⟨answer, next⟩
  rw [checked] at given records
  cases answer with
  | error failure => cases given
  | ok _ =>
      have listed := mem_sortBy.mp (List.mem_of_mem_take given)
      obtain ⟨⟨key, stored⟩, filed, isHit⟩ := List.mem_filterMap.mp listed
      have isStored := (Dict.mem_toList _ _ _).mp filed
      unfold hitFor at isHit
      simp only at isHit
      split at isHit
      · cases isHit
      · rename_i inside
        split at isHit
        · cases isHit
        · injection isHit with isHit
          have same : (ofLex key).1 = request.nameSpace := not_not.mp (not_or.mp inside).1
          have seen := agrees (ofLex key).2
          rw [view, ← same, ← records] at seen
          change next.records[key]?.map _ = _ at seen
          rw [isStored, Option.map_some, eq_comm, Option.map_eq_some_iff] at seen
          obtain ⟨record, held, equal⟩ := seen
          have own := (faithful.within (ofLex key).2).remote record held
          injection equal with ids rest
          injection rest with lists _
          injection ids with _ texts
          injection texts with text _
          injection lists with claimIds conflictIds
          refine ⟨record, own ▸ held, ?_⟩
          rw [← isHit]
          exact ⟨congrArg some own.symm, text.symm, claimIds.symm, conflictIds.symm⟩

/-! ## Runs with this repository -/

namespace FakeService

variable {nameSpace : String} {codec : CheckpointCodec} {memory : Memory}
  {service : FakeService}

/-- The service has got where it is by calls whose deletions are atomic, and its repository
holds what the mirror says. -/
def Serves [WordSplitting] (codec : CheckpointCodec) (nameSpace : String) (memory : Memory)
    (service : FakeService) : Prop :=
  ∃ calls : List (ServiceCall nameSpace), (∀ call ∈ calls, call.DeletesAtomically) ∧
    service.installation = Installation.run codec FakeMemoryRepositoryAdapter.name nameSpace
      ⟨memory, .empty⟩ calls ∧
    service.installation.mirror.Agrees nameSpace service.fake

/-- A refresh leaves what the repository holds as it is. -/
theorem refresh_remote (installation : Installation) (codec : CheckpointCodec)
    (nameSpace : String) :
    (installation.refresh codec nameSpace none).2.mirror.remote =
      installation.mirror.remote := by
  rcases refreshed : installation.refresh codec nameSpace none with ⟨result, next⟩
  cases result with
  | error failure =>
      unfold Installation.refresh at refreshed
      split at refreshed
      · injection refreshed with _ same
        rw [← same]
      · cases refreshed
  | ok cursor =>
      obtain ⟨state, delta, _, _, same⟩ := Installation.refresh_of_started refreshed
      rw [same, (Mirror.refresh_stores _ _ _ _).2]

variable [WordSplitting]

theorem Serves.extend {calls : List (ServiceCall nameSpace)} {next : FakeService}
    (call : ServiceCall nameSpace) (atomic : ∀ call ∈ calls, call.DeletesAtomically)
    (last : call.DeletesAtomically)
    (reached : service.installation = Installation.run codec FakeMemoryRepositoryAdapter.name
      nameSpace ⟨memory, .empty⟩ calls)
    (step : next.installation =
      service.installation.after codec FakeMemoryRepositoryAdapter.name nameSpace call)
    (agrees : next.installation.mirror.Agrees nameSpace next.fake) :
    next.Serves codec nameSpace memory := by
  refine ⟨calls ++ [call], ?_, ?_, agrees⟩
  · intro other listed
    rcases List.mem_append.mp listed with earlier | isLast
    · exact atomic other earlier
    · rw [List.mem_singleton.mp isLast]
      exact last
  · rw [step, reached, Installation.run, Installation.run, List.foldl_append]
    rfl

omit [WordSplitting] in
/-- A synchronization with this repository is one with some answers. -/
theorem synchronize_recorded (codec : CheckpointCodec) {wanted : Dict String RetrievalRecord}
    (faithful : service.installation.mirror.Faithful wanted)
    (agrees : service.installation.mirror.Agrees nameSpace service.fake) (now : String) :
    (∃ replies : Replies, replies.DeletesAtomically ∧
      (service.synchronize nameSpace codec now).2.installation =
        (service.installation.synchronize codec FakeMemoryRepositoryAdapter.name nameSpace none
          now replies).2) ∧
      (service.synchronize nameSpace codec now).2.installation.mirror.Agrees nameSpace
        (service.synchronize nameSpace codec now).2.fake := by
  have remote := refresh_remote service.installation codec nameSpace
  unfold synchronize Installation.synchronize
  rcases refreshed : service.installation.refresh codec nameSpace none with ⟨result, next⟩
  rw [refreshed] at remote
  have agreesNow : next.mirror.Agrees nameSpace service.fake := by
    intro projectionId
    rw [remote]
    exact agrees projectionId
  cases result with
  | error failure =>
      refine ⟨⟨⟨fun other => .raised ⟨"", other⟩ false, fun _ => .answered true⟩, ?_, rfl⟩,
        agreesNow⟩
      intro projectionId raised removed isRaised
      cases isRaised
  | ok cursor =>
      obtain ⟨state, delta, _, rebuilds, same⟩ := Installation.refresh_of_started refreshed
      have faithfulNow : next.mirror.Faithful (projected state nameSpace) :=
        same ▸ Mirror.refresh_faithful faithful rebuilds
      obtain ⟨replies, atomic, recorded⟩ :=
        Mirror.deliverTo_recorded faithfulNow now nameSpace service.fake
      refine ⟨⟨replies, atomic, ?_⟩, ?_⟩
      · simp only [recorded]
      · refine Mirror.deliverTo_keeps (fun state => state.1.1.Agrees nameSpace state.2)
          agreesNow agreesNow ?_
        intro step pending listed stepAgrees
        refine Mirror.applyDeltaTo_agrees stepAgrees ?_
        rw [same] at listed
        exact Mirror.refresh_places faithful rebuilds listed

theorem after_serves (serves : service.Serves codec nameSpace memory)
    (call : FakeCall nameSpace) : (service.after nameSpace codec call).Serves codec nameSpace
      memory := by
  obtain ⟨calls, atomic, reached, agrees⟩ := serves
  cases call with
  | memory call => exact Serves.extend (.memory call) atomic trivial reached rfl agrees
  | injectFailure operation error => exact ⟨calls, atomic, reached, agrees⟩
  | setAvailable available => exact ⟨calls, atomic, reached, agrees⟩
  | synchronize now =>
      obtain ⟨wanted, faithful, _⟩ := Installation.run_empty_mirrors codec
        FakeMemoryRepositoryAdapter.name memory calls
      rw [← reached] at faithful
      obtain ⟨⟨replies, isAtomic, same⟩, agreesNext⟩ :=
        synchronize_recorded codec faithful agrees now
      exact Serves.extend (.synchronize now replies) atomic isAtomic reached same agreesNext
  | search request =>
      have remote := refresh_remote service.installation codec request.val.nameSpace
      have step : ∃ reply, (service.search codec request.val).2.installation =
          (service.installation.search codec none request.val reply).2 := by
        unfold search Installation.search
        rcases refreshed : service.installation.refresh codec request.val.nameSpace none with
          ⟨result, next⟩
        cases result with
        | error failure => exact ⟨.ok [], rfl⟩
        | ok cursor =>
            exact ⟨(service.fake.search request.val).1, rfl⟩
      obtain ⟨reply, same⟩ := step
      have records : (service.search codec request.val).2.fake.records =
          service.fake.records := by
        unfold search
        split
        · rfl
        · have checked := service.fake.check_records "search"
          simp only [FakeMemoryRepositoryAdapter.search]
          split
          · rename_i found
            rw [found] at checked
            exact checked
          · rename_i found
            rw [found] at checked
            exact checked
      refine Serves.extend (.search request reply) atomic trivial reached same ?_
      change (service.search codec request.val).2.installation.mirror.Agrees nameSpace
        (service.search codec request.val).2.fake
      have held : (service.search codec request.val).2.installation.mirror.remote =
          service.installation.mirror.remote := by
        rw [same, Installation.search_mirror, remote]
      intro projectionId
      rw [held]
      exact agrees.of_records records projectionId

theorem run_serves (codec : CheckpointCodec) (memory : Memory)
    (calls : List (FakeCall nameSpace)) :
    (run nameSpace codec ⟨⟨memory, .empty⟩, .empty⟩ calls).Serves codec nameSpace memory := by
  have general : ∀ service : FakeService, service.Serves codec nameSpace memory →
      (run nameSpace codec service calls).Serves codec nameSpace memory := by
    induction calls with
    | nil => exact fun _ serves => serves
    | cons head tail inductionHypothesis =>
        intro service serves
        exact inductionHypothesis _ (after_serves serves head)
  refine general _ ⟨[], by simp, rfl, ?_⟩
  intro projectionId
  simp [FakeMemoryRepositoryAdapter.view, FakeMemoryRepositoryAdapter.empty, Mirror.empty]

/-- In every run with this repository, whatever failures have been injected into it and
whenever it was unavailable: once it is healthy, a synchronization that returns has no
failures, and then the repository holds for every record of the current state one that
`==` cannot tell from it, and nothing else in the namespace. -/
theorem synchronize_recovers (collisionFree : CollisionFree) (memory : Memory)
    (calls : List (FakeCall nameSpace)) (now : String)
    (healthy : (run nameSpace codec ⟨⟨memory, .empty⟩, .empty⟩ calls).fake.Healthy)
    {cursor : Nat} {report : SyncReport} {next : FakeService}
    (returned : (run nameSpace codec ⟨⟨memory, .empty⟩, .empty⟩ calls).synchronize nameSpace
      codec now = (.ok (cursor, report), next)) :
    ∃ state, ((run nameSpace codec ⟨⟨memory, .empty⟩, .empty⟩
        calls).installation.memory.materialize codec .default).1 = .ok state ∧
      report.failed = [] ∧ next.fake.Healthy ∧
      ∀ projectionId : String, next.fake.view nameSpace projectionId =
        (projected state nameSpace)[projectionId]?.map PyEq.key := by
  obtain ⟨calls', atomic, reached, agrees⟩ := run_serves codec memory calls
  obtain ⟨wanted, faithful, holds⟩ := Installation.run_empty_mirrors codec
    FakeMemoryRepositoryAdapter.name memory calls'
  rw [← reached] at faithful holds
  have agreesNext := (synchronize_recorded codec faithful agrees now).2
  rw [returned] at agreesNext
  generalize run nameSpace codec ⟨⟨memory, .empty⟩, .empty⟩ calls = service
    at healthy returned faithful holds agrees ⊢
  unfold synchronize at returned
  split at returned
  · injection returned with failed
    cases failed
  · rename_i refreshed
    obtain ⟨state, delta, isState, rebuilds, same⟩ := Installation.refresh_of_started refreshed
    injection returned with result isNext
    injection result with result
    injection result with _ isReport
    have faithfulNow : (service.installation.mirror.refresh nameSpace state delta).Faithful
        (projected state nameSpace) := Mirror.refresh_faithful faithful rebuilds
    rw [same] at isReport isNext
    have clean : ((service.installation.mirror.refresh nameSpace state delta).deliverTo now
        nameSpace service.fake).2.Healthy ∧
        ((service.installation.mirror.refresh nameSpace state delta).deliverTo now
          nameSpace service.fake).1.2.failed = [] := by
      refine Mirror.deliverTo_keeps (fun state => state.2.Healthy ∧ state.1.2.failed = [])
        ⟨healthy, rfl⟩ ⟨healthy, rfl⟩ ?_
      rintro step pending listed ⟨stepHealthy, stepClean⟩
      have kept : (Mirror.applyDeltaTo now nameSpace
          (service.installation.mirror.refresh nameSpace state delta).references step
          pending).2.Healthy ∧ _ :=
        Mirror.applyDeltaTo_healthy stepHealthy
          (Mirror.refresh_places faithful rebuilds listed)
      exact ⟨kept.1, kept.2.trans stepClean⟩
    refine ⟨state, isState, isReport ▸ clean.2, isNext ▸ clean.1, ?_⟩
    obtain ⟨replies, isAtomic, recorded⟩ :=
      Mirror.deliverTo_recorded faithfulNow now nameSpace service.fake
    rw [recorded] at clean isNext
    have holdsNow : (service.installation.mirror.refresh nameSpace state delta).HoldsAll
        (projected state nameSpace) := (holds atomic).refresh _ _ _ _
    have complete := (Mirror.deliver_faithful faithfulNow).complete collisionFree
      (Mirror.deliver_holds faithfulNow holdsNow isAtomic)
      (Mirror.deliver_clean faithfulNow clean.2)
    intro projectionId
    rw [agreesNext projectionId, ← isNext, complete]

/-- In every such run a search shows nothing but records of the current state. -/
theorem search_in_memory_current (collisionFree : CollisionFree) (memory : Memory)
    (calls : List (FakeCall nameSpace))
    (request : {request : SearchRequest // request.nameSpace = nameSpace}) {cursor : Nat}
    {context : HydratedContext} {raised : Option AdapterFailure} {next : FakeService}
    (returned : (run nameSpace codec ⟨⟨memory, .empty⟩, .empty⟩ calls).search codec
      request.val = (.ok (cursor, context, raised), next)) :
    ∃ state, ((run nameSpace codec ⟨⟨memory, .empty⟩, .empty⟩
        calls).installation.memory.materialize codec .default).1 = .ok state ∧
      ∀ hit ∈ context.searchHits, ∃ record : RetrievalRecord,
        (projected state nameSpace)[record.projectionId]? = some record ∧
          hit.Displays record := by
  obtain ⟨calls', _, reached, agrees⟩ := run_serves codec memory calls
  have mirrors := Installation.run_empty_mirrors codec FakeMemoryRepositoryAdapter.name memory
    calls'
  rw [← reached] at mirrors
  generalize run nameSpace codec ⟨⟨memory, .empty⟩, .empty⟩ calls = service
    at returned agrees mirrors ⊢
  have read : service.installation.mirror.ReadBy
      ((service.fake.search request.val).1.toOption.getD []) := by
    obtain ⟨wanted, faithful, _⟩ := mirrors
    apply FakeMemoryRepositoryAdapter.search_read faithful
    rw [request.property]
    exact agrees
  unfold search at returned
  split at returned
  · injection returned with failed
    cases failed
  · injection returned with found _
    obtain ⟨state, isState, shown, _⟩ := mirrors.search_displays collisionFree request
      (service.fake.search request.val).1 (Prod.ext found rfl) read
    exact ⟨state, isState, shown⟩

end FakeService

end Theory

section Example

attribute [local instance] Reference.runtime plainWords

namespace FakeService

/-- The first write of a claim raises. -/
private def failedOnce : FakeService :=
  run Reference.key.nameSpace Memory.blankCodec ⟨⟨Memory.withOne, .empty⟩, .empty⟩
    [.injectFailure "upsert" none, .synchronize "t"]

private def recovered : Result (Nat × SyncReport) × FakeService :=
  failedOnce.synchronize Reference.key.nameSpace Memory.blankCodec "t"

private def written : Option Nat :=
  recovered.1.toOption.map fun returned => returned.2.created.length

/-- It is pending after the failure, and written by the next synchronization. -/
theorem synchronize_recovers_injected :
    failedOnce.installation.mirror.deltas.size = 1 ∧
      ∃ report state, recovered.1.toOption.map Prod.snd = some report ∧
        report.created.length = 1 ∧ report.failed = [] ∧
        ∀ projectionId : String,
          recovered.2.fake.view Reference.key.nameSpace projectionId =
            (projected state Reference.key.nameSpace)[projectionId]?.map PyEq.key := by
  refine ⟨by decide +kernel, ?_⟩
  have computed : written = some 1 := by decide +kernel
  have healthy : failedOnce.fake.Healthy :=
    ⟨by decide +kernel, by decide +kernel, by decide +kernel⟩
  unfold written at computed
  cases returned : recovered.1 with
  | error failure =>
      rw [returned] at computed
      cases computed
  | ok result =>
      rw [returned] at computed
      injection computed with computed
      obtain ⟨state, _, clean, _, holds⟩ := synchronize_recovers Reference.collisionFree
        Memory.withOne [.injectFailure "upsert" none, .synchronize "t"] "t" healthy
        (Prod.ext returned rfl)
      exact ⟨result.2, state, rfl, computed, clean, holds⟩

private def anything : SearchRequest := ⟨"", Reference.key.nameSpace, 3, ∅, by decide⟩

private def searchedNow :
    Result (Nat × HydratedContext × Option AdapterFailure) × FakeService :=
  failedOnce.search Memory.blankCodec anything

private def shownNow : Option Nat :=
  searchedNow.1.toOption.map fun returned => returned.2.1.searchHits.length

/-- The repository has nothing yet, and the claim is shown. -/
theorem search_in_memory_current_injected :
    failedOnce.fake.records.size = 0 ∧ ∃ context state hit record,
      searchedNow.1.toOption.map (·.2.1) = some context ∧ context.searchHits = [hit] ∧
      (projected state Reference.key.nameSpace)[(record : RetrievalRecord).projectionId]? =
        some record ∧ hit.Displays record := by
  refine ⟨by decide +kernel, ?_⟩
  have computed : shownNow = some 1 := by decide +kernel
  unfold shownNow at computed
  cases returned : searchedNow.1 with
  | error failure =>
      rw [returned] at computed
      cases computed
  | ok result =>
      rw [returned] at computed
      injection computed with computed
      obtain ⟨hit, only⟩ := List.length_eq_one_iff.mp computed
      obtain ⟨state, _, shown⟩ := search_in_memory_current Reference.collisionFree
        Memory.withOne [.injectFailure "upsert" none, .synchronize "t"] ⟨anything, rfl⟩
        (Prod.ext returned rfl)
      obtain ⟨record, isCurrent, displays⟩ := shown hit (only ▸ List.mem_singleton.mpr rfl)
      exact ⟨result.2.1, state, hit, record, rfl, only, isCurrent, displays⟩

end FakeService

end Example

end Statefuse
