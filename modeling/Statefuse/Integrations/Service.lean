import Statefuse.Integrations.Convergence
import Statefuse.Integrations.ProjectionDeltas

/-!
# A service that keeps its cursor

A service remembers up to which cursor it has projected the memory, and refreshes its
deltas from what has changed since.  As long as the registry stays the same, its cursor is
that of the state that its mirror is faithful to (`run_follows`), so that the refresh by a
projection delta is worth a projection of the whole state.
-/

namespace Statefuse

open Foundation

/-- A service and what it works on; the cursor is that of its last refresh. -/
structure Service [Runtime] where
  installation : Installation
  cursor : Option Nat

section Theory

variable [Runtime]

namespace Mirror

variable {mirror : Mirror} {nameSpace : String} {state next : MemoryState}
  {delta : MaterializationDelta}

/-- A refresh by the delta of a traced step, at one projection id. -/
theorem refresh_incremental (after : next.Traceable) (incremental : delta.fullRebuild = false)
    (changed : ¬delta.isEmpty = true) (projectionId : String) :
    (mirror.refresh nameSpace next delta).entry projectionId =
      (mirror.references[projectionId]?,
        (Projecting.ofDelta next nameSpace delta).upserts[projectionId]?.elim
          (if projectionId ∈ (Projecting.ofDelta next nameSpace delta).withdrawn then
            some (.ofDeletion projectionId) else mirror.deltas[projectionId]?)
          (fun record =>
            if isAcknowledged mirror.references[projectionId]? record then none
            else some (.ofRecord record)),
        mirror.remote[projectionId]?) := by
  have keyed := Projecting.ofDelta_keyed after nameSpace delta
  rw [refresh, if_neg changed, if_neg (by rw [incremental]; exact Bool.false_ne_true),
    projectStateDelta_eq next nameSpace incremental]
  refine project_entry mirror keyed ?_ (fun place listed =>
    ((Projecting.mem_withdrawn _ place).mp listed).2) projectionId
  exact ((PySet.toList_sorted _).imp (fun below => ne_of_lt below)).filter _

/-- Refreshing by the delta of a traced step keeps a faithful mirror faithful. -/
theorem Faithful.refresh_traces (collisionFree : CollisionFree)
    (faithful : mirror.Faithful (projected state nameSpace)) (before : state.Traceable)
    (after : next.Traceable) (traces : delta.Traces state next)
    (incremental : delta.fullRebuild = false) (changed : ¬delta.isEmpty = true) :
    (mirror.refresh nameSpace next delta).Faithful (projected next nameSpace) := by
  have entered := @refresh_incremental _ mirror nameSpace next delta after incremental changed
  have cases := projection_cases collisionFree before after traces nameSpace
  -- A cell takes the step of a refresh, or it is left alone and still wants the same record.
  have steps (projectionId : String) :
      Cell.Step stampOf True (mirror.cell (projected state nameSpace) projectionId)
          ((mirror.refresh nameSpace next delta).cell (projected next nameSpace) projectionId) ∨
        (mirror.refresh nameSpace next delta).cell (projected next nameSpace) projectionId =
          mirror.cell (projected state nameSpace) projectionId := by
    rcases cases projectionId with ⟨record, upserted, current⟩ | ⟨unstored, withdrawn, current⟩ |
      ⟨unstored, kept, unchanged⟩
    · left
      have due : (mirror.cell (projected state nameSpace) projectionId).Due stampOf (some record)
          (if isAcknowledged mirror.references[projectionId]? record then none
            else some (some record)) := by
        change _ = if mirror.references[projectionId]?.map stamp = some (stampOf record) then none
          else some (some record)
        by_cases acknowledged : isAcknowledged mirror.references[projectionId]? record = true
        · rw [if_pos acknowledged, if_pos (isAcknowledged_iff.mp acknowledged)]
        · rw [if_neg acknowledged, if_neg fun same => acknowledged (isAcknowledged_iff.mpr same)]
      have step : Cell.Step stampOf True _ _ := Cell.Step.refresh _ _ _ due
      convert step using 1
      simp only [cell, entered, upserted, current, Option.elim_some]
      by_cases acknowledged : isAcknowledged mirror.references[projectionId]? record = true
      · rw [if_pos acknowledged, if_pos acknowledged]
        rfl
      · rw [if_neg acknowledged, if_neg acknowledged]
        rfl
    · left
      have step : Cell.Step stampOf True _ _ := Cell.Step.refresh
        (mirror.cell (projected state nameSpace) projectionId) none (some none) (Or.inl rfl)
      convert step using 1
      simp only [cell, entered, unstored, current, Option.elim_none, if_pos withdrawn]
      rfl
    · right
      simp only [cell, entered, unstored, Option.elim_none, if_neg kept, unchanged]
      rfl
  constructor
  · intro projectionId pending found
    have deltas := congrArg (fun entry => entry.2.1) (entered projectionId)
    simp only [entry] at deltas
    rw [found] at deltas
    rcases cases projectionId with ⟨record, upserted, current⟩ | ⟨unstored, withdrawn, _⟩ |
      ⟨unstored, kept, _⟩
    · rw [upserted, Option.elim_some] at deltas
      split at deltas
      · cases deltas
      · injection deltas with deltas
        rw [deltas]
        exact projected_filed next nameSpace projectionId record current
    · rw [unstored, Option.elim_none, if_pos withdrawn] at deltas
      injection deltas with deltas
      rw [deltas]
      rfl
    · rw [unstored, Option.elim_none, if_neg kept] at deltas
      exact faithful.deltas projectionId pending deltas.symm
  · intro projectionId
    rcases steps projectionId with step | same
    · exact step.sound (faithful.sound projectionId)
    · rw [same]
      exact faithful.sound projectionId
  · intro projectionId
    rcases steps projectionId with step | same
    · exact step.within (faithful.within projectionId)
        fun record => projected_filed next nameSpace projectionId record
    · rw [same]
      exact faithful.within projectionId

/-- No wanted record whose reference has its fingerprint is missing from the repository. -/
def Retains (mirror : Mirror) (wanted : Dict String RetrievalRecord) : Prop :=
  ∀ (projectionId : String) (record : RetrievalRecord), wanted[projectionId]? = some record →
    isAcknowledged mirror.references[projectionId]? record = true →
    ∃ held, mirror.remote[projectionId]? = some held

theorem retains_iff {wanted : Dict String RetrievalRecord} :
    mirror.Retains wanted ↔
      ∀ projectionId : String, (mirror.cell wanted projectionId).Retains stampOf := by
  refine forall_congr' fun projectionId => forall_congr' fun record => forall_congr' fun _ => ?_
  rw [isAcknowledged_iff, ← Option.isSome_iff_exists]
  rfl

theorem HoldsAll.retains {wanted : Dict String RetrievalRecord} (holds : mirror.HoldsAll wanted) :
    mirror.Retains wanted :=
  retains_iff.mpr fun projectionId _ _ acknowledged =>
    holds projectionId (by rw [acknowledged]; rfl)

/-- A delivery without failures leaves the wanted records exactly when it starts with a
mirror that retains them. -/
theorem Faithful.deliver_iff (collisionFree : CollisionFree)
    {wanted : Dict String RetrievalRecord} (faithful : mirror.Faithful wanted)
    (repository now : String) (replies : Replies)
    (clean : (mirror.deliver repository now replies).2.failed = []) :
    (mirror.deliver repository now replies).1.remote = wanted ↔ mirror.Retains wanted := by
  have faithfulNext : (mirror.deliver repository now replies).1.Faithful wanted :=
    deliver_faithful faithful
  have done : (mirror.deliver repository now replies).1.deltas = ∅ := deliver_clean faithful clean
  have retained (projectionId : String) :
      ((mirror.deliver repository now replies).1.cell wanted projectionId).Retains stampOf ↔
        (mirror.cell wanted projectionId).Retains stampOf := by
    rcases (deliver_step faithful projectionId).1 with step | same
    · exact step.retains_iff (faithful.sound projectionId) rfl
    · rw [same]
  rw [retains_iff, ← forall_congr' retained]
  generalize (mirror.deliver repository now replies).1 = delivered at faithfulNext done ⊢
  constructor
  · rintro rfl projectionId record isWanted _
    exact Option.isSome_iff_exists.mpr ⟨record, isWanted⟩
  · intro retains
    apply Dict.ext
    intro projectionId
    cases isWanted : wanted[projectionId]? with
    | none =>
        refine Option.eq_none_iff_forall_ne_some.mpr fun record held => ?_
        rw [faithfulNext.current collisionFree done held] at isWanted
        cases isWanted
    | some record =>
        have idle : (delivered.cell wanted projectionId).pending = none := by
          simp [cell, entry, done]
        obtain ⟨heldRecord, held⟩ := (faithfulNext.sound projectionId).retains idle
          (retains projectionId) isWanted
        have same := faithfulNext.current collisionFree done held
        rw [isWanted] at same
        exact held.trans same.symm

end Mirror

/-! ## The cursor -/

/-- A delta since the cursor of a seen state is a rebuild or traces what has changed, and
its own cursor is that of the returned state. -/
theorem Memory.materializeWithDelta_traces {codec : CheckpointCodec} (collisionFree : CollisionFree)
    {memory : Memory} {seen : MemoryState → Nat → Prop} (holds : memory.Holds [] seen)
    (registered : memory.Registered) {sinceCursor : Option Nat} {state : MemoryState}
    {delta : MaterializationDelta}
    (returned : (memory.materializeWithDelta codec sinceCursor).1 = .ok (state, delta)) :
    (memory.materialize codec .default).1 = .ok state ∧ state.Traceable ∧
      (memory.materializeWithDelta codec sinceCursor).2.Holds []
        (fun earlier cursor => earlier = state ∧ cursor = delta.cursorAfter) ∧
      (delta.fullRebuild = true ∨ delta.fullRebuild = false ∧ ∃ cursor,
        sinceCursor = some cursor ∧ ∀ first, seen first cursor →
          first.Traceable ∧ delta.Traces first state ∧ (delta.isEmpty = true → first = state)) := by
  have isCanonical : memory.isCanonical .default = true := by
    simp [Memory.isCanonical, Memory.detectors, Memory.Arguments.default, holds.sameDetectors]
  have none : ¬memory.conflictDetectors ≠ [] := by
    rw [holds.sameDetectors]
    simp
  obtain ⟨holdsNext, caches⟩ :=
    @Memory.canonical_holds _ codec _ _ _ collisionFree holds registered.steady
  rw [Memory.materializeWithDelta, if_neg none] at returned ⊢
  rw [Memory.materialize, if_pos isCanonical]
  obtain ⟨cached, computed, same⟩ := map_ok_iff.mp returned
  injection same with sameState sameDelta
  have built := caches cached computed
  rw [← sameState, ← sameDelta]
  refine ⟨computed, holdsNext.traceable cached built, ?_, ?_⟩
  · refine (holdsNext.see built).forget fun earlier cursor here => Or.inr ⟨here.1, ?_⟩
    rw [here.2, Memory.deltaSince_cursorAfter]
  · cases sinceCursor with
    | none => exact Or.inl rfl
    | some cursor =>
        cases rebuilds : ((Memory.materializeCanonicalIncrementally codec memory).2.deltaSince
            (some cursor)).fullRebuild with
        | true => exact Or.inl rfl
        | false =>
            refine Or.inr ⟨rfl, cursor, rfl, fun first isSeen => ?_⟩
            have apart := Bool.eq_false_iff.mp rebuilds
            exact ⟨(holdsNext.traced first cursor isSeen).1,
              ((Memory.deltaSince_traces holdsNext built isSeen).resolve_left apart).2,
              ((Memory.deltaSince_accounts holdsNext built isSeen).resolve_left apart).empty⟩

/-- The call registers no predicate. -/
def ServiceCall.KeepsRegistry {nameSpace : String} : ServiceCall nameSpace → Prop
  | .memory call => call.KeepsRegistry
  | _ => True

namespace Service

variable (codec : CheckpointCodec) (repository nameSpace : String)

/-- The service after a call.  A refresh that raises leaves the cursor as it was. -/
def after [WordSplitting] (service : Service) : ServiceCall nameSpace → Service
  | .memory call =>
      { service with installation :=
          { service.installation with memory := service.installation.memory.after codec call } }
  | .search request reply =>
      ⟨(service.installation.search codec service.cursor request.val reply).2,
        (service.installation.refresh codec nameSpace service.cursor).1.toOption.or service.cursor⟩
  | .synchronize now replies =>
      ⟨(service.installation.synchronize codec repository nameSpace service.cursor now replies).2,
        (service.installation.refresh codec nameSpace service.cursor).1.toOption.or service.cursor⟩

def run [WordSplitting] (service : Service) (calls : List (ServiceCall nameSpace)) : Service :=
  calls.foldl (after codec repository nameSpace) service

/-- A service without detectors and with empty stores. -/
def start (predicateRegistry : Option (PredicateRegistry × Nat)) (configToken : Option String) :
    Service :=
  ⟨⟨.create predicateRegistry [] configToken, .empty⟩, none⟩

/-- The mirror is faithful to a state that the memory can tell the changes since, by the
cursor.  With atomic deletions it holds whatever is acknowledged. -/
def Follows (service : Service) (nameSpace : String) (atomic : Prop) : Prop :=
  service.installation.memory.Registered ∧ ∃ seen wanted,
    service.installation.memory.Holds [] seen ∧
    service.installation.mirror.Faithful wanted ∧
    (atomic → service.installation.mirror.HoldsAll wanted) ∧
    ∀ cursor, service.cursor = some cursor →
      ∃ first, seen first cursor ∧ projected first nameSpace = wanted

variable {codec repository nameSpace} {service : Service} {atomic : Prop}

theorem start_follows (predicateRegistry : Option (PredicateRegistry × Nat))
    (configToken : Option String) (nameSpace : String) (atomic : Prop) :
    (start predicateRegistry configToken).Follows nameSpace atomic := by
  refine ⟨Memory.create_registered _ _ _, _, ∅, Memory.create_holds _ _ _, Mirror.empty_faithful,
    ?_, fun _ impossible => nomatch impossible⟩
  intro _ projectionId stamped
  simp [start, Mirror.cell, Mirror.entry, Mirror.empty] at stamped

/-- A call of the memory. -/
theorem Follows.call (collisionFree : CollisionFree) {memory : Memory} {mirror : Mirror}
    {cursor : Option Nat} (follows : (Service.mk ⟨memory, mirror⟩ cursor).Follows nameSpace atomic)
    {call : Memory.Call} (keeps : call.KeepsRegistry) :
    (Service.mk ⟨memory.after codec call, mirror⟩ cursor).Follows nameSpace atomic := by
  obtain ⟨registered, seen, wanted, holds, rest⟩ := follows
  exact ⟨Memory.after_registered registered keeps, seen, wanted,
    Memory.after_holds collisionFree holds (registered.steadyCall call), rest⟩

/-- A refresh makes the mirror faithful to the state that the memory materializes. -/
theorem Follows.refresh (collisionFree : CollisionFree) (follows : service.Follows nameSpace atomic)
    {cursor : Nat} {next : Installation}
    (refreshed : service.installation.refresh codec nameSpace service.cursor =
      (.ok cursor, next)) :
    ∃ state, (service.installation.memory.materialize codec .default).1 = .ok state ∧
      next.mirror.Faithful (projected state nameSpace) ∧
      (atomic → next.mirror.HoldsAll (projected state nameSpace)) ∧
      next.mirror.references = service.installation.mirror.references ∧
      next.mirror.remote = service.installation.mirror.remote ∧
      (Service.mk next (some cursor)).Follows nameSpace atomic := by
  obtain ⟨registered, seen, wanted, holds, faithful, held, tracked⟩ := follows
  unfold Installation.refresh at refreshed
  split at refreshed
  · injection refreshed with failed
    cases failed
  · rename_i state delta memory materialized
    obtain ⟨isState, after, holdsNext, changes⟩ :=
      @Memory.materializeWithDelta_traces _ codec collisionFree _ _ holds registered _ _ _
        (congrArg Prod.fst materialized)
    have registeredNext : (service.installation.memory.after codec
        (.materializeWithDelta service.cursor)).Registered :=
      Memory.after_registered registered True.intro
    change (service.installation.memory.materializeWithDelta codec
      service.cursor).2.Registered at registeredNext
    rw [materialized] at holdsNext registeredNext
    injection refreshed with sameCursor sameNext
    injection sameCursor with sameCursor
    subst sameCursor sameNext
    obtain ⟨references, remote⟩ :=
      Mirror.refresh_stores service.installation.mirror nameSpace state delta
    have heldNext : atomic → (service.installation.mirror.refresh nameSpace state delta).HoldsAll
        (projected state nameSpace) := fun given => (held given).refresh _ _ _ _
    have faithfulNext : (service.installation.mirror.refresh nameSpace state delta).Faithful
        (projected state nameSpace) := by
      rcases changes with rebuilds | ⟨incremental, since, isSince, traced⟩
      · exact Mirror.refresh_faithful faithful rebuilds
      · obtain ⟨first, isSeen, same⟩ := tracked since isSince
        subst same
        obtain ⟨before, traces, unchanged⟩ := traced first isSeen
        by_cases empty : delta.isEmpty = true
        · rw [Mirror.refresh, if_pos empty, ← unchanged empty]
          exact faithful
        · exact faithful.refresh_traces collisionFree before after traces incremental empty
    refine ⟨state, isState, faithfulNext, heldNext, references, remote, registeredNext, _, _,
      holdsNext, faithfulNext, heldNext, ?_⟩
    intro cursor same
    injection same with same
    exact ⟨state, ⟨rfl, same.symm⟩, rfl⟩

/-- A refresh that raises changes the memory alone. -/
theorem Follows.refresh_failed (collisionFree : CollisionFree)
    (follows : service.Follows nameSpace atomic) {failure : PyError} {next : Installation}
    (refreshed : service.installation.refresh codec nameSpace service.cursor =
      (.error failure, next)) :
    (Service.mk next service.cursor).Follows nameSpace atomic := by
  unfold Installation.refresh at refreshed
  split at refreshed
  · rename_i memory materialized
    injection refreshed with _ sameNext
    have called : (Service.mk ⟨service.installation.memory.after codec
        (.materializeWithDelta service.cursor), service.installation.mirror⟩
        service.cursor).Follows nameSpace atomic := follows.call collisionFree True.intro
    change (Service.mk ⟨(service.installation.memory.materializeWithDelta codec
      service.cursor).2, _⟩ _).Follows nameSpace atomic at called
    rw [materialized] at called
    rw [← sameNext]
    exact called
  · injection refreshed with impossible
    cases impossible

theorem Follows.deliver {installation : Installation} {cursor : Option Nat}
    (follows : (Service.mk installation cursor).Follows nameSpace atomic) {now : String}
    {replies : Replies} (isAtomic : atomic → replies.DeletesAtomically) :
    (Service.mk { installation with
      mirror := (installation.mirror.deliver repository now replies).1 } cursor).Follows nameSpace
        atomic := by
  obtain ⟨registered, seen, wanted, holds, faithful, held, tracked⟩ := follows
  exact ⟨registered, seen, wanted, holds, Mirror.deliver_faithful faithful,
    fun given => Mirror.deliver_holds faithful (held given) (isAtomic given), tracked⟩

theorem after_follows [WordSplitting] (collisionFree : CollisionFree)
    (follows : service.Follows nameSpace atomic) {call : ServiceCall nameSpace}
    (keeps : call.KeepsRegistry) (isAtomic : atomic → call.DeletesAtomically) :
    (service.after codec repository nameSpace call).Follows nameSpace atomic := by
  cases call with
  | memory call => exact follows.call collisionFree keeps
  | search request reply =>
      obtain ⟨request, within⟩ := request
      subst within
      unfold after Installation.search
      dsimp only
      cases refreshed : service.installation.refresh codec request.nameSpace service.cursor with
      | mk result next =>
          cases result with
          | error failure => exact follows.refresh_failed collisionFree refreshed
          | ok cursor =>
              obtain ⟨_, _, _, _, _, _, refreshedFollows⟩ := follows.refresh collisionFree refreshed
              dsimp only [Except.toOption, Option.some_or]
              unfold hydrateSearchHits
              split
              · exact refreshedFollows
              · exact @Follows.call _ codec _ _ collisionFree _ _ _ refreshedFollows
                  (.materialize .default) True.intro
  | synchronize now replies =>
      rw [after, Installation.synchronize]
      cases refreshed : service.installation.refresh codec nameSpace service.cursor with
      | mk result next =>
          cases result with
          | error failure => exact follows.refresh_failed collisionFree refreshed
          | ok cursor =>
              obtain ⟨_, _, _, _, _, _, refreshedFollows⟩ := follows.refresh collisionFree refreshed
              exact refreshedFollows.deliver isAtomic

theorem run_follows [WordSplitting] (collisionFree : CollisionFree)
    (follows : service.Follows nameSpace atomic) (calls : List (ServiceCall nameSpace))
    (keeps : ∀ call ∈ calls, call.KeepsRegistry)
    (isAtomic : atomic → ∀ call ∈ calls, call.DeletesAtomically) :
    (service.run codec repository nameSpace calls).Follows nameSpace atomic := by
  induction calls generalizing service with
  | nil => exact follows
  | cons call rest inductionHypothesis =>
      exact inductionHypothesis
        (after_follows collisionFree follows (keeps call List.mem_cons_self)
          fun given => isAtomic given call List.mem_cons_self)
        (fun later member => keeps later (List.mem_cons_of_mem _ member))
        fun given later member => isAtomic given later (List.mem_cons_of_mem _ member)

/-- What a synchronization delivers when the memory can be materialized: a mirror that is
faithful to the state, with the references and the records that were there before. -/
theorem Follows.synchronized (collisionFree : CollisionFree)
    (follows : service.Follows nameSpace atomic) {state : MemoryState}
    (isState : (service.installation.memory.materialize codec .default).1 = .ok state)
    (repository now : String) (replies : Replies) :
    ∃ (cursor : Nat) (memory : Memory) (refreshed : Mirror),
      service.installation.synchronize codec repository nameSpace service.cursor now replies =
        (.ok (cursor, (refreshed.deliver repository now replies).2),
          ⟨memory, (refreshed.deliver repository now replies).1⟩) ∧
      refreshed.Faithful (projected state nameSpace) ∧
      refreshed.references = service.installation.mirror.references ∧
      refreshed.remote = service.installation.mirror.remote := by
  cases refreshed : service.installation.refresh codec nameSpace service.cursor with
  | mk result next =>
      cases result with
      | ok cursor =>
          obtain ⟨built, isBuilt, faithful, _, references, remote, _⟩ :=
            follows.refresh collisionFree refreshed
          have same : state = built := Except.ok.inj (isState.symm.trans isBuilt)
          subst same
          refine ⟨cursor, next.memory, next.mirror, ?_, faithful, references, remote⟩
          rw [Installation.synchronize, refreshed]
      | error failure =>
          obtain ⟨_, _, _, holds, _⟩ := follows
          have isCanonical : service.installation.memory.isCanonical .default = true := by
            simp [Memory.isCanonical, Memory.detectors, Memory.Arguments.default,
              holds.sameDetectors]
          rw [Memory.materialize, if_pos isCanonical] at isState
          unfold Installation.refresh at refreshed
          split at refreshed
          · rename_i materialized
            have failed := congrArg Prod.fst materialized
            rw [Memory.materializeWithDelta, if_neg (by rw [holds.sameDetectors]; simp)] at failed
            dsimp only at failed
            rw [isState] at failed
            cases failed
          · injection refreshed with impossible
            cases impossible

/-- Whatever has been raised during a run of one service, and whether it has taken effect or
not: a synchronization without failures leaves the records of the current state in the
repository exactly when none of them was missing there although its reference has its
fingerprint.  None is where deletions that raise are not carried out. -/
theorem synchronize_exact_iff [WordSplitting] (collisionFree : CollisionFree)
    (predicateRegistry : Option (PredicateRegistry × Nat)) (configToken : Option String)
    (calls : List (ServiceCall nameSpace)) (keeps : ∀ call ∈ calls, call.KeepsRegistry)
    (now : String) (replies : Replies) {reached : Service} {cursor : Nat} {report : SyncReport}
    {next : Installation}
    (ran : reached = (start predicateRegistry configToken).run codec repository nameSpace calls)
    (returned : reached.installation.synchronize codec repository nameSpace reached.cursor now
      replies = (.ok (cursor, report), next))
    (clean : report.failed = []) :
    ∃ state, (reached.installation.memory.materialize codec .default).1 = .ok state ∧
      (next.mirror.remote = projected state nameSpace ↔
        reached.installation.mirror.Retains (projected state nameSpace)) ∧
      ((∀ call ∈ calls, call.DeletesAtomically) →
        reached.installation.mirror.Retains (projected state nameSpace)) := by
  have follows : reached.Follows nameSpace (∀ call ∈ calls, call.DeletesAtomically) := by
    rw [ran]
    exact run_follows collisionFree (start_follows _ _ _ _) calls keeps id
  unfold Installation.synchronize at returned
  split at returned
  · injection returned with failed
    cases failed
  · rename_i cursorAfter refreshedTo refreshed
    obtain ⟨state, isState, faithful, held, references, remote, _⟩ :=
      follows.refresh collisionFree refreshed
    injection returned with result isNext
    injection result with result
    injection result with _ isReport
    have retained : refreshedTo.mirror.Retains (projected state nameSpace) ↔
        reached.installation.mirror.Retains (projected state nameSpace) := by
      rw [Mirror.Retains, Mirror.Retains, references, remote]
    refine ⟨state, isState, ?_, fun atomic => retained.mp (held atomic).retains⟩
    rw [← retained, ← faithful.deliver_iff collisionFree repository now replies (by
      rw [isReport]
      exact clean), ← isNext]

end Service

end Theory

section Example

namespace Service

section Runs

variable [Runtime] [WordSplitting]

omit [Runtime] [WordSplitting] in
private theorem withdrawnCheck : RetractionFields.check
    ⟨⟨"op-d", "r", "t"⟩, some "c", none, [], "dropped", none, none, none, none⟩ = .ok () := rfl

private def retractC : ClaimRetracted where
  opId := "op-d"
  replicaId := "r"
  timestamp := "t"
  targetClaimId := some "c"
  targetClaimRef := none
  evidenceIds := []
  reason := "dropped"
  supersedesClaimId := none
  supersedesClaimRef := none
  signingKeyId := none
  signature := none
  checked := withdrawnCheck

/-- Checkpoints are not read. -/
private def unread : CheckpointCodec where
  encode _ := .ok ""
  decode _ _ := valueError "Unsupported materialization checkpoint."

/-- Every call is answered. -/
private def obliging : Replies where
  upsert projectionId := .answered ⟨"r", projectionId, "x", true, ∅⟩
  delete _ := .answered true

/-- Every deletion is carried out, and raises. -/
private def losing : Replies where
  upsert projectionId := .answered ⟨"r", projectionId, "x", true, ∅⟩
  delete _ := .raised ⟨"E", ""⟩ true

private def add (opId claimId value : String) : Op :=
  .claimAdded ⟨opId, "r", "t"⟩ (Reference.fact claimId Reference.key (.str value) [])

/-- A claim is synchronized and retracted. -/
private def dropped : List (ServiceCall "n") :=
  [.memory (.append (add "op-c" "c" "z")), .synchronize "t" obliging,
    .memory (.append (.claimRetracted retractC))]

/-- Two claims disagree. -/
private def disagreeing : List (ServiceCall "n") :=
  [.memory (.commitBatch [add "op-a" "a" "x", add "op-b" "b" "y"])]

/-- Their conflict is synchronized, and a third claim joins it. -/
private def joined : List (ServiceCall "n") :=
  disagreeing ++ [.synchronize "t" obliging, .memory (.append (add "op-c" "c" "z"))]

/-- The old conflict is deleted, which raises, and the third claim is retracted. -/
private def lost : List (ServiceCall "n") :=
  joined ++ [.synchronize "t" losing, .memory (.append (.claimRetracted retractC))]

private def reachedBy (calls : List (ServiceCall "n")) : Service :=
  (start (some (.empty, 0)) none).run unread "r" "n" calls

private def synchronized (calls : List (ServiceCall "n")) :
    Result (Nat × SyncReport) × Installation :=
  (reachedBy calls).installation.synchronize unread "r" "n" (reachedBy calls).cursor
    "t" obliging

private def counts (calls : List (ServiceCall "n")) : Option (Nat × Nat × Nat × Nat) := do
  let (_, report) ← (synchronized calls).1.toOption
  let state ← ((reachedBy calls).installation.memory.materialize unread
    .default).1.toOption
  return (report.failed.length, report.deleted.length, (synchronized calls).2.mirror.remote.size,
    (projected state "n").size)

/-- What is compared of a synchronization and the state that it leads to. -/
private theorem counts_eq {calls : List (ServiceCall "n")} {failed deleted held wanted : Nat}
    (computed : counts calls = some (failed, deleted, held, wanted)) :
    ∃ cursor report state, (synchronized calls).1 = .ok (cursor, report) ∧
      ((reachedBy calls).installation.memory.materialize unread .default).1 =
        .ok state ∧
      report.failed.length = failed ∧ report.deleted.length = deleted ∧
      (synchronized calls).2.mirror.remote.size = held ∧
      (projected state "n").size = wanted := by
  unfold counts at computed
  cases returned : (synchronized calls).1 with
  | error failure =>
      rw [returned] at computed
      cases computed
  | ok result =>
      rw [returned] at computed
      cases isState : ((reachedBy calls).installation.memory.materialize unread
          .default).1 with
      | error failure =>
          rw [isState] at computed
          cases computed
      | ok state =>
          rw [isState] at computed
          simp only [Except.toOption, Option.bind_eq_bind, Option.bind_some, Option.pure_def,
            Option.some.injEq, Prod.mk.injEq] at computed
          exact ⟨result.1, result.2, state, rfl, rfl, computed⟩

/-- A call that changes the memory leaves the mirror as the synchronization before it. -/
private theorem reachedBy_synchronized (calls : List (ServiceCall "n")) (replies : Replies)
    (op : Op) :
    (reachedBy (calls ++ [.synchronize "t" replies, .memory (.append op)])).installation.mirror =
      ((reachedBy calls).installation.synchronize unread "r" "n" (reachedBy calls).cursor "t"
        replies).2.mirror := by
  rw [reachedBy, run, List.foldl_append]
  rfl

omit [WordSplitting] in
private theorem obliging_clean (mirror : Mirror) :
    (mirror.deliver "r" "t" obliging).2.failed = [] := by
  have applied (items : List PendingProjectionDelta) (state : Mirror × SyncReport)
      (clean : state.2.failed = []) :
      (items.foldl (Mirror.applyDelta "r" "t" obliging mirror.references) state).2.failed = [] := by
    induction items generalizing state with
    | nil => exact clean
    | cons item rest inductionHypothesis =>
        apply inductionHypothesis
        unfold Mirror.applyDelta
        split
        · exact clean
        · rename_i record _
          simp only [Mirror.applyUpsert, obliging, Mirror.isWriteOf]
          split
          · exact clean
          · simp only [ne_eq, String.reduceEq, not_false_eq_true, and_self, decide_true, if_true]
            split
            · exact clean
            · exact clean
  rw [Mirror.deliver]
  dsimp only
  split
  · rfl
  · exact applied _ _ rfl

omit [WordSplitting] in
/-- An acknowledged record that is no longer wanted is deleted, and its reference is kept. -/
private theorem losing_entry {mirror : Mirror} {wanted : Dict String RetrievalRecord}
    (faithful : mirror.Faithful wanted) {record : RetrievalRecord}
    (unwanted : wanted[record.projectionId]? = none)
    (acknowledged : (mirror.references[record.projectionId]?).map Mirror.stamp =
      some (stampOf record)) :
    (mirror.deliver "r" "t" losing).1.references[record.projectionId]? =
        mirror.references[record.projectionId]? ∧
      (mirror.deliver "r" "t" losing).1.remote[record.projectionId]? = none := by
  have sound := faithful.sound record.projectionId
  cases pending : mirror.deltas[record.projectionId]? with
  | none =>
      have settled := sound.settled (by simp [Mirror.cell, Mirror.entry, pending])
      simp [Mirror.cell, Mirror.entry, unwanted, acknowledged] at settled
  | some delta =>
      have deletion : delta.record = none := by
        have due := sound.due delta.record (by simp [Mirror.cell, Mirror.entry, pending])
        exact due.trans unwanted
      have same := faithful.deltas _ delta pending
      rw [← same] at pending ⊢
      obtain ⟨before, untouched, after⟩ :=
        Mirror.deliver_at faithful.deltas pending "r" "t" losing
      have found : before.1.entry delta.projectionId = mirror.entry delta.projectionId :=
        congrArg Prod.fst untouched
      have delivered : (mirror.deliver "r" "t" losing).1.entry delta.projectionId = _ :=
        congrArg Prod.fst after
      rw [Mirror.applyDelta, deletion] at delivered
      simp only [Mirror.deliverEntry, Mirror.applyDelete, losing, Mirror.entry, if_true,
        Prod.mk.injEq] at delivered found
      refine ⟨delivered.1.trans found.1, delivered.2.2.trans ?_⟩
      rw [Dict.get_erase, if_pos rfl]

private def shown (calls : List (ServiceCall "n")) : Option (List RetrievalRecord) :=
  ((reachedBy calls).installation.memory.materialize unread .default).1.toOption.map fun state =>
    Dict.values (projected state "n")

/-- The record with the last id; it is that of a conflict. -/
private def lastShown (calls : List (ServiceCall "n")) : Option RetrievalRecord :=
  (shown calls).bind List.getLast?

private theorem shown_eq {calls : List (ServiceCall "n")} {records : List RetrievalRecord}
    (isShown : shown calls = some records) :
    ∃ state, ((reachedBy calls).installation.memory.materialize unread .default).1 = .ok state ∧
      Dict.values (projected state "n") = records := by
  unfold shown at isShown
  cases isState : ((reachedBy calls).installation.memory.materialize unread .default).1 with
  | error failure =>
      rw [isState] at isShown
      cases isShown
  | ok state =>
      rw [isState] at isShown
      injection isShown with same
      exact ⟨state, rfl, same⟩

private theorem lastShown_eq {calls : List (ServiceCall "n")} {record : RetrievalRecord}
    (isLast : lastShown calls = some record) :
    ∃ state, ((reachedBy calls).installation.memory.materialize unread .default).1 = .ok state ∧
      (projected state "n")[record.projectionId]? = some record := by
  obtain ⟨records, isShown, last⟩ := Option.bind_eq_some_iff.mp isLast
  obtain ⟨state, isState, same⟩ := shown_eq isShown
  obtain ⟨projectionId, found⟩ := (Dict.mem_values _ _).mp (same ▸ List.mem_of_getLast? last)
  refine ⟨state, isState, ?_⟩
  rw [Mirror.projected_filed state "n" projectionId record found]
  exact found

end Runs

section Witness

attribute [local instance] Reference.runtime plainWords

/-- The retracted claim is deleted by its projection delta. -/
theorem synchronize_exact_iff_dropped :
    ∃ report state, (synchronized dropped).1.toOption.map Prod.snd = some report ∧
      report.failed = [] ∧ report.deleted.length = 1 ∧
      (synchronized dropped).2.mirror.remote = projected state "n" := by
  have computed : counts dropped = some (0, 1, 0, 0) := by decide +kernel
  obtain ⟨cursor, report, built, returned, isBuilt, failed, deleted, _, wanted⟩ :=
    counts_eq computed
  have clean := List.length_eq_zero_iff.mp failed
  have keeps : ∀ call ∈ dropped, call.KeepsRegistry := by
    intro call member
    simp only [dropped, List.mem_cons, List.not_mem_nil, or_false] at member
    rcases member with rfl | rfl | rfl <;> exact True.intro
  have atomic : ∀ call ∈ dropped, call.DeletesAtomically := by
    intro call member
    simp only [dropped, List.mem_cons, List.not_mem_nil, or_false] at member
    rcases member with rfl | rfl | rfl
    · exact True.intro
    · intro projectionId failure removed raised
      cases raised
    · exact True.intro
  obtain ⟨state, _, exact, retained⟩ := synchronize_exact_iff Reference.collisionFree
    (some (.empty, 0)) none dropped keeps "t" obliging (rfl : reachedBy dropped = _)
    (Prod.ext returned rfl) clean
  exact ⟨report, state, by rw [returned]; rfl, clean, deleted, exact.mpr (retained atomic)⟩

end Witness

section Counterexample

attribute [local instance] Reference.runtime plainWords

private theorem keeps {calls : List (ServiceCall "n")} (prior : calls.IsPrefix lost) :
    ∀ call ∈ calls, call.KeepsRegistry := by
  intro call member
  have listed := prior.subset member
  simp only [lost, joined, disagreeing, List.cons_append, List.nil_append, List.mem_cons,
    List.not_mem_nil, or_false] at listed
  rcases listed with rfl | rfl | rfl | rfl | rfl <;> exact True.intro

private theorem reached_follows (calls : List (ServiceCall "n")) (prior : calls.IsPrefix lost) :
    (reachedBy calls).Follows "n" False :=
  run_follows Reference.collisionFree (start_follows _ _ _ _) calls (keeps prior) False.elim

private theorem shownAgain : lastShown disagreeing = lastShown lost := by decide +kernel

private theorem goneBetween : ((lastShown disagreeing).any fun record =>
    (shown joined).any fun records =>
      record.projectionId ∉ records.map RetrievalRecord.projectionId) = true := by
  decide +kernel

/-- The first conflict is there again, with its old fingerprint.  It is neither pending nor
written, and the synchronization reports no failure. -/
theorem synchronize_exact_iff_lost :
    ∃ report state, (synchronized lost).1.toOption.map Prod.snd = some report ∧
      report.failed = [] ∧
      ((reachedBy lost).installation.memory.materialize unread .default).1 = .ok state ∧
      (synchronized lost).2.mirror.remote ≠ projected state "n" := by
  obtain ⟨record, isLast, between⟩ := (Option.any_eq_true _ _).mp goneBetween
  obtain ⟨records, isShown, absent⟩ := (Option.any_eq_true _ _).mp between
  obtain ⟨first, isFirst, wantedFirst⟩ := lastShown_eq isLast
  obtain ⟨second, isSecond, listed⟩ := shown_eq isShown
  obtain ⟨third, isThird, wantedThird⟩ := lastShown_eq (shownAgain.symm.trans isLast)
  have unwanted : (projected second "n")[record.projectionId]? = none := by
    refine Option.eq_none_iff_forall_ne_some.mpr fun other found => ?_
    refine of_decide_eq_true absent (List.mem_map.mpr ⟨other, ?_, ?_⟩)
    · rw [← listed]
      exact (Dict.mem_values _ _).mpr ⟨_, found⟩
    · exact Mirror.projected_filed second "n" _ other found
  -- The conflict is written, and its reference has its fingerprint.
  obtain ⟨_, _, firstMirror, firstSync, firstFaithful, _, _⟩ :=
    (reached_follows disagreeing ⟨_, rfl⟩).synchronized Reference.collisionFree isFirst
      "r" "t" obliging
  have written : ((firstMirror.deliver "r" "t" obliging).1.references[record.projectionId]?).map
      Mirror.stamp = some (stampOf record) := by
    have after : (firstMirror.deliver "r" "t" obliging).1.Faithful (projected first "n") :=
      Mirror.deliver_faithful firstFaithful
    have idle : (firstMirror.deliver "r" "t" obliging).1.deltas = ∅ :=
      Mirror.deliver_clean firstFaithful (obliging_clean firstMirror)
    have settled := (after.sound record.projectionId).settled (by
      simp [Mirror.cell, Mirror.entry, idle])
    simpa [Mirror.cell, Mirror.entry, wantedFirst] using settled
  -- Its deletion raises; the reference is kept, and the repository has lost the record.
  obtain ⟨_, _, secondMirror, secondSync, secondFaithful, secondReferences, _⟩ :=
    (reached_follows joined ⟨_, rfl⟩).synchronized Reference.collisionFree isSecond
      "r" "t" losing
  rw [joined, reachedBy_synchronized, firstSync] at secondReferences
  obtain ⟨kept, removed⟩ := losing_entry secondFaithful unwanted (by
    rw [secondReferences]
    exact written)
  rw [secondReferences] at kept
  -- The record is wanted again, and what the reference says is believed.
  obtain ⟨_, _, thirdMirror, thirdSync, thirdFaithful, thirdReferences, thirdRemote⟩ :=
    (reached_follows lost ⟨_, rfl⟩).synchronized Reference.collisionFree isThird
      "r" "t" obliging
  rw [lost, reachedBy_synchronized, secondSync] at thirdReferences thirdRemote
  have clean := obliging_clean thirdMirror
  refine ⟨_, third, ?_, clean, isThird, ?_⟩
  · rw [synchronized, thirdSync]
    rfl
  · rw [synchronized, thirdSync]
    intro same
    have retains :=
      (thirdFaithful.deliver_iff Reference.collisionFree "r" "t" obliging clean).mp same
    obtain ⟨held, isHeld⟩ := retains record.projectionId record wantedThird
      (Mirror.isAcknowledged_iff.mpr (by rw [thirdReferences, kept, written]))
    rw [thirdRemote, removed] at isHeld
    cases isHeld

end Counterexample

end Service

end Example

end Statefuse
