import Statefuse.Materialize.FullSpec
import Statefuse.Materialize.IncrementalSpec
import Statefuse.Reference

/-!
# Incremental materialization refines full materialization

Whatever the order in which operations arrive and however they are cut into chunks, the
incremental steps reach the state that full materialization computes from the log of
everything delivered, and a chunk fails exactly when full materialization fails on that
log (`applyChunks_eq_materialize`).
-/

namespace Statefuse

open Foundation

section Refinement

variable [Runtime]

/-- An operation id stands for one operation. -/
def IdsBound (ops : List Op) : Prop :=
  ∀ first ∈ ops, ∀ second ∈ ops, first.opId = second.opId → first = second

/-- Adding operations whose ids are bound never fails. -/
private theorem addAll_ok {ops : List Op} {log : OpLog} {known : List Op}
    (listed : ∀ op, op ∈ log.iterOps ↔ op ∈ known) (bound : IdsBound (known ++ ops)) :
    ∃ result : OpLog, ops.foldlM (fun log op => (log.add op).map Prod.fst) log = .ok result ∧
      ∀ op, op ∈ result.iterOps ↔ op ∈ known ++ ops := by
  induction ops generalizing log known with
  | nil =>
      refine ⟨log, rfl, ?_⟩
      simpa using listed
  | cons head tail inductionHypothesis =>
      have headIn : head ∈ known ++ head :: tail := by simp
      obtain ⟨next, added, members⟩ : ∃ next : OpLog,
          (log.add head).map Prod.fst = .ok next ∧
          ∀ op, op ∈ next.iterOps ↔ op ∈ known ++ [head] := by
        unfold OpLog.add
        cases found : log.ops[head.opId]? with
        | none =>
            refine ⟨log.insert head, rfl, ?_⟩
            intro op
            rw [OpLog.mem_iterOps, OpLog.insert, Dict.get_insert, List.mem_append,
              List.mem_singleton]
            by_cases same : head.opId = op.opId
            · rw [if_pos same, Option.some.injEq]
              constructor
              · intro equal
                exact Or.inr equal.symm
              · rintro (earlier | equal)
                · rw [← listed, OpLog.mem_iterOps, ← same, found] at earlier
                  cases earlier
                · exact equal.symm
            · rw [if_neg same, ← OpLog.mem_iterOps, listed]
              constructor
              · exact Or.inl
              · rintro (earlier | equal)
                · exact earlier
                · exact absurd (congrArg Op.opId equal).symm same
        | some existing =>
            have sameId := log.keyed _ _ found
            have isListed : existing ∈ log.iterOps := by
              rw [OpLog.mem_iterOps, sameId]
              exact found
            have equal : existing = head :=
              bound existing (List.mem_append_left _ ((listed existing).mp isListed)) head headIn
                sameId
            simp only [equal, pyEq_refl, if_true]
            refine ⟨log, rfl, ?_⟩
            intro op
            rw [listed, List.mem_append, List.mem_singleton]
            constructor
            · exact Or.inl
            · rintro (earlier | same)
              · exact earlier
              · rw [same, ← equal, ← listed]
                exact isListed
      rw [List.foldlM_cons, bind_of_ok added]
      have regroup : known ++ head :: tail = known ++ [head] ++ tail := by simp
      rw [regroup] at bound ⊢
      exact inductionHypothesis members bound

/-- The log of operations whose ids are bound has exactly these operations. -/
theorem OpLog.ofOps_ok {ops : List Op} (bound : IdsBound ops) :
    ∃ log, OpLog.ofOps ops = .ok log ∧ ∀ op, op ∈ log.iterOps ↔ op ∈ ops := by
  have none : ∀ op, op ∈ OpLog.empty.iterOps ↔ op ∈ ([] : List Op) := by
    intro op
    rw [OpLog.mem_iterOps]
    simp [OpLog.empty]
  obtain ⟨log, run, members⟩ := addAll_ok none (by simpa using bound)
  exact ⟨log, run, by simpa using members⟩

/-- Records that `==` identifies are one record, for every kind of record. -/
structure Contents.Comparable (contents : Contents) : Prop where
  source : Structural contents.source
  evidence : Structural contents.evidence
  claim : Structural contents.claim
  decision : Structural contents.decision
  derivation : Structural contents.derivation
  resolution : Structural contents.resolution
  event : Structural contents.event

theorem Contents.Comparable.plain {ops : List Op} (bound : IdsBound ops)
    (comparable : (Contents.of (· ∈ ops)).Comparable) : (Contents.of (· ∈ ops)).Plain where
  source := comparable.source
  evidence := comparable.evidence
  claim := comparable.claim
  decision := comparable.decision
  derivation := comparable.derivation
  resolution := comparable.resolution
  event := comparable.event
  retraction := by
    intro first second firstListed secondListed same
    have equal := bound _ firstListed _ secondListed same
    injection equal

theorem Contents.Comparable.mono {fewer more : List Op} (among : ∀ op ∈ fewer, op ∈ more)
    (comparable : (Contents.of (· ∈ more)).Comparable) :
    (Contents.of (· ∈ fewer)).Comparable := by
  have within := Contents.within_of among
  exact {
    source := fun first second left right =>
      comparable.source first second (within.source _ left) (within.source _ right)
    evidence := fun first second left right =>
      comparable.evidence first second (within.evidence _ left) (within.evidence _ right)
    claim := fun first second left right =>
      comparable.claim first second (within.claim _ left) (within.claim _ right)
    decision := fun first second left right =>
      comparable.decision first second (within.decision _ left) (within.decision _ right)
    derivation := fun first second left right =>
      comparable.derivation first second (within.derivation _ left) (within.derivation _ right)
    resolution := fun first second left right =>
      comparable.resolution first second (within.resolution _ left) (within.resolution _ right)
    event := fun first second left right =>
      comparable.event first second (within.event _ left) (within.event _ right) }

/-! ## Full materialization of what was delivered -/

/-- Full materialization of the log of some operations, in the canonical scope. -/
def materializeAll (registry : PredicateRegistry) (ops : List Op) : Result MemoryState := do
  let log ← OpLog.ofOps ops
  materialize log registry [] none ∅

/-- Incremental materialization, chunk by chunk from the empty log. -/
def applyChunks (registry : PredicateRegistry) (chunks : List (List Op)) : Result MemoryState := do
  let start ← materialize OpLog.empty registry [] none ∅
  chunks.foldlM (fun state chunk => (applyOperationsIncrementally state chunk []).map Prod.fst)
    start

section Delivered

variable {registry : PredicateRegistry} {ops : List Op}

private theorem contents_congr {first second : List Op}
    (same : ∀ op, op ∈ first ↔ op ∈ second) :
    Contents.of (· ∈ first) = Contents.of (· ∈ second) := by
  congr 1
  funext op
  exact propext (same op)

theorem materializeAll_represents (collisionFree : CollisionFree) (bound : IdsBound ops)
    (comparable : (Contents.of (· ∈ ops)).Comparable) {state : MemoryState}
    (run : materializeAll registry ops = .ok state) :
    Represents registry (.of (· ∈ ops)) state ∧ (Contents.of (· ∈ ops)).Good registry := by
  obtain ⟨log, built, members⟩ := OpLog.ofOps_ok bound
  rw [materializeAll, bind_of_ok built] at run
  have plain := comparable.plain bound
  rw [← contents_congr members] at plain ⊢
  exact materialize_represents collisionFree plain run

theorem materializeAll_exists (collisionFree : CollisionFree) (bound : IdsBound ops)
    (comparable : (Contents.of (· ∈ ops)).Comparable)
    (good : (Contents.of (· ∈ ops)).Good registry) :
    ∃ state, materializeAll registry ops = .ok state := by
  obtain ⟨log, built, members⟩ := OpLog.ofOps_ok bound
  have plain := comparable.plain bound
  rw [← contents_congr members] at plain good
  obtain ⟨state, run⟩ := materialize_exists collisionFree plain good
  exact ⟨state, by rw [materializeAll, bind_of_ok built, run]⟩

/-- One chunk does what full materialization does with everything up to it. -/
theorem applyChunk_iff (collisionFree : CollisionFree) {delivered chunk : List Op}
    (bound : IdsBound (delivered ++ chunk))
    (comparable : (Contents.of (· ∈ delivered ++ chunk)).Comparable) {state : MemoryState}
    (materialized : materializeAll registry delivered = .ok state) (next : MemoryState) :
    (applyOperationsIncrementally state chunk []).map Prod.fst = .ok next ↔
      materializeAll registry (delivered ++ chunk) = .ok next := by
  by_cases idle : chunk = []
  · rw [idle, List.append_nil, materialized]
    rfl
  · have boundBefore : IdsBound delivered := fun first left second right =>
      bound first (List.mem_append_left _ left) second (List.mem_append_left _ right)
    obtain ⟨represents, good⟩ := materializeAll_represents collisionFree boundBefore
      (comparable.mono (fun op => List.mem_append_left _)) materialized
    have after : chunk.foldl Contents.add (Contents.of (· ∈ delivered)) =
        Contents.of (· ∈ delivered ++ chunk) := by
      rw [Contents.of_addAll]
      congr 1
      funext op
      exact propext List.mem_append.symm
    have plain := comparable.plain bound
    rw [← after] at plain
    constructor
    · intro run
      rw [map_ok_iff] at run
      obtain ⟨⟨reached, delta⟩, run, same⟩ := run
      obtain ⟨represented, goodAfter, _⟩ :=
        applyOperations_represents collisionFree represents good idle plain run
      rw [after] at represented goodAfter
      obtain ⟨full, materializes⟩ := materializeAll_exists collisionFree bound comparable goodAfter
      have represented' := (materializeAll_represents collisionFree bound comparable
        materializes).1
      rw [materializes, ← same, represented.unique represented']
    · intro materializes
      obtain ⟨represented, goodAfter⟩ :=
        materializeAll_represents collisionFree bound comparable materializes
      rw [← after] at goodAfter represented
      obtain ⟨⟨reached, delta⟩, run⟩ :=
        applyOperations_exists collisionFree represents good idle plain goodAfter
      obtain ⟨represented', _, _⟩ :=
        applyOperations_represents collisionFree represents good idle plain run
      rw [run, represented.unique represented']
      rfl

private theorem foldlM_chunks (collisionFree : CollisionFree) {chunks : List (List Op)}
    {delivered : List Op} (bound : IdsBound (delivered ++ chunks.flatten))
    (comparable : (Contents.of (· ∈ delivered ++ chunks.flatten)).Comparable)
    {state : MemoryState} (materialized : materializeAll registry delivered = .ok state)
    (prefixes : ∀ count < chunks.length,
      ∃ reached, materializeAll registry (delivered ++ (chunks.take count).flatten) = .ok reached)
    (final : MemoryState) :
    chunks.foldlM (fun state chunk => (applyOperationsIncrementally state chunk []).map Prod.fst)
        state = .ok final ↔
      materializeAll registry (delivered ++ chunks.flatten) = .ok final := by
  induction chunks generalizing delivered state with
  | nil =>
      rw [List.foldlM_nil, List.flatten_nil, List.append_nil, materialized]
      rfl
  | cons chunk rest inductionHypothesis =>
      rw [List.flatten_cons, ← List.append_assoc] at bound comparable ⊢
      have boundHead : IdsBound (delivered ++ chunk) := fun first left second right =>
        bound first (List.mem_append_left _ left) second (List.mem_append_left _ right)
      have head : ∀ next,
          (applyOperationsIncrementally state chunk []).map Prod.fst = .ok next ↔
            materializeAll registry (delivered ++ chunk) = .ok next :=
        applyChunk_iff collisionFree boundHead
          (comparable.mono (fun op => List.mem_append_left _)) materialized
      rw [List.foldlM_cons, bind_ok_iff]
      have later : ∀ next, materializeAll registry (delivered ++ chunk) = .ok next →
          (rest.foldlM (fun state chunk =>
              (applyOperationsIncrementally state chunk []).map Prod.fst) next = .ok final ↔
            materializeAll registry (delivered ++ chunk ++ rest.flatten) = .ok final) := by
        intro next reached
        apply inductionHypothesis bound comparable reached
        intro count within
        have known := prefixes (count + 1) (by simpa using within)
        rw [List.take_succ_cons, List.flatten_cons, ← List.append_assoc] at known
        exact known
      constructor
      · rintro ⟨next, stepped, run⟩
        exact (later next ((head next).mp stepped)).mp run
      · intro whole
        by_cases last : rest = []
        · rw [last, List.flatten_nil, List.append_nil] at whole
          refine ⟨final, (head final).mpr whole, ?_⟩
          rw [last]
          rfl
        · obtain ⟨next, reached⟩ := prefixes 1
            (by simpa using List.length_pos_iff.mpr last)
          rw [List.take_succ_cons, List.take_zero, List.flatten_singleton] at reached
          exact ⟨next, (head next).mpr reached, (later next reached).mpr whole⟩

end Delivered

/-- Incremental materialization of any chunks agrees with full materialization of all that
they deliver, results and failures alike, once the earlier prefixes materialize. -/
theorem applyChunks_eq_materialize (collisionFree : CollisionFree) (registry : PredicateRegistry)
    (chunks : List (List Op)) (bound : IdsBound chunks.flatten)
    (comparable : (Contents.of (· ∈ chunks.flatten)).Comparable)
    (prefixes : ∀ count < chunks.length,
      ∃ reached, materializeAll registry (chunks.take count).flatten = .ok reached)
    (state : MemoryState) :
    applyChunks registry chunks = .ok state ↔
      materializeAll registry chunks.flatten = .ok state := by
  obtain ⟨start, started⟩ : ∃ start, materialize OpLog.empty registry [] none ∅ = .ok start := by
    cases chunks with
    | nil =>
        have nothing : (Contents.of (· ∈ OpLog.empty.iterOps)).Good registry := by
          have none : ∀ op, op ∉ OpLog.empty.iterOps := by
            intro op
            rw [OpLog.mem_iterOps]
            simp [OpLog.empty]
          simp only [none]
          rw [Contents.of_empty]
          exact Contents.good_empty registry
        exact materialize_exists collisionFree (comparable.plain bound) nothing
    | cons chunk rest => exact prefixes 0 (by simp)
  have all := @foldlM_chunks _ registry collisionFree chunks [] bound comparable start started
    prefixes state
  rw [applyChunks, bind_of_ok started]
  exact all

end Refinement

section Example

attribute [local instance] Reference.runtime

private def first : Op :=
  .claimAdded ⟨"op-a", "r", "t"⟩ (Reference.fact "a" Reference.key (.str "x") [])

private def second : Op :=
  .claimAdded ⟨"op-b", "r", "t"⟩ (Reference.fact "b" Reference.key (.str "y") ["e"])

/-- The second chunk delivers an operation again. -/
def deliveredChunks : List (List Op) := [[first], [second, first]]

private theorem delivered_cases {op : Op} (member : op ∈ deliveredChunks.flatten) :
    op = first ∨ op = second := by
  simpa [deliveredChunks, or_comm, or_left_comm] using member

theorem applyChunks_eq_materialize_two :
    ∃ state, applyChunks .empty deliveredChunks = .ok state ∧
      materializeAll .empty deliveredChunks.flatten = .ok state ∧
      state.conflicts.length = 1 := by
  have bound : IdsBound deliveredChunks.flatten := by
    intro left leftMember right rightMember same
    rcases delivered_cases leftMember with rfl | rfl <;>
      rcases delivered_cases rightMember with rfl | rfl
    · rfl
    · exact absurd same (by decide)
    · exact absurd same (by decide)
    · rfl
  have claims : ∀ {header claim}, Op.claimAdded header claim ∈ deliveredChunks.flatten →
      claim = Reference.fact "a" Reference.key (.str "x") [] ∨
        claim = Reference.fact "b" Reference.key (.str "y") ["e"] := by
    intro header claim member
    rcases delivered_cases member with same | same
    · injection same with _ same
      exact Or.inl same
    · injection same with _ same
      exact Or.inr same
  have comparable : (Contents.of (· ∈ deliveredChunks.flatten)).Comparable := by
    constructor
    case claim =>
      rintro left right ⟨_, leftMember⟩ ⟨_, rightMember⟩ same
      rcases claims leftMember with rfl | rfl <;> rcases claims rightMember with rfl | rfl
      · rfl
      · exact absurd same (by decide +kernel)
      · exact absurd same (by decide +kernel)
      · rfl
    all_goals
      rintro left right ⟨_, leftMember⟩ _ _
      rcases delivered_cases leftMember with same | same <;> cases same
  have computed : ((materializeAll .empty deliveredChunks.flatten).toOption.map
      fun state => state.conflicts.length) = some 1 := by
    decide +kernel
  have prefixes : ∀ count < deliveredChunks.length,
      ∃ reached, materializeAll .empty (deliveredChunks.take count).flatten = .ok reached := by
    intro count within
    have ok :
        (materializeAll .empty (deliveredChunks.take count).flatten).toOption.isSome = true := by
      have cases : count = 0 ∨ count = 1 := by
        have small : count < 2 := within
        omega
      rcases cases with rfl | rfl <;> decide +kernel
    cases run : materializeAll .empty (deliveredChunks.take count).flatten with
    | error failure =>
        rw [run] at ok
        cases ok
    | ok reached => exact ⟨reached, rfl⟩
  cases run : materializeAll .empty deliveredChunks.flatten with
  | error failure =>
      rw [run] at computed
      cases computed
  | ok state =>
      rw [run] at computed
      injection computed with computed
      exact ⟨state, (applyChunks_eq_materialize Reference.collisionFree .empty deliveredChunks
        bound comparable prefixes state).mpr run, rfl, computed⟩

end Example

end Statefuse
