import Statefuse.Foundation.Outcome
import Statefuse.Foundation.Union
import Statefuse.OpLog

/-!
# Laws of merging logs

A log is a functional relation from operation ids to payloads, where payloads are
compared by `==`.  Merging is the union of two such relations, and it fails exactly when
the union is not functional; commutativity, associativity and idempotence follow from the
laws of unions, failures included.
-/

namespace Statefuse

open Foundation

variable [Runtime]

namespace OpLog

/-- The log binds an id to a payload. -/
def Binds (log : OpLog) (opId : String) (payload : PyEq.Key Op) : Prop :=
  ∃ op, log.ops[opId]? = some op ∧ PyEq.key op = payload

/-- The `==` of logs: the same ids, bound to operations that are `==`. -/
def Equal (first second : OpLog) : Prop :=
  ∀ opId : String,
    match first.ops[opId]?, second.ops[opId]? with
    | none, none => True
    | some op, some other => pyEq op other = true
    | _, _ => False

theorem binds_functional (log : OpLog) : Functional log.Binds := by
  rintro opId left right ⟨op, found, same⟩ ⟨other, otherFound, otherSame⟩
  rw [found, Option.some.injEq] at otherFound
  rw [← same, ← otherSame, otherFound]

theorem equal_iff (first second : OpLog) : first.Equal second ↔ first.Binds = second.Binds := by
  constructor
  · intro equal
    funext opId payload
    apply propext
    have here := equal opId
    unfold Binds
    cases left : first.ops[opId]? with
    | none =>
        cases right : second.ops[opId]? with
        | none => simp
        | some other => simp [left, right] at here
    | some op =>
        cases right : second.ops[opId]? with
        | none => simp [left, right] at here
        | some other =>
            simp only [left, right] at here
            simp only [Option.some.injEq, exists_eq_left', pyEq_iff.mp here]
  · intro same opId
    have here : ∀ payload, first.Binds opId payload ↔ second.Binds opId payload := by
      intro payload
      rw [same]
    unfold Binds at here
    cases left : first.ops[opId]? with
    | none =>
        cases right : second.ops[opId]? with
        | none => trivial
        | some other =>
            have impossible := (here (PyEq.key other)).mpr ⟨other, right, rfl⟩
            simp [left] at impossible
    | some op =>
        obtain ⟨other, right, sameKey⟩ := (here (PyEq.key op)).mp ⟨op, left, rfl⟩
        rw [right]
        exact pyEq_iff.mpr sameKey.symm

theorem binds_empty : OpLog.empty.Binds = fun _ _ => False := by
  funext opId payload
  simp [Binds, empty]

/-- The relation of some operations. -/
def BindsAll (ops : List Op) (opId : String) (payload : PyEq.Key Op) : Prop :=
  ∃ op ∈ ops, op.opId = opId ∧ PyEq.key op = payload

theorem bindsAll_iterOps (log : OpLog) : BindsAll log.iterOps = log.Binds := by
  funext opId payload
  apply propext
  unfold BindsAll Binds iterOps
  constructor
  · rintro ⟨op, member, sameId, same⟩
    obtain ⟨place, found⟩ := (Dict.mem_values log.ops op).mp member
    have own := log.keyed place op found
    rw [sameId] at own
    rw [own]
    exact ⟨op, found, same⟩
  · rintro ⟨op, found, same⟩
    exact ⟨op, (Dict.mem_values log.ops op).mpr ⟨opId, found⟩, log.keyed opId op found, same⟩

theorem bindsAll_cons (op : Op) (ops : List Op) :
    BindsAll (op :: ops) = union (BindsAll [op]) (BindsAll ops) := by
  funext opId payload
  apply propext
  simp [BindsAll, union]

/-- Adding one operation is a union, and fails when the union is not functional. -/
theorem add_iff (log : OpLog) (op : Op) :
    ((∃ next, (log.add op).map Prod.fst = .ok next) ↔
      Functional (union log.Binds (BindsAll [op]))) ∧
    ∀ next : OpLog, (log.add op).map Prod.fst = .ok next →
      next.Binds = union log.Binds (BindsAll [op]) := by
  have single : Functional (BindsAll [op]) := by
    rintro opId left right ⟨first, firstIn, _, leftIs⟩ ⟨second, secondIn, _, rightIs⟩
    rw [List.mem_singleton.mp firstIn] at leftIs
    rw [List.mem_singleton.mp secondIn] at rightIs
    rw [← leftIs, rightIs]
  rw [functional_union log.binds_functional single]
  unfold add
  cases found : log.ops[op.opId]? with
  | none =>
      refine ⟨iff_of_true ⟨log.insert op, rfl⟩ ?_, ?_⟩
      · rintro opId left right ⟨first, bound, _⟩ ⟨second, secondIn, sameId, _⟩
        rw [List.mem_singleton.mp secondIn] at sameId
        rw [← sameId, found] at bound
        cases bound
      · intro next same
        injection same with same
        rw [← same]
        funext opId payload
        apply propext
        unfold union Binds BindsAll insert
        simp only [Dict.get_insert, List.mem_singleton, exists_eq_left]
        by_cases here : op.opId = opId
        · subst here
          simp [found]
        · simp [here]
  | some existing =>
      by_cases equal : pyEq existing op = true
      · simp only [if_pos equal]
        refine ⟨iff_of_true ⟨log, rfl⟩ ?_, ?_⟩
        · rintro opId left right ⟨first, bound, leftIs⟩ ⟨second, secondIn, sameId, rightIs⟩
          rw [List.mem_singleton.mp secondIn] at sameId rightIs
          rw [← sameId, found, Option.some.injEq] at bound
          rw [← leftIs, ← rightIs, ← bound, pyEq_iff.mp equal]
        · intro next same
          injection same with same
          rw [← same]
          funext opId payload
          apply propext
          refine ⟨Or.inl, ?_⟩
          rintro (bound | ⟨second, secondIn, sameId, is⟩)
          · exact bound
          · rw [List.mem_singleton.mp secondIn] at sameId is
            rw [← sameId, ← is]
            exact ⟨existing, found, pyEq_iff.mp equal⟩
      · simp only [if_neg equal]
        refine ⟨iff_of_false ?_ ?_, ?_⟩
        · rintro ⟨next, impossible⟩
          cases impossible
        · intro agreeing
          exact equal (pyEq_iff.mpr (agreeing op.opId _ _ ⟨existing, found, rfl⟩
            ⟨op, List.mem_singleton_self op, rfl, rfl⟩))
        · intro next impossible
          cases impossible

/-- Adding several operations is a union. -/
theorem addAll_iff (ops : List Op) (log : OpLog) :
    ((∃ next, ops.foldlM (fun log op => (log.add op).map Prod.fst) log = .ok next) ↔
      Functional (union log.Binds (BindsAll ops))) ∧
    ∀ next : OpLog, ops.foldlM (fun log op => (log.add op).map Prod.fst) log = .ok next →
      next.Binds = union log.Binds (BindsAll ops) := by
  induction ops generalizing log with
  | nil =>
      have unchanged : union log.Binds (BindsAll []) = log.Binds := by
        funext opId payload
        simp [union, BindsAll]
      rw [unchanged]
      refine ⟨iff_of_true ⟨log, rfl⟩ log.binds_functional, ?_⟩
      intro next same
      injection same with same
      rw [same]
  | cons head tail inductionHypothesis =>
      obtain ⟨succeeds, result⟩ := add_iff log head
      rw [bindsAll_cons, ← union_assoc]
      constructor
      · constructor
        · rintro ⟨final, run⟩
          rw [List.foldlM_cons, bind_ok_iff] at run
          obtain ⟨next, added, run⟩ := run
          rw [← result next added]
          exact (inductionHypothesis next).1.mp ⟨final, run⟩
        · intro functional
          obtain ⟨next, added⟩ := succeeds.mpr functional.left
          rw [← result next added] at functional
          obtain ⟨final, run⟩ := (inductionHypothesis next).1.mpr functional
          exact ⟨final, by rw [List.foldlM_cons, bind_of_ok added, run]⟩
      · intro final run
        rw [List.foldlM_cons, bind_ok_iff] at run
        obtain ⟨next, added, run⟩ := run
        rw [(inductionHypothesis next).2 final run, result next added]

theorem ofOps_iff (ops : List Op) :
    ((∃ log, ofOps ops = .ok log) ↔ Functional (BindsAll ops)) ∧
      ∀ log, ofOps ops = .ok log → log.Binds = BindsAll ops := by
  have all := addAll_iff ops OpLog.empty
  have unchanged : union OpLog.empty.Binds (BindsAll ops) = BindsAll ops := by
    rw [binds_empty]
    funext opId payload
    simp [union]
  rw [unchanged] at all
  exact all

/-- Merging is a union. -/
theorem merge_iff (first second : OpLog) :
    ((∃ merged, merge first second = .ok merged) ↔ Agreeing first.Binds second.Binds) ∧
      ∀ merged, merge first second = .ok merged →
        merged.Binds = union first.Binds second.Binds := by
  obtain ⟨copies, copied⟩ := ofOps_iff first.iterOps
  rw [bindsAll_iterOps] at copies copied
  obtain ⟨copy, run⟩ := copies.mpr first.binds_functional
  obtain ⟨succeeds, result⟩ := addAll_iff second.iterOps copy
  rw [bindsAll_iterOps, copied copy run] at succeeds result
  rw [merge, bind_of_ok run, ← functional_union first.binds_functional second.binds_functional]
  exact ⟨succeeds, result⟩

end OpLog

/-! ## The laws -/

/-- Both computations fail, or both give equal logs. -/
def Agree (first second : Result OpLog) : Prop :=
  match first, second with
  | .ok log, .ok other => log.Equal other
  | .error _, .error _ => True
  | _, _ => False

/-- Computations agree when they succeed together and then bind the same. -/
private theorem agree_of {first second : Result OpLog} {related : String → PyEq.Key Op → Prop}
    {condition : Prop} (firstOk : (∃ log, first = .ok log) ↔ condition)
    (secondOk : (∃ log, second = .ok log) ↔ condition)
    (firstBinds : ∀ log, first = .ok log → log.Binds = related)
    (secondBinds : ∀ log, second = .ok log → log.Binds = related) : Agree first second := by
  unfold Agree
  cases first with
  | error failure =>
      cases second with
      | error other => trivial
      | ok log =>
          obtain ⟨_, impossible⟩ := firstOk.mpr (secondOk.mp ⟨log, rfl⟩)
          cases impossible
  | ok log =>
      cases second with
      | error other =>
          obtain ⟨_, impossible⟩ := secondOk.mpr (firstOk.mp ⟨log, rfl⟩)
          cases impossible
      | ok other =>
          exact (OpLog.equal_iff log other).mpr
            ((firstBinds log rfl).trans (secondBinds other rfl).symm)

private theorem mergeLeft_iff (first second third : OpLog) :
    ((∃ merged, (OpLog.merge first second >>= fun log => OpLog.merge log third) = .ok merged) ↔
      Functional (union (union first.Binds second.Binds) third.Binds)) ∧
    ∀ merged, (OpLog.merge first second >>= fun log => OpLog.merge log third) = .ok merged →
      merged.Binds = union (union first.Binds second.Binds) third.Binds := by
  obtain ⟨succeeds, result⟩ := OpLog.merge_iff first second
  constructor
  · constructor
    · rintro ⟨final, run⟩
      rw [bind_ok_iff] at run
      obtain ⟨log, merged, run⟩ := run
      rw [← result log merged, functional_union log.binds_functional third.binds_functional]
      exact (OpLog.merge_iff log third).1.mp ⟨final, run⟩
    · intro functional
      obtain ⟨log, merged⟩ := succeeds.mpr
        ((functional_union first.binds_functional second.binds_functional).mp functional.left)
      rw [← result log merged, functional_union log.binds_functional third.binds_functional]
        at functional
      obtain ⟨final, run⟩ := (OpLog.merge_iff log third).1.mpr functional
      exact ⟨final, by rw [bind_of_ok merged, run]⟩
  · intro final run
    rw [bind_ok_iff] at run
    obtain ⟨log, merged, run⟩ := run
    rw [(OpLog.merge_iff log third).2 final run, result log merged]

private theorem mergeRight_iff (first second third : OpLog) :
    ((∃ merged, (OpLog.merge second third >>= fun log => OpLog.merge first log) = .ok merged) ↔
      Functional (union (union first.Binds second.Binds) third.Binds)) ∧
    ∀ merged, (OpLog.merge second third >>= fun log => OpLog.merge first log) = .ok merged →
      merged.Binds = union (union first.Binds second.Binds) third.Binds := by
  obtain ⟨succeeds, result⟩ := OpLog.merge_iff second third
  rw [union_assoc]
  constructor
  · constructor
    · rintro ⟨final, run⟩
      rw [bind_ok_iff] at run
      obtain ⟨log, merged, run⟩ := run
      rw [← result log merged, functional_union first.binds_functional log.binds_functional]
      exact (OpLog.merge_iff first log).1.mp ⟨final, run⟩
    · intro functional
      obtain ⟨log, merged⟩ := succeeds.mpr
        ((functional_union second.binds_functional third.binds_functional).mp functional.right)
      rw [← result log merged, functional_union first.binds_functional log.binds_functional]
        at functional
      obtain ⟨final, run⟩ := (OpLog.merge_iff first log).1.mpr functional
      exact ⟨final, by rw [bind_of_ok merged, run]⟩
  · intro final run
    rw [bind_ok_iff] at run
    obtain ⟨log, merged, run⟩ := run
    rw [(OpLog.merge_iff first log).2 final run, result log merged]

/-- The merge of the logs of two iterables. -/
def mergeOps (first second : List Op) : Result OpLog := do
  let left ← OpLog.ofOps first
  let right ← OpLog.ofOps second
  OpLog.merge left right

private theorem mergeOps_iff (first second : List Op) :
    ((∃ merged, mergeOps first second = .ok merged) ↔
      Functional (union (OpLog.BindsAll first) (OpLog.BindsAll second))) ∧
    ∀ merged, mergeOps first second = .ok merged →
      merged.Binds = union (OpLog.BindsAll first) (OpLog.BindsAll second) := by
  obtain ⟨leftOk, leftBinds⟩ := OpLog.ofOps_iff first
  obtain ⟨rightOk, rightBinds⟩ := OpLog.ofOps_iff second
  constructor
  · constructor
    · rintro ⟨final, run⟩
      rw [mergeOps, bind_ok_iff] at run
      obtain ⟨left, builtLeft, run⟩ := run
      rw [bind_ok_iff] at run
      obtain ⟨right, builtRight, run⟩ := run
      rw [← leftBinds left builtLeft, ← rightBinds right builtRight,
        functional_union left.binds_functional right.binds_functional]
      exact (OpLog.merge_iff left right).1.mp ⟨final, run⟩
    · intro functional
      obtain ⟨left, builtLeft⟩ := leftOk.mpr functional.left
      obtain ⟨right, builtRight⟩ := rightOk.mpr functional.right
      rw [← leftBinds left builtLeft, ← rightBinds right builtRight,
        functional_union left.binds_functional right.binds_functional] at functional
      obtain ⟨final, run⟩ := (OpLog.merge_iff left right).1.mpr functional
      exact ⟨final, by rw [mergeOps, bind_of_ok builtLeft, bind_of_ok builtRight, run]⟩
  · intro final run
    rw [mergeOps, bind_ok_iff] at run
    obtain ⟨left, builtLeft, run⟩ := run
    rw [bind_ok_iff] at run
    obtain ⟨right, builtRight, run⟩ := run
    rw [(OpLog.merge_iff left right).2 final run, leftBinds left builtLeft,
      rightBinds right builtRight]

/-- Merging is a partial join of logs: it fails exactly on an id with two payloads, and its
laws hold together with its failures. -/
theorem merge_partial_join (first second third : OpLog) :
    ((¬∃ merged, OpLog.merge first second = .ok merged) ↔ ∃ (opId : String) (op other : Op),
      first.ops[opId]? = some op ∧ second.ops[opId]? = some other ∧ pyEq op other = false) ∧
    Agree (OpLog.merge first second) (OpLog.merge second first) ∧
    Agree (OpLog.merge first second >>= fun log => OpLog.merge log third)
      (OpLog.merge second third >>= fun log => OpLog.merge first log) ∧
    (∃ merged, OpLog.merge first first = .ok merged ∧ merged.Equal first) ∧
    ∀ left left' right right' : List Op, (∀ op, op ∈ left ↔ op ∈ left') →
      (∀ op, op ∈ right ↔ op ∈ right') →
      Agree (mergeOps left right) (mergeOps left' right') := by
  refine ⟨?_, ?_, ?_, ?_, ?_⟩
  · rw [(OpLog.merge_iff first second).1]
    constructor
    · intro disagree
      by_contra together
      apply disagree
      rintro opId left right ⟨op, found, leftIs⟩ ⟨other, otherFound, rightIs⟩
      by_contra different
      refine together ⟨opId, op, other, found, otherFound, ?_⟩
      rw [Bool.eq_false_iff, ne_eq, pyEq_iff, leftIs, rightIs]
      exact different
    · rintro ⟨opId, op, other, found, otherFound, different⟩ agreeing
      rw [Bool.eq_false_iff, ne_eq, pyEq_iff] at different
      exact different (agreeing opId _ _ ⟨op, found, rfl⟩ ⟨other, otherFound, rfl⟩)
  · obtain ⟨succeeds, result⟩ := OpLog.merge_iff first second
    obtain ⟨swappedOk, swapped⟩ := OpLog.merge_iff second first
    rw [← functional_union first.binds_functional second.binds_functional] at succeeds
    rw [← functional_union second.binds_functional first.binds_functional, union_comm]
      at swappedOk
    exact agree_of succeeds swappedOk result
      (fun log run => by rw [swapped log run, union_comm])
  · obtain ⟨leftOk, leftBinds⟩ := mergeLeft_iff first second third
    obtain ⟨rightOk, rightBinds⟩ := mergeRight_iff first second third
    exact agree_of leftOk rightOk leftBinds rightBinds
  · obtain ⟨succeeds, result⟩ := OpLog.merge_iff first first
    obtain ⟨merged, run⟩ := succeeds.mpr first.binds_functional
    refine ⟨merged, run, (OpLog.equal_iff merged first).mpr ?_⟩
    rw [result merged run, union_self]
  · intro left left' right right' sameLeft sameRight
    have leftBinds : OpLog.BindsAll left = OpLog.BindsAll left' := by
      funext opId payload
      exact propext (exists_congr fun op => and_congr_left' (sameLeft op))
    have rightBinds : OpLog.BindsAll right = OpLog.BindsAll right' := by
      funext opId payload
      exact propext (exists_congr fun op => and_congr_left' (sameRight op))
    obtain ⟨firstOk, firstBinds⟩ := mergeOps_iff left right
    obtain ⟨secondOk, secondBinds⟩ := mergeOps_iff left' right'
    rw [← leftBinds, ← rightBinds] at secondOk secondBinds
    exact agree_of firstOk secondOk firstBinds secondBinds

end Statefuse
