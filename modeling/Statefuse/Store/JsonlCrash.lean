import Statefuse.Materialize.Refinement
import Statefuse.Reference
import Statefuse.Store.JsonlText

/-!
# Writes that break off

A call whose write breaks off raises, with a prefix of what it writes in the file.  The next
call finds out from the whole file which of its operations are new, ends a torn line and writes
the others again.  As long as no write breaks off just before its final newline, both readers
see the same operations in every file of such a run, a call that has returned is visible, and
one that broke off is visible as a whole or not at all (`crash_consistent`).

A batch without its newline is a line for the reader of the whole file and none for the reader
of terminated lines.  Calling again finds nothing new, returns and leaves the file as it is
(`retried_unterminated`).
-/

namespace Statefuse

open Foundation

section Calls

variable [Runtime]

/-- A call of `append_many`, and after how many bytes its write breaks off, if it does. -/
structure Attempt where
  ops : List Op
  cut : Option Nat

namespace JsonlStore

/-- The operations of a call that are new to the file. -/
def newOps (store : JsonlStore) (ops : List Op) : Result (List Op) := do
  let existing ← store.iterOps
  let state ← ops.foldlM appendStep ⟨existing, [], []⟩
  return state.added

/-- The file with a batch behind it. -/
def written (store : JsonlStore) (added : List Op) : List UInt8 :=
  ensureLineBoundary (store.file.getD []) ++ utf8Encode (batchLine added)

/-- A call whose write breaks off raises; so many bytes of the write have reached the file. -/
def appendCut (store : JsonlStore) (ops : List Op) (cut : Nat) : Result JsonlStore := do
  let added ← store.newOps ops
  return if added = [] then store
    else ⟨some ((store.written added).take ((store.file.getD []).length + cut))⟩

/-- The file after a call, whether it returned or raised. -/
def attempt (store : JsonlStore) (call : Attempt) : JsonlStore :=
  match call.cut with
  | none =>
      match store.appendMany call.ops with
      | .ok (next, _) => next
      | .error _ => store
  | some cut =>
      match store.appendCut call.ops cut with
      | .ok next => next
      | .error _ => store

/-- The file after some calls, the first of which finds none. -/
def attempts (calls : List Attempt) : JsonlStore := calls.foldl attempt ⟨none⟩

theorem attempts_append (calls : List Attempt) (call : Attempt) :
    attempts (calls ++ [call]) = attempt (attempts calls) call := by
  rw [attempts, List.foldl_append]
  rfl

/-- The write of the call breaks off with everything but its final newline in the file. -/
def CutBeforeNewline (store : JsonlStore) (call : Attempt) : Prop :=
  ∃ cut added, call.cut = some cut ∧ store.newOps call.ops = .ok added ∧ added ≠ [] ∧
    (store.file.getD []).length + cut + 1 = (store.written added).length

/-! ## What a write leaves in the file -/

/-- The file consists of plain text with a torn tail, and no id has two operations. -/
structure Intact (store : JsonlStore) : Prop where
  plain : ∃ text : List Char, store.file.getD [] = text.map asciiByte ∧ ∀ char ∈ text, Plain char
  tail : Torn (splitAfter isNewline (store.file.getD [])).2
  bound : IdsBound store.batches.flatten

theorem intact_empty : Intact ⟨none⟩ := by
  refine ⟨⟨[], rfl, by simp⟩, torn_nil, ?_⟩
  intro first firstListed
  cases firstListed

/-- The whole-file reader sees the batches of an intact file. -/
theorem Intact.iterOps_eq {store : JsonlStore} (intact : Intact store) :
    store.iterOps = OpLog.ofOps store.batches.flatten := by
  rcases store with ⟨file⟩
  cases file with
  | none => rfl
  | some content =>
      rcases intact.plain with ⟨text, isText, plain⟩
      rw [Option.getD_some] at isText
      subst isText
      have unread : lineBatch (splitAfter isNewline (text.map asciiByte)).2 = none :=
        intact.tail.unread.1
      rw [iterOps_plain plain, unread, Option.getD_none, List.append_nil]

/-- Both readers of an intact file see the same operations. -/
theorem Intact.views {store : JsonlStore} (intact : Intact store) :
    ∃ log delta, store.iterOps = .ok log ∧ store.readAfter 0 none = .ok delta ∧
      (∀ op, op ∈ log.iterOps ↔ op ∈ store.batches.flatten) ∧
      delta.ops = store.batches.flatten := by
  rcases OpLog.ofOps_ok intact.bound with ⟨log, isLog, members⟩
  rcases readAfter_page store (Nat.zero_le _) none (by simp) with ⟨delta, isDelta, page⟩
  refine ⟨log, delta, intact.iterOps_eq.trans isLog, isDelta, members, ?_⟩
  · rw [page.ops, Segment.page_unlimited, ← Segment.flatten_batchesOf, segmentsAfter,
      List.drop_zero, batchesOf_lines]
    rfl

/-- A boundary ends the torn tail, in which nothing is read. -/
theorem boundary_batches {store : JsonlStore} (intact : Intact store) :
    (splitAfter isNewline (ensureLineBoundary (store.file.getD []))).2 = [] ∧
      (splitAfter isNewline (ensureLineBoundary (store.file.getD []))).1.filterMap lineBatch =
        store.batches := by
  by_cases ended : (splitAfter isNewline (store.file.getD [])).2 = []
  · rw [ensureLineBoundary_of_terminated ended]
    exact ⟨ended, rfl⟩
  · have whole : (splitAfter isNewline (store.file.getD [])).1.flatten ++
        (splitAfter isNewline (store.file.getD [])).2 = store.file.getD [] := splitAfter_flatten _
    have boundary : ensureLineBoundary (store.file.getD []) = store.file.getD [] ++ [10] := by
      rw [ensureLineBoundary]
      apply if_pos
      rw [← whole, List.getLast?_append_of_ne_nil _ ended, List.getLast?_eq_some_getLast ended]
      have plain : isNewline ((splitAfter isNewline (store.file.getD [])).2.getLast ended) =
          false := splitAfter_tail_plain _ _ (List.getLast_mem ended)
      simp [plain]
    rw [boundary, splitAfter_end (by decide), List.filterMap_append,
      List.filterMap_cons_none intact.tail.unread.2, List.filterMap_nil, List.append_nil]
    exact ⟨rfl, rfl⟩

/-- Bytes that break off inside a batch become the tail. -/
theorem torn_write {store : JsonlStore} (intact : Intact store) {bytes : List UInt8}
    (torn : Torn bytes) :
    batches ⟨some (ensureLineBoundary (store.file.getD []) ++ bytes)⟩ = store.batches ∧
      (splitAfter isNewline (ensureLineBoundary (store.file.getD []) ++ bytes)).2 = bytes := by
  rcases boundary_batches intact with ⟨ended, same⟩
  rw [batches, Option.getD_some, splitAfter_append _ _ ended, splitAfter_plain torn.plain,
    List.append_nil]
  exact ⟨same, rfl⟩

/-- A whole write becomes a batch. -/
theorem full_write {store : JsonlStore} (intact : Intact store) {added : List Op}
    (present : added ≠ []) :
    batches ⟨some (store.written added)⟩ = store.batches ++ [added.map Op.decoded] ∧
      (splitAfter isNewline (store.written added)).2 = [] := by
  rcases boundary_batches intact with ⟨ended, same⟩
  rw [batches, Option.getD_some, written, utf8Encode_batchLine, splitAfter_append _ _ ended,
    splitAfter_line (batchBytes_plain added) (by decide) [], List.filterMap_append, same,
    List.filterMap_cons_some (lineBatch_batch present)]
  exact ⟨rfl, rfl⟩

/-- What a write leaves is plain text. -/
theorem written_plain {store : JsonlStore} (intact : Intact store) (added : List Op) (size : Nat) :
    ∃ text : List Char, (store.written added).take size = text.map asciiByte ∧
      ∀ char ∈ text, Plain char := by
  rcases intact.plain with ⟨text, isText, plain⟩
  have boundary : ∃ ended : List Char, ensureLineBoundary (store.file.getD []) =
      ended.map asciiByte ∧ ∀ char ∈ ended, Plain char := by
    rw [ensureLineBoundary, isText]
    split
    · refine ⟨text ++ ['\n'], by rw [List.map_append]; rfl, ?_⟩
      intro char listed
      rcases List.mem_append.mp listed with inside | last
      · exact plain char inside
      · exact Or.inl (List.mem_singleton.mp last)
    · exact ⟨text, rfl, plain⟩
  rcases boundary with ⟨ended, isEnded, endedPlain⟩
  refine ⟨(ended ++ batchLine added).take size, ?_, ?_⟩
  · have linePlain : ∀ char ∈ batchLine added, Plain char := by
      intro char listed
      rcases List.mem_append.mp listed with inside | last
      · exact Or.inr (text_printable _ char inside)
      · exact Or.inl (List.mem_singleton.mp last)
    rw [written, isEnded, utf8Encode_plain linePlain, ← List.map_append, List.map_take]
  · intro char listed
    rcases List.mem_append.mp (List.mem_of_mem_take listed) with inside | last
    · exact endedPlain char inside
    · rcases List.mem_append.mp last with inside | last
      · exact Or.inr (text_printable _ char inside)
      · exact Or.inl (List.mem_singleton.mp last)

/-- A write that breaks off, but not just before its final newline, leaves a torn tail and
either the batches there were or those and the whole batch. -/
theorem cut_write {store : JsonlStore} (intact : Intact store) {added : List Op}
    (present : added ≠ []) {cut : Nat}
    (elsewhere : (store.file.getD []).length + cut + 1 ≠ (store.written added).length) :
    Torn (splitAfter isNewline
        ((store.written added).take ((store.file.getD []).length + cut))).2 ∧
      (batches ⟨some ((store.written added).take ((store.file.getD []).length + cut))⟩ =
          store.batches ∨
        batches ⟨some ((store.written added).take ((store.file.getD []).length + cut))⟩ =
          store.batches ++ [added.map Op.decoded]) := by
  rcases Nat.lt_or_ge ((store.file.getD []).length + cut)
    (ensureLineBoundary (store.file.getD [])).length with short | long
  · -- Not even the boundary is written.
    have unchanged : (store.written added).take ((store.file.getD []).length + cut) =
        store.file.getD [] := by
      rw [written, List.take_append_of_le_length short.le]
      rw [ensureLineBoundary] at short ⊢
      split at short
      · rename_i torn
        rw [List.length_append, List.length_singleton] at short
        have none : cut = 0 := by omega
        rw [if_pos torn, none, Nat.add_zero, List.take_left]
      · omega
    rw [unchanged]
    exact ⟨intact.tail, Or.inl rfl⟩
  · rcases Nat.exists_eq_add_of_le long with ⟨size, isSize⟩
    have taken : (store.written added).take ((store.file.getD []).length + cut) =
        ensureLineBoundary (store.file.getD []) ++ (batchBytes added ++ [10]).take size := by
      rw [written, utf8Encode_batchLine, isSize, List.take_length_add_append]
    have total : (store.written added).length =
        (ensureLineBoundary (store.file.getD [])).length + (batchBytes added).length + 1 := by
      rw [written, utf8Encode_batchLine]
      simp [Nat.add_assoc]
    rcases Nat.lt_trichotomy size (batchBytes added).length with inside | exactly | beyond
    · have torn : Torn ((batchBytes added ++ [10]).take size) := by
        refine ⟨added, (batchBytes added).drop size, ?_, ?_⟩
        · intro none
          rw [List.drop_eq_nil_iff] at none
          omega
        · rw [List.take_append_of_le_length inside.le, List.take_append_drop]
      rcases torn_write intact torn with ⟨same, tail⟩
      rw [taken, tail]
      exact ⟨torn, Or.inl same⟩
    · exact absurd (by omega) elsewhere
    · have whole : (batchBytes added ++ [10]).take size = batchBytes added ++ [10] := by
        apply List.take_of_length_le
        simp
        omega
      rcases full_write intact present with ⟨more, tail⟩
      rw [written, utf8Encode_batchLine] at more tail
      rw [taken, whole, tail]
      exact ⟨torn_nil, Or.inr more⟩

/-! ## The operations of a call -/

/-- What a call has found out about some of its operations. -/
structure Sieved (log : OpLog) (done : List Op) (state : Appending) : Prop where
  found : ∀ (opId : String) (stored : Op), state.existing.ops[opId]? = some stored ↔
    log.ops[opId]? = some stored ∨ stored ∈ state.added ∧ stored.opId = opId
  fresh : ∀ op ∈ state.added, log.ops[op.opId]? = none
  distinct : (state.added.map Op.opId).Nodup
  seen : ∀ op ∈ done, ∃ stored, state.existing.ops[op.opId]? = some stored ∧
    pyEq stored op = true

theorem Sieved.start (log : OpLog) : Sieved log [] ⟨log, [], []⟩ := by
  constructor
  · simp
  · simp
  · simp
  · simp

theorem Sieved.known {log : OpLog} {done : List Op} {state : Appending}
    (sieved : Sieved log done state) {op existing : Op} (results : List Bool)
    (shape : state.existing.ops[op.opId]? = some existing) (equal : pyEq existing op = true) :
    Sieved log (done ++ [op]) ⟨state.existing, results, state.added⟩ := by
  refine ⟨sieved.found, sieved.fresh, sieved.distinct, ?_⟩
  intro other listed
  rcases List.mem_append.mp listed with older | last
  · exact sieved.seen other older
  · rw [List.mem_singleton.mp last]
    exact ⟨existing, shape, equal⟩

theorem Sieved.new {log : OpLog} {done : List Op} {state : Appending}
    (sieved : Sieved log done state) {op : Op} (results : List Bool)
    (shape : state.existing.ops[op.opId]? = none) :
    Sieved log (done ++ [op]) ⟨state.existing.insert op, results, state.added ++ [op]⟩ := by
  have unknown : ∀ stored, log.ops[op.opId]? ≠ some stored := by
    intro stored known
    rw [(sieved.found _ _).mpr (Or.inl known)] at shape
    cases shape
  have other : ∀ stored ∈ state.added, stored.opId ≠ op.opId := by
    intro stored listed same
    rw [(sieved.found _ _).mpr (Or.inr ⟨listed, same⟩)] at shape
    cases shape
  constructor
  · intro opId stored
    simp only [OpLog.insert, Dict.get_insert]
    by_cases same : op.opId = opId
    · rw [if_pos same, Option.some.injEq]
      constructor
      · intro isOp
        subst isOp
        exact Or.inr ⟨by simp, same⟩
      · rintro (known | ⟨listed, sameId⟩)
        · rw [← same] at known
          exact absurd known (unknown stored)
        · rcases List.mem_append.mp listed with older | last
          · exact absurd (sameId.trans same.symm) (other stored older)
          · exact (List.mem_singleton.mp last).symm
    · rw [if_neg same, sieved.found]
      constructor
      · rintro (known | ⟨listed, sameId⟩)
        · exact Or.inl known
        · exact Or.inr ⟨List.mem_append_left _ listed, sameId⟩
      · rintro (known | ⟨listed, sameId⟩)
        · exact Or.inl known
        · rcases List.mem_append.mp listed with older | last
          · exact Or.inr ⟨older, sameId⟩
          · rw [List.mem_singleton.mp last] at sameId
            exact absurd sameId same
  · intro stored listed
    rcases List.mem_append.mp listed with older | last
    · exact sieved.fresh stored older
    · rw [List.mem_singleton.mp last]
      exact Option.eq_none_iff_forall_ne_some.mpr unknown
  · rw [List.map_append, List.nodup_append]
    refine ⟨sieved.distinct, by simp, ?_⟩
    intro opId listed otherId last same
    rcases List.mem_map.mp listed with ⟨stored, isStored, isId⟩
    rw [List.map_singleton, List.mem_singleton] at last
    exact other stored isStored (isId.trans (same.trans last))
  · intro stored listed
    simp only [OpLog.insert, Dict.get_insert]
    rcases List.mem_append.mp listed with older | last
    · rcases sieved.seen stored older with ⟨existing, known, equal⟩
      refine ⟨existing, ?_, equal⟩
      rw [if_neg, known]
      intro same
      rw [same, known] at shape
      cases shape
    · rw [List.mem_singleton.mp last]
      exact ⟨op, if_pos rfl, pyEq_refl op⟩

theorem Sieved.step {log : OpLog} {done : List Op} {op : Op} {state next : Appending}
    (sieved : Sieved log done state) (run : appendStep state op = .ok next) :
    Sieved log (done ++ [op]) next := by
  rcases bind_ok_iff.mp run with ⟨outcome, isOutcome, isNext⟩
  injection isNext with isNext
  subst isNext
  rw [OpLog.add] at isOutcome
  cases shape : state.existing.ops[op.opId]? with
  | none =>
      rw [shape] at isOutcome
      injection isOutcome with isOutcome
      subst isOutcome
      exact sieved.new _ shape
  | some existing =>
      rw [shape] at isOutcome
      by_cases equal : pyEq existing op = true
      · simp only [if_pos equal] at isOutcome
        injection isOutcome with isOutcome
        subst isOutcome
        exact sieved.known _ shape equal
      · simp only [if_neg equal] at isOutcome
        cases isOutcome

/-- What a call adds is new, and what it does not add is there. -/
theorem newOps_spec {store : JsonlStore} {ops added : List Op} {log : OpLog}
    (isLog : store.iterOps = .ok log) (run : store.newOps ops = .ok added) :
    (∀ op ∈ added, log.ops[op.opId]? = none) ∧ (added.map Op.opId).Nodup ∧
      ∀ op ∈ ops, ∃ stored, (stored ∈ log.iterOps ∨ stored ∈ added) ∧
        pyEq stored op = true := by
  rw [newOps, bind_of_ok isLog] at run
  rcases bind_ok_iff.mp run with ⟨state, appended, done⟩
  injection done with done
  subst done
  have sieved : Sieved log ops state := foldlM_invariant (Sieved log) ops _ _ appended
    (Sieved.start log) (fun _ _ _ _ sieved _ stepped => sieved.step stepped)
  refine ⟨sieved.fresh, sieved.distinct, ?_⟩
  intro op listed
  rcases sieved.seen op listed with ⟨stored, known, equal⟩
  refine ⟨stored, ?_, equal⟩
  rcases (sieved.found _ _).mp known with inLog | ⟨isAdded, _⟩
  · left
    rw [OpLog.mem_iterOps, log.keyed _ _ inLog]
    exact inLog
  · exact Or.inr isAdded

/-- Equal operations of all of these are in the batches of the file. -/
def Holds (store : JsonlStore) (ops : List Op) : Prop :=
  ∀ op ∈ ops, ∃ stored ∈ store.batches.flatten, pyEq stored op = true

/-- Reading back keeps the id. -/
theorem decoded_opId (op : Op) : op.decoded.opId = op.opId := by
  cases op <;> rfl

/-- A file that has the new operations of a call as one more batch holds all of the call. -/
theorem committed_call {store next : JsonlStore} (intact : Intact store) {ops added : List Op}
    (run : store.newOps ops = .ok added)
    (batches : next.batches = store.batches ++ [added.map Op.decoded]) :
    IdsBound next.batches.flatten ∧ next.Holds ops := by
  rcases intact.views with ⟨log, _, isLog, _, members, _⟩
  rcases newOps_spec isLog run with ⟨fresh, distinct, seen⟩
  have operations : next.batches.flatten = store.batches.flatten ++ added.map Op.decoded := by
    rw [batches, List.flatten_append]
    simp
  have apart : ∀ old ∈ store.batches.flatten, ∀ op ∈ added, old.opId ≠ op.opId := by
    intro old listed op isAdded same
    have known := (OpLog.mem_iterOps log old).mp ((members old).mpr listed)
    rw [same, fresh op isAdded] at known
    cases known
  constructor
  · rw [operations]
    intro first firstListed second secondListed same
    rcases List.mem_append.mp firstListed with firstOld | firstNew
    · rcases List.mem_append.mp secondListed with secondOld | secondNew
      · exact intact.bound first firstOld second secondOld same
      · rcases List.mem_map.mp secondNew with ⟨op, isAdded, isSecond⟩
        rw [← isSecond, decoded_opId] at same
        exact absurd same (apart first firstOld op isAdded)
    · rcases List.mem_map.mp firstNew with ⟨op, isAdded, isFirst⟩
      rcases List.mem_append.mp secondListed with secondOld | secondNew
      · rw [← isFirst, decoded_opId] at same
        exact absurd same.symm (apart second secondOld op isAdded)
      · rcases List.mem_map.mp secondNew with ⟨other, otherAdded, isSecond⟩
        rw [← isFirst, ← isSecond, decoded_opId, decoded_opId] at same
        rw [← isFirst, ← isSecond,
          List.inj_on_of_nodup_map distinct isAdded otherAdded same]
  · intro op listed
    rw [operations]
    rcases seen op listed with ⟨stored, old | isAdded, equal⟩
    · exact ⟨stored, List.mem_append_left _ ((members stored).mp old), equal⟩
    · exact ⟨stored.decoded, List.mem_append_right _ (List.mem_map_of_mem isAdded),
        pyEq_trans stored.decoded_equal equal⟩

/-- Without new operations all of a call are there. -/
theorem settled_call {store : JsonlStore} (intact : Intact store) {ops : List Op}
    (run : store.newOps ops = .ok []) : store.Holds ops := by
  rcases intact.views with ⟨log, _, isLog, _, members, _⟩
  intro op listed
  rcases (newOps_spec isLog run).2.2 op listed with ⟨stored, old | isAdded, equal⟩
  · exact ⟨stored, (members stored).mp old, equal⟩
  · cases isAdded

theorem appendMany_ok {store next : JsonlStore} {ops : List Op} {results : List Bool}
    (run : store.appendMany ops = .ok (next, results)) :
    ∃ added, store.newOps ops = .ok added ∧
      next = if added = [] then store else ⟨some (store.written added)⟩ := by
  rcases bind_ok_iff.mp run with ⟨existing, isLog, run⟩
  rcases bind_ok_iff.mp run with ⟨state, appended, done⟩
  injection done with done
  injection done with isNext _
  exact ⟨state.added, by rw [newOps, bind_of_ok isLog, bind_of_ok appended]; rfl, isNext.symm⟩

/-- What one call makes of the file. -/
structure Steps (store : JsonlStore) (call : Attempt) (next : JsonlStore) : Prop where
  intact : Intact next
  /-- Nothing gets lost. -/
  grows : ∀ op ∈ store.batches.flatten, op ∈ next.batches.flatten
  /-- The call changes nothing that is visible, or all of it is visible. -/
  whole : next.batches = store.batches ∨ next.Holds call.ops
  /-- A call that returns is visible. -/
  returned : call.cut = none → ∀ result, store.appendMany call.ops = .ok result →
    next.Holds call.ops

theorem steps_self {store : JsonlStore} (intact : Intact store) {call : Attempt}
    (raises : call.cut = none → ∀ result, store.appendMany call.ops = .ok result →
      store.Holds call.ops) : Steps store call store :=
  ⟨intact, fun _ listed => listed, Or.inl rfl, raises⟩

/-- A call whose write does not break off before its final newline keeps the file intact. -/
theorem attempt_steps {store : JsonlStore} (intact : Intact store) {call : Attempt}
    (clean : ¬store.CutBeforeNewline call) : Steps store call (store.attempt call) := by
  have commits : ∀ {next : JsonlStore} {added : List Op}, store.newOps call.ops = .ok added →
      (∃ text : List Char, next.file.getD [] = text.map asciiByte ∧ ∀ char ∈ text, Plain char) →
      Torn (splitAfter isNewline (next.file.getD [])).2 →
      next.batches = store.batches ++ [added.map Op.decoded] → Steps store call next := by
    intro next added run plain tail more
    rcases committed_call intact run more with ⟨bound, holds⟩
    refine ⟨⟨plain, tail, bound⟩, ?_, Or.inr holds, fun _ _ _ => holds⟩
    intro op listed
    rw [more, List.flatten_append]
    exact List.mem_append_left _ listed
  unfold attempt
  cases isCut : call.cut with
  | none =>
      simp only
      cases run : store.appendMany call.ops with
      | error failure =>
          apply steps_self intact
          intro _ result impossible
          rw [run] at impossible
          cases impossible
      | ok result =>
          rcases result with ⟨next, results⟩
          rcases appendMany_ok run with ⟨added, isAdded, isNext⟩
          simp only
          rw [isNext]
          by_cases none : added = []
          · rw [if_pos none]
            rw [none] at isAdded
            exact steps_self intact (fun _ _ _ => settled_call intact isAdded)
          · rw [if_neg none]
            rcases full_write intact none with ⟨more, tail⟩
            apply commits isAdded _ _ more
            · have plain := written_plain intact added (store.written added).length
              rw [List.take_length] at plain
              exact plain
            · rw [Option.getD_some, tail]
              exact torn_nil
  | some cut =>
      simp only
      cases run : store.appendCut call.ops cut with
      | error failure =>
          apply steps_self intact
          intro uncut
          rw [isCut] at uncut
          cases uncut
      | ok next =>
          rcases bind_ok_iff.mp run with ⟨added, isAdded, done⟩
          injection done with done
          simp only
          rw [← done]
          have unreturned : call.cut = none → ∀ next : JsonlStore, ∀ result,
              store.appendMany call.ops = .ok result → next.Holds call.ops := by
            intro uncut
            rw [isCut] at uncut
            cases uncut
          by_cases none : added = []
          · rw [if_pos none]
            exact steps_self intact (fun uncut => unreturned uncut store)
          · rw [if_neg none]
            have elsewhere : (store.file.getD []).length + cut + 1 ≠
                (store.written added).length :=
              fun last => clean ⟨cut, added, isCut, isAdded, none, last⟩
            have plain := written_plain intact added ((store.file.getD []).length + cut)
            rcases cut_write intact none elsewhere with ⟨tail, same | more⟩
            · refine ⟨⟨plain, tail, ?_⟩, ?_, Or.inl same, fun uncut => unreturned uncut _⟩
              · rw [same]
                exact intact.bound
              · intro op listed
                rw [same]
                exact listed
            · exact commits isAdded plain tail more

/-- Whatever calls come, an intact file stays intact and loses nothing. -/
theorem attempts_reach {start : JsonlStore} (intact : Intact start) (calls : List Attempt)
    (clean : ∀ before call after, calls = before ++ call :: after →
      ¬(before.foldl attempt start).CutBeforeNewline call) :
    Intact (calls.foldl attempt start) ∧
      ∀ op ∈ start.batches.flatten, op ∈ (calls.foldl attempt start).batches.flatten := by
  induction calls generalizing start with
  | nil => exact ⟨intact, fun _ listed => listed⟩
  | cons call calls inductionHypothesis =>
      have step := attempt_steps intact (clean [] call calls rfl)
      have rest := inductionHypothesis step.intact (by
        intro before other after split
        exact clean (call :: before) other after (by rw [split]; rfl))
      exact ⟨rest.1, fun op listed => rest.2 op (step.grows op listed)⟩

/-- In every run of calls whose writes break off anywhere but just before their final newline,
both readers see the same operations; a call that has returned is visible, and one that broke
off is visible as a whole or not at all. -/
theorem crash_consistent (calls : List Attempt)
    (clean : ∀ before call after, calls = before ++ call :: after →
      ¬(attempts before).CutBeforeNewline call) :
    ∃ log delta, (attempts calls).iterOps = .ok log ∧
      (attempts calls).readAfter 0 none = .ok delta ∧
      (∀ op, op ∈ delta.ops ↔ op ∈ log.iterOps) ∧
      ∀ before call after, calls = before ++ call :: after →
        (call.cut = none → ∀ result, (attempts before).appendMany call.ops = .ok result →
          ∀ op ∈ call.ops, ∃ stored ∈ log.iterOps, pyEq stored op = true) ∧
        ((attempts (before ++ [call])).iterOps = (attempts before).iterOps ∨
          ∀ op ∈ call.ops, ∃ stored ∈ log.iterOps, pyEq stored op = true) := by
  have reached := attempts_reach intact_empty calls clean
  rcases reached.1.views with ⟨log, delta, isLog, isDelta, members, ops⟩
  refine ⟨log, delta, isLog, isDelta, ?_, ?_⟩
  · intro op
    change (attempts calls).iterOps = _ at isLog
    rw [ops, members]
  · intro before call after split
    have earlier := attempts_reach intact_empty before (by
      intro first other later isBefore
      apply clean first other (later ++ call :: after)
      rw [split, isBefore, List.append_assoc]
      rfl)
    have step := attempt_steps earlier.1 (clean before call after split)
    have later := attempts_reach step.intact after (by
      intro first other rest isAfter
      have outside := clean (before ++ call :: first) other rest (by
        rw [split, isAfter, List.append_assoc]
        rfl)
      rw [attempts, List.foldl_append] at outside
      exact outside)
    have final : after.foldl attempt (attempt (before.foldl attempt ⟨none⟩) call) =
        attempts calls := by
      rw [attempts, split, List.foldl_append]
      rfl
    rw [final] at later
    have visible : (attempt (before.foldl attempt ⟨none⟩) call).Holds call.ops →
        ∀ op ∈ call.ops, ∃ stored ∈ log.iterOps, pyEq stored op = true := by
      intro holds op listed
      rcases holds op listed with ⟨stored, isStored, equal⟩
      exact ⟨stored, (members stored).mpr (later.2 stored isStored), equal⟩
    refine ⟨fun uncut result returned => visible (step.returned uncut result returned), ?_⟩
    rcases step.whole with same | holds
    · left
      rw [attempts_append]
      refine step.intact.iterOps_eq.trans ?_
      rw [same]
      exact earlier.1.iterOps_eq.symm
    · exact Or.inr (visible holds)

/-! ## The cut just before the newline -/

/-- The batch of one operation without its newline. -/
def unterminated (op : Op) : JsonlStore := ⟨some (batchBytes [op])⟩

theorem appendStep_first (op : Op) :
    appendStep ⟨.empty, [], []⟩ op = .ok ⟨OpLog.empty.insert op, [true], [op]⟩ := by
  have fresh : OpLog.empty.add op = .ok (OpLog.empty.insert op, true) := by
    simp [OpLog.add, OpLog.empty]
  rw [appendStep, bind_of_ok fresh]
  rfl

theorem iterOps_first : iterOps ⟨none⟩ = .ok .empty := rfl

theorem newOps_first (op : Op) : newOps ⟨none⟩ [op] = .ok [op] := by
  rw [newOps, bind_of_ok iterOps_first, List.foldlM_cons, bind_of_ok (appendStep_first op)]
  rfl

theorem appendMany_first (op : Op) : ∃ result, appendMany ⟨none⟩ [op] = .ok result := by
  rw [appendMany, bind_of_ok iterOps_first, List.foldlM_cons, bind_of_ok (appendStep_first op)]
  exact ⟨_, rfl⟩

theorem written_first (added : List Op) : written ⟨none⟩ added = batchBytes added ++ [10] := by
  rw [written, utf8Encode_batchLine]
  rfl

/-- The write of a first call, cut before the newline, leaves the unterminated batch. -/
theorem attempts_unterminated (op : Op) :
    attempts [⟨[op], some (batchBytes [op]).length⟩] = unterminated op := by
  have run : appendCut ⟨none⟩ [op] (batchBytes [op]).length = .ok (unterminated op) := by
    rw [appendCut, bind_of_ok (newOps_first op)]
    simp [written_first, unterminated]
    rfl
  rw [attempts, List.foldl_cons, List.foldl_nil, attempt]
  simp only [run]

omit [Runtime] in
theorem stripBytes_body {first last : UInt8} (middle : List UInt8)
    (starts : isSpaceByte first = false) (ends : isSpaceByte last = false) :
    stripBytes (first :: (middle ++ [last])) = first :: (middle ++ [last]) := by
  have back : (first :: (middle ++ [last])).reverse = last :: (middle.reverse ++ [first]) := by
    simp
  rw [stripBytes, List.dropWhile_cons_of_neg (by rw [starts]; simp), back,
    List.dropWhile_cons_of_neg (by rw [ends]; simp)]
  simp

theorem lineBatch_unterminated {added : List Op} (present : added ≠ []) :
    lineBatch (batchBytes added) = some (added.map Op.decoded) := by
  have stripped : stripBytes (batchBytes added) = batchBytes added := by
    rcases dumps_obj (batchObject added) with ⟨middle, isText⟩
    rw [batchBytes_eq, isText, List.map_cons, List.map_append]
    exact stripBytes_body _ (by decide) (by decide)
  have terminated : stripBytes (batchBytes added ++ [10]) = batchBytes added := by
    rcases dumps_obj (batchObject added) with ⟨middle, isText⟩
    rw [batchBytes_eq, isText, List.map_cons, List.map_append]
    exact stripBytes_line _ (by decide) (by decide)
  rw [← lineBatch_batch present, lineBatch, lineBatch]
  simp only [stripped, terminated]

/-- The whole-file reader sees the unterminated batch, the reader of terminated lines does not,
and calling again writes nothing. -/
theorem unterminated_views (op : Op) :
    ∃ log delta, (unterminated op).iterOps = .ok log ∧ op.decoded ∈ log.iterOps ∧
      (unterminated op).readAfter 0 none = .ok delta ∧ delta.ops = [] ∧
      (unterminated op).appendMany [op] = .ok (unterminated op, [false]) := by
  have split : splitAfter isNewline (batchBytes [op]) = ([], batchBytes [op]) :=
    splitAfter_plain (batchBytes_plain [op])
  have none : (unterminated op).batches = [] := by
    rw [batches, unterminated, Option.getD_some, split]
    rfl
  have plain : ∀ char ∈ JsonValue.dumps true (.obj (batchObject [op])), Plain char :=
    fun char listed => Or.inr (text_printable _ char listed)
  have read : (unterminated op).iterOps = OpLog.ofOps [op.decoded] := by
    have seen := iterOps_plain plain
    have image : (JsonValue.dumps true (.obj (batchObject [op]))).map asciiByte =
        batchBytes [op] := (batchBytes_eq [op]).symm
    have batch : lineBatch (batchBytes [op]) = some [op.decoded] :=
      lineBatch_unterminated (List.cons_ne_nil _ _)
    rw [image, split, batch, Option.getD_some] at seen
    rw [unterminated] at none ⊢
    rw [seen, none]
    rfl
  have bound : IdsBound [op.decoded] := by
    intro first isFirst second isSecond _
    rw [List.mem_singleton.mp isFirst, List.mem_singleton.mp isSecond]
  rcases OpLog.ofOps_ok bound with ⟨log, isLog, members⟩
  rcases readAfter_page (unterminated op) (Nat.zero_le _) Option.none (by simp) with
    ⟨delta, isDelta, page⟩
  have present : op.decoded ∈ log.iterOps := (members _).mpr (List.mem_singleton_self _)
  have known := (OpLog.mem_iterOps log op.decoded).mp present
  rw [decoded_opId] at known
  have step : appendStep ⟨log, [], []⟩ op = .ok ⟨log, [false], []⟩ := by
    rw [appendStep, OpLog.add, known]
    simp only [if_pos op.decoded_equal]
    rfl
  refine ⟨log, delta, read.trans isLog, present, isDelta, ?_, ?_⟩
  · rw [page.ops, Segment.page_unlimited, ← Segment.flatten_batchesOf, segmentsAfter,
      List.drop_zero, batchesOf_lines]
    change (unterminated op).batches.flatten = []
    rw [none]
    rfl
  · rw [appendMany, bind_of_ok (read.trans isLog), List.foldlM_cons, bind_of_ok step]
    rfl

/-- A first call that is cut there and made again returns, and leaves the readers apart. -/
theorem retried_unterminated (op : Op) :
    ∃ cut log delta seen, ∃ result : JsonlStore × List Bool,
      (attempts [⟨[op], some cut⟩]).appendMany [op] = .ok result ∧
        (attempts [⟨[op], some cut⟩, ⟨[op], none⟩]).iterOps = .ok log ∧
        (attempts [⟨[op], some cut⟩, ⟨[op], none⟩]).readAfter 0 none = .ok delta ∧
        seen ∈ log.iterOps ∧ seen ∉ delta.ops := by
  rcases unterminated_views op with ⟨log, delta, isLog, present, isDelta, empty, returned⟩
  have first := attempts_unterminated op
  have second : attempts [⟨[op], some (batchBytes [op]).length⟩, ⟨[op], none⟩] =
      unterminated op := by
    have pair : [(⟨[op], some (batchBytes [op]).length⟩ : Attempt), ⟨[op], none⟩] =
        [⟨[op], some (batchBytes [op]).length⟩] ++ [⟨[op], none⟩] := rfl
    have step : (unterminated op).attempt ⟨[op], none⟩ = unterminated op := by
      simp only [attempt, returned]
    rw [pair, attempts_append, first, step]
  refine ⟨(batchBytes [op]).length, log, delta, op.decoded, (unterminated op, [false]), ?_, ?_, ?_,
    present, ?_⟩
  · rw [first]
    exact returned
  · rw [second]
    exact isLog
  · rw [second]
    exact isDelta
  · rw [empty]
    exact List.not_mem_nil

/-- A write is at least three bytes long. -/
theorem written_length (store : JsonlStore) (added : List Op) :
    (store.file.getD []).length + 3 ≤ (store.written added).length := by
  have boundary : (store.file.getD []).length ≤
      (ensureLineBoundary (store.file.getD [])).length := by
    rw [ensureLineBoundary]
    split
    · simp
    · exact le_rfl
  have body : 2 ≤ (batchBytes added).length := by
    rcases dumps_obj (batchObject added) with ⟨middle, isText⟩
    rw [batchBytes_eq, isText]
    simp
  rw [written, utf8Encode_batchLine, List.length_append, List.length_append,
    List.length_singleton]
  omega

end JsonlStore

end Calls

section Example

attribute [local instance] Reference.runtime

/-- The operations of the examples. -/
def crashOp (claimId : String) : Op :=
  .claimAdded ⟨claimId, "r", "t"⟩ (Reference.fact claimId Reference.key (.str "x") [])

/-- A batch whose write broke off before its newline: the retry returns, and what the log then
holds is not read after the start of the file. -/
theorem retried_batch_hidden :
    ∃ cut log delta seen, ∃ result : JsonlStore × List Bool,
      (JsonlStore.attempts [⟨[crashOp "a"], some cut⟩]).appendMany [crashOp "a"] = .ok result ∧
        (JsonlStore.attempts [⟨[crashOp "a"], some cut⟩, ⟨[crashOp "a"], none⟩]).iterOps =
          .ok log ∧
        (JsonlStore.attempts [⟨[crashOp "a"], some cut⟩, ⟨[crashOp "a"], none⟩]).readAfter 0 none =
          .ok delta ∧
        seen ∈ log.iterOps ∧ seen ∉ delta.ops :=
  JsonlStore.retried_unterminated (crashOp "a")

/-- A batch is written, and the write of another one breaks off. -/
def tornCalls : List Attempt := [⟨[crashOp "a"], none⟩, ⟨[crashOp "b"], some 1⟩]

theorem crash_consistent_torn :
    ∃ log delta, (JsonlStore.attempts tornCalls).iterOps = .ok log ∧
      (JsonlStore.attempts tornCalls).readAfter 0 none = .ok delta ∧
      (∀ op, op ∈ delta.ops ↔ op ∈ log.iterOps) ∧
      ∃ stored ∈ log.iterOps, pyEq stored (crashOp "a") = true := by
  have clean : ∀ before call after, tornCalls = before ++ call :: after →
      ¬(JsonlStore.attempts before).CutBeforeNewline call := by
    intro before call after split
    rintro ⟨cut, added, isCut, _, _, last⟩
    have long := JsonlStore.written_length (JsonlStore.attempts before) added
    have small : cut = 1 := by
      have listed : call ∈ tornCalls := by
        rw [split]
        simp
      simp only [tornCalls, List.mem_cons, List.not_mem_nil, or_false] at listed
      rcases listed with isFirst | isSecond
      · rw [isFirst] at isCut
        cases isCut
      · rw [isSecond] at isCut
        injection isCut with isCut
        exact isCut.symm
    omega
  rcases JsonlStore.crash_consistent tornCalls clean with
    ⟨log, delta, isLog, isDelta, same, calls⟩
  have returned : ∃ result, JsonlStore.appendMany ⟨none⟩ [crashOp "a"] = .ok result :=
    JsonlStore.appendMany_first (crashOp "a")
  rcases returned with ⟨result, returned⟩
  have held := (calls [] ⟨[crashOp "a"], none⟩ [⟨[crashOp "b"], some 1⟩] rfl).1 rfl result returned
  exact ⟨log, delta, isLog, isDelta, same, held (crashOp "a") (List.mem_singleton_self _)⟩

end Example

end Statefuse
