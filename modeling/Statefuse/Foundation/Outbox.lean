import Mathlib

/-!
# Outboxes

A component keeps a copy of its records in a remote store that may fail: a call that
fails may have taken effect or not.  For every key there is what the remote store holds,
the stamp of the record that was last acknowledged, and what is still pending: a record
to write, or a deletion.

Keys do not interact, so a single key is a cell, and an execution of the component is,
for each key, a sequence of cell steps.  Whatever fails, the remote store never holds a
record that is neither acknowledged nor pending; it may lack an acknowledged one, when a
deletion took effect, failed, and became unnecessary before it was repeated.
-/

namespace Foundation

universe u v w

section Pass

variable {S : Type u} {I : Type v} {K C : Type w} {step : S → I → S} {key : I → K}
  {view : S → K → C}

/-- A pass does not touch a key that no item has. -/
theorem view_foldl_of_not_mem
    (frame : ∀ state item place, place ≠ key item → view (step state item) place = view state place)
    (items : List I) (state : S) {place : K} (absent : place ∉ items.map key) :
    view (items.foldl step state) place = view state place := by
  induction items generalizing state with
  | nil => rfl
  | cons item rest inductionHypothesis =>
      rw [List.map_cons, List.mem_cons, not_or] at absent
      rw [List.foldl_cons, inductionHypothesis _ absent.2, frame state item place absent.1]

/-- A pass touches the key of an item once, when it is as the pass has found it. -/
theorem view_foldl_of_mem
    (frame : ∀ state item place, place ≠ key item → view (step state item) place = view state place)
    {items : List I} (distinct : (items.map key).Nodup) (state : S) {item : I}
    (member : item ∈ items) :
    ∃ before, view before (key item) = view state (key item) ∧
      view (items.foldl step state) (key item) = view (step before item) (key item) := by
  induction items generalizing state with
  | nil => cases member
  | cons head rest inductionHypothesis =>
      rw [List.map_cons, List.nodup_cons] at distinct
      rw [List.foldl_cons]
      rcases List.mem_cons.mp member with same | later
      · subst same
        exact ⟨state, rfl, view_foldl_of_not_mem frame rest _ distinct.1⟩
      · have apart : key item ≠ key head := fun same =>
          distinct.1 (same ▸ List.mem_map_of_mem later)
        have ⟨before, untouched, after⟩ := inductionHypothesis distinct.2 (step state head) later
        exact ⟨before, untouched.trans (frame state head _ apart), after⟩

end Pass

/-! ## Cells -/

/-- One key of an outbox: `wanted` is the record that the remote store should hold. -/
structure Cell (R : Type u) (F : Type v) where
  wanted : Option R
  remote : Option R
  stamp : Option F
  pending : Option (Option R)

namespace Cell

variable {R : Type u} {F : Type v}

/-- Nothing is wanted, held, acknowledged or pending. -/
def empty : Cell R F := ⟨none, none, none, none⟩

/-- What a refresh may leave pending: nothing where the wanted record is acknowledged, and
no deletion only where the key is unknown. -/
def Due [DecidableEq F] (stampOf : R → F) (cell : Cell R F) (wanted : Option R)
    (pending : Option (Option R)) : Prop :=
  match wanted with
  | some record => pending = if cell.stamp = some (stampOf record) then none else some (some record)
  | none => pending = some none ∨ pending = none ∧ cell.stamp = none ∧ cell.pending = none

/-- What may happen to a key.  `atomic` says of the remote store that a deletion that
fails has not taken effect. -/
inductive Step [DecidableEq F] (stampOf : R → F) (atomic : Prop) : Cell R F → Cell R F → Prop
  | refresh (cell : Cell R F) (wanted : Option R) (pending : Option (Option R))
      (due : cell.Due stampOf wanted pending) :
      Step stampOf atomic cell { cell with wanted := wanted, pending := pending }
  | written (cell : Cell R F) (record : R) (pending : cell.pending = some (some record))
      (unacknowledged : cell.stamp ≠ some (stampOf record)) :
      Step stampOf atomic cell
        { cell with remote := some record, stamp := some (stampOf record), pending := none }
  | unchanged (cell : Cell R F) (record : R) (pending : cell.pending = some (some record))
      (acknowledged : cell.stamp = some (stampOf record)) :
      Step stampOf atomic cell { cell with pending := none }
  | writeFailed (cell : Cell R F) (record : R) (remote : Option R)
      (pending : cell.pending = some (some record))
      (unacknowledged : cell.stamp ≠ some (stampOf record))
      (outcome : remote = cell.remote ∨ remote = some record) :
      Step stampOf atomic cell { cell with remote := remote, stamp := none }
  | removed (cell : Cell R F) (pending : cell.pending = some none) :
      Step stampOf atomic cell { cell with remote := none, stamp := none, pending := none }
  | removeFailed (cell : Cell R F) (remote : Option R) (pending : cell.pending = some none)
      (outcome : remote = cell.remote ∨ remote = none) (unharmed : atomic → remote = cell.remote) :
      Step stampOf atomic cell { cell with remote := remote }

/-- What holds of a key whatever has failed. -/
structure Sound (stampOf : R → F) (cell : Cell R F) : Prop where
  stamped : ∀ record stamp, cell.remote = some record → cell.stamp = some stamp →
    stampOf record = stamp
  known : cell.remote.isSome → cell.stamp.isSome ∨ cell.pending.isSome
  settled : cell.pending = none → cell.stamp = cell.wanted.map stampOf
  due : ∀ record, cell.pending = some record → record = cell.wanted

theorem empty_sound (stampOf : R → F) : (empty : Cell R F).Sound stampOf where
  stamped := fun _ _ held => nomatch held
  known := fun held => nomatch held
  settled := fun _ => rfl
  due := fun _ pending => nomatch pending

variable [DecidableEq F] {stampOf : R → F} {atomic : Prop} {cell next : Cell R F}

theorem Due.stamp_eq {wanted : Option R} (due : cell.Due stampOf wanted none) :
    cell.stamp = wanted.map stampOf := by
  cases wanted with
  | some record =>
      unfold Due at due
      simp only at due
      split at due
      · assumption
      · cases due
  | none =>
      rcases due with waiting | ⟨_, unstamped, _⟩
      · cases waiting
      · exact unstamped

theorem Due.eq_wanted {wanted record : Option R}
    (due : cell.Due stampOf wanted (some record)) : record = wanted := by
  cases wanted with
  | some wantedRecord =>
      unfold Due at due
      simp only at due
      split at due
      · cases due
      · injection due
  | none =>
      rcases due with waiting | ⟨absent, _⟩
      · injection waiting
      · cases absent

theorem Due.known {wanted : Option R} {pending : Option (Option R)}
    (due : cell.Due stampOf wanted pending) (known : cell.stamp.isSome ∨ cell.pending.isSome) :
    cell.stamp.isSome ∨ pending.isSome := by
  cases wanted with
  | some record =>
      by_cases acknowledged : cell.stamp = some (stampOf record)
      · exact Or.inl (by rw [acknowledged]; rfl)
      · exact Or.inr (by rw [due, if_neg acknowledged]; rfl)
  | none =>
      rcases due with waiting | ⟨_, unstamped, idle⟩
      · exact Or.inr (by rw [waiting]; rfl)
      · rw [unstamped, idle] at known
        exact absurd known (by simp)

theorem Step.sound (step : Step stampOf atomic cell next) (sound : cell.Sound stampOf) :
    next.Sound stampOf := by
  cases step with
  | refresh wanted pending due =>
      refine ⟨sound.stamped, fun held => due.known (sound.known held), ?_, ?_⟩
      · rintro rfl
        exact due.stamp_eq
      · rintro record rfl
        exact due.eq_wanted
  | written record pending unacknowledged =>
      have isWanted := sound.due _ pending
      refine ⟨?_, fun _ => Or.inl rfl, fun _ => ?_, fun _ absent => (nomatch absent)⟩
      · intro held stamp isHeld isStamp
        cases isHeld
        cases isStamp
        rfl
      · rw [← isWanted]
        rfl
  | unchanged record pending acknowledged =>
      have isWanted := sound.due _ pending
      refine ⟨sound.stamped, fun _ => Or.inl (by rw [acknowledged]; rfl), fun _ => ?_,
        fun _ absent => (nomatch absent)⟩
      rw [← isWanted]
      exact acknowledged
  | writeFailed record remote pending unacknowledged outcome =>
      exact ⟨fun _ _ _ unstamped => (nomatch unstamped), fun _ => Or.inr (by rw [pending]; rfl),
        fun idle => absurd (pending.symm.trans idle) (by simp), sound.due⟩
  | removed pending =>
      have isWanted := sound.due _ pending
      refine ⟨fun _ _ held => (nomatch held), fun held => (nomatch held), fun _ => ?_,
        fun _ absent => (nomatch absent)⟩
      rw [← isWanted]
      rfl
  | removeFailed remote pending outcome unharmed =>
      refine ⟨fun record stamp held stamped => ?_, fun _ => Or.inr (by rw [pending]; rfl),
        sound.settled, sound.due⟩
      rcases outcome with same | gone
      · exact sound.stamped record stamp (same ▸ held) stamped
      · rw [gone] at held
        cases held

/-- An acknowledged record is held. -/
def Holds (cell : Cell R F) : Prop := cell.stamp.isSome → cell.remote.isSome

theorem Step.holds (step : Step stampOf True cell next) (holds : cell.Holds) : next.Holds := by
  cases step with
  | refresh wanted pending due => exact holds
  | written record pending unacknowledged => exact fun _ => rfl
  | unchanged record pending acknowledged => exact holds
  | writeFailed record remote pending unacknowledged outcome => exact fun stamped => nomatch stamped
  | removed pending => exact fun stamped => nomatch stamped
  | removeFailed remote pending outcome unharmed =>
      intro stamped
      rw [unharmed trivial]
      exact holds stamped

/-- All records are good ones. -/
structure Within (good : R → Prop) (cell : Cell R F) : Prop where
  wanted : ∀ record, cell.wanted = some record → good record
  remote : ∀ record, cell.remote = some record → good record
  pending : ∀ record, cell.pending = some (some record) → good record

theorem Step.within {good : R → Prop} (step : Step stampOf atomic cell next)
    (within : cell.Within good) (wanted : ∀ record, next.wanted = some record → good record) :
    next.Within good := by
  refine ⟨wanted, ?_, ?_⟩
  · intro record held
    cases step with
    | refresh newWanted newPending due => exact within.remote record held
    | written writtenRecord pending unacknowledged =>
        injection held with held
        rw [← held]
        exact within.pending _ pending
    | unchanged acknowledgedRecord pending acknowledged => exact within.remote record held
    | writeFailed failedRecord remote pending unacknowledged outcome =>
        rcases outcome with same | stored
        · exact within.remote record (same ▸ held)
        · rw [stored] at held
          injection held with held
          rw [← held]
          exact within.pending _ pending
    | removed pending => cases held
    | removeFailed remote pending outcome unharmed =>
        rcases outcome with same | gone
        · exact within.remote record (same ▸ held)
        · rw [gone] at held
          cases held
  · intro record waiting
    cases step with
    | refresh newWanted newPending due =>
        change newPending = _ at waiting
        rw [waiting] at due
        exact wanted record due.eq_wanted.symm
    | written writtenRecord pending unacknowledged => cases waiting
    | unchanged acknowledgedRecord pending acknowledged => cases waiting
    | writeFailed failedRecord remote pending unacknowledged outcome =>
        exact within.pending record waiting
    | removed pending => cases waiting
    | removeFailed remote pending outcome unharmed => exact within.pending record waiting

omit [DecidableEq F] in
/-- With nothing pending, whatever the remote store holds is wanted. -/
theorem Sound.current (sound : cell.Sound stampOf) (done : cell.pending = none) {record : R}
    (held : cell.remote = some record) :
    ∃ wanted, cell.wanted = some wanted ∧ stampOf record = stampOf wanted := by
  have known : cell.stamp.isSome := by
    rcases sound.known (by rw [held]; rfl) with stamped | pending
    · exact stamped
    · rw [done] at pending
      cases pending
  have settled := sound.settled done
  rcases wanted : cell.wanted with _ | wantedRecord
  · rw [settled, wanted] at known
    cases known
  · rw [wanted] at settled
    exact ⟨wantedRecord, rfl, sound.stamped _ _ held settled⟩

/-- The wanted record is held if it is acknowledged. -/
def Retains (stampOf : R → F) (cell : Cell R F) : Prop :=
  ∀ record, cell.wanted = some record → cell.stamp = some (stampOf record) → cell.remote.isSome

/-- As long as the same record is wanted, one that is acknowledged is neither lost nor written
again. -/
theorem Step.retains_iff (step : Step stampOf atomic cell next) (sound : cell.Sound stampOf)
    (same : next.wanted = cell.wanted) : next.Retains stampOf ↔ cell.Retains stampOf := by
  have apart {record : R} (pending : cell.pending = some (some record))
      (unacknowledged : cell.stamp ≠ some (stampOf record)) : cell.Retains stampOf := by
    intro wanted isWanted acknowledged
    have due := sound.due _ pending
    rw [isWanted, Option.some.injEq] at due
    rw [due] at unacknowledged
    exact absurd acknowledged unacknowledged
  have unwanted (pending : cell.pending = some none) {other : Cell R F}
      (same : other.wanted = cell.wanted) : other.Retains stampOf := by
    intro wanted isWanted _
    rw [same, ← sound.due _ pending] at isWanted
    cases isWanted
  cases step with
  | refresh wanted pending due =>
      change wanted = cell.wanted at same
      subst same
      exact Iff.rfl
  | written record pending unacknowledged =>
      exact iff_of_true (fun _ _ _ => rfl) (apart pending unacknowledged)
  | unchanged record pending acknowledged => exact Iff.rfl
  | writeFailed record remote pending unacknowledged outcome =>
      exact iff_of_true (fun _ _ unstamped => nomatch unstamped) (apart pending unacknowledged)
  | removed pending => exact iff_of_true (unwanted pending rfl) (unwanted pending rfl)
  | removeFailed remote pending outcome unharmed =>
      exact iff_of_true (unwanted pending rfl) (unwanted pending rfl)

omit [DecidableEq F] in
/-- With nothing pending, the wanted record is held exactly when it has been retained. -/
theorem Sound.retains (sound : cell.Sound stampOf) (done : cell.pending = none)
    (retains : cell.Retains stampOf) {wanted : R} (isWanted : cell.wanted = some wanted) :
    ∃ record, cell.remote = some record := by
  have settled := sound.settled done
  rw [isWanted] at settled
  exact Option.isSome_iff_exists.mp (retains wanted isWanted settled)

omit [DecidableEq F] in
/-- With nothing pending and every acknowledged record held, whatever is wanted is held. -/
theorem Sound.complete (sound : cell.Sound stampOf) (holds : cell.Holds)
    (done : cell.pending = none) {wanted : R} (isWanted : cell.wanted = some wanted) :
    ∃ record, cell.remote = some record ∧ stampOf record = stampOf wanted := by
  have settled := sound.settled done
  rw [isWanted] at settled
  rcases Option.isSome_iff_exists.mp (holds (by rw [settled]; rfl)) with ⟨record, held⟩
  exact ⟨record, held, sound.stamped _ _ held settled⟩

end Cell

end Foundation
