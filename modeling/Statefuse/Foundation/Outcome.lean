import Mathlib

/-!
# Computations that may fail

What a successful computation says about its parts: `bind_ok_iff` takes a sequence
of two apart, `mapM_ok_iff` and `filterM_ok_iff` say when every item of a list can be
treated and what comes out, and `foldlM_invariant` carries an invariant through a loop.
-/

namespace Foundation

universe u v w

section Outcome

variable {ε : Type u} {α : Type v} {β : Type v}

/-- A sequence of two computations succeeds when both do. -/
theorem bind_ok_iff {first : Except ε α} {next : α → Except ε β} {result : β} :
    (first >>= next) = .ok result ↔ ∃ value, first = .ok value ∧ next value = .ok result := by
  cases first with
  | error failure => simp [Bind.bind, Except.bind]
  | ok value => simp [Bind.bind, Except.bind]

/-- A computation whose first part is known to succeed is its second part. -/
theorem bind_of_ok {first : Except ε α} {next : α → Except ε β} {value : α}
    (computed : first = .ok value) : (first >>= next) = next value := by
  rw [computed]
  rfl

/-- A check in front of a computation. -/
theorem guard_ok_iff {γ : Type} {first : Except ε Unit} {next : Unit → Except ε γ} {result : γ} :
    (first >>= next) = .ok result ↔ first = .ok () ∧ next () = .ok result := by
  cases first with
  | error failure => simp [Bind.bind, Except.bind]
  | ok value => simp [Bind.bind, Except.bind]

theorem pure_ok_iff {value result : α} :
    (pure value : Except ε α) = .ok result ↔ value = result := by
  simp [pure, Except.pure]

theorem map_ok_iff {first : Except ε α} {f : α → β} {result : β} :
    first.map f = .ok result ↔ ∃ value, first = .ok value ∧ f value = result := by
  cases first with
  | error failure => simp [Except.map]
  | ok value => simp [Except.map]

end Outcome

section Lists

variable {ε : Type} {α : Type v}

/-- Treating every item succeeds when each can be treated. -/
theorem mapM_ok_iff {β : Type v} {f : α → Except ε β} {items : List α} {results : List β} :
    items.mapM f = .ok results ↔
      List.Forall₂ (fun item result => f item = .ok result) items results := by
  induction items generalizing results with
  | nil =>
      rw [List.mapM_nil, pure_ok_iff, List.forall₂_nil_left_iff]
      exact eq_comm
  | cons head tail inductionHypothesis =>
      rw [List.mapM_cons, bind_ok_iff, List.forall₂_cons_left_iff]
      constructor
      · rintro ⟨first, computed, rest⟩
        rw [bind_ok_iff] at rest
        obtain ⟨others, treated, same⟩ := rest
        rw [pure_ok_iff] at same
        exact ⟨first, others, computed, inductionHypothesis.mp treated, same.symm⟩
      · rintro ⟨first, others, computed, treated, same⟩
        refine ⟨first, computed, ?_⟩
        rw [bind_ok_iff]
        exact ⟨others, inductionHypothesis.mpr treated, by rw [pure_ok_iff, same]⟩

/-- The results are those of the items. -/
theorem mem_mapM_ok {β : Type v} {f : α → Except ε β} {items : List α} {results : List β}
    (run : items.mapM f = .ok results) (result : β) :
    result ∈ results ↔ ∃ item ∈ items, f item = .ok result := by
  have treated := mapM_ok_iff.mp run
  clear run
  induction treated with
  | nil => simp
  | @cons head first tail others computed _ inductionHypothesis =>
      constructor
      · intro listed
        rcases List.mem_cons.mp listed with same | later
        · exact ⟨head, List.mem_cons_self, same ▸ computed⟩
        · rcases inductionHypothesis.mp later with ⟨item, member, found⟩
          exact ⟨item, List.mem_cons_of_mem _ member, found⟩
      · rintro ⟨item, member, found⟩
        rcases List.mem_cons.mp member with same | later
        · rw [same, computed] at found
          injection found with found
          rw [found]
          exact List.mem_cons_self
        · exact List.mem_cons_of_mem _ (inductionHypothesis.mpr ⟨item, later, found⟩)

/-- Every item was treated. -/
theorem each_mapM_ok {β : Type v} {f : α → Except ε β} {items : List α} {results : List β}
    (run : items.mapM f = .ok results) : ∀ item ∈ items, ∃ result, f item = .ok result := by
  have treated := mapM_ok_iff.mp run
  clear run
  induction treated with
  | nil => simp
  | @cons head first tail others computed _ inductionHypothesis =>
      intro item member
      rcases List.mem_cons.mp member with same | later
      · exact ⟨first, same ▸ computed⟩
      · exact inductionHypothesis item later

/-- A treatment that is known to succeed is a plain map. -/
theorem mapM_eq_map {β : Type v} {f : α → Except ε β} {items : List α} (g : α → β)
    (each : ∀ item ∈ items, f item = .ok (g item)) : items.mapM f = .ok (items.map g) := by
  rw [mapM_ok_iff, List.forall₂_map_right_iff, List.forall₂_same]
  exact each

/-- What only an image of the results counts for, another computation can be taken for. -/
theorem mapM_image {γ : Type} {β : Type v} {f other : α → Except ε β} {items : List α}
    {results : List β} (image : β → γ)
    (each : ∀ item ∈ items, ∀ result, f item = .ok result →
      ∃ otherResult, other item = .ok otherResult ∧ image result = image otherResult)
    (run : items.mapM f = .ok results) :
    ∃ others, items.mapM other = .ok others ∧ results.map image = others.map image := by
  have treated := mapM_ok_iff.mp run
  clear run
  induction treated with
  | nil => exact ⟨[], rfl, rfl⟩
  | cons treated rest inductionHypothesis =>
      rcases each _ List.mem_cons_self _ treated with ⟨head, isHead, sameHead⟩
      rcases inductionHypothesis (fun item listed => each item (List.mem_cons_of_mem _ listed))
        with ⟨tail, isTail, sameTail⟩
      refine ⟨head :: tail, mapM_ok_iff.mpr (.cons isHead (mapM_ok_iff.mp isTail)), ?_⟩
      rw [List.map_cons, List.map_cons, sameHead, sameTail]

/-- Treating every item succeeds when each can be treated. -/
theorem exists_mapM_ok {β : Type v} {f : α → Except ε β} {items : List α}
    (each : ∀ item ∈ items, ∃ result, f item = .ok result) :
    ∃ results, items.mapM f = .ok results := by
  induction items with
  | nil => exact ⟨[], rfl⟩
  | cons head tail inductionHypothesis =>
      obtain ⟨first, computed⟩ := each head List.mem_cons_self
      obtain ⟨rest, treated⟩ := inductionHypothesis
        (fun item member => each item (List.mem_cons_of_mem _ member))
      refine ⟨first :: rest, ?_⟩
      rw [List.mapM_cons, bind_ok_iff]
      refine ⟨first, computed, ?_⟩
      rw [bind_ok_iff]
      exact ⟨rest, treated, rfl⟩

/-- The condition is decided, and holds. -/
def passes {γ : Type} (condition : γ → Except ε Bool) (item : γ) : Bool :=
  match condition item with
  | .ok holds => holds
  | .error _ => false

private theorem filterAuxM_ok_iff {γ : Type} {condition : γ → Except ε Bool}
    {items gathered result : List γ} :
    items.filterAuxM condition gathered = .ok result ↔
      (∀ item ∈ items, ∃ holds, condition item = .ok holds) ∧
        result = (items.filter (passes condition)).reverse ++ gathered := by
  induction items generalizing gathered with
  | nil =>
      rw [List.filterAuxM, pure_ok_iff]
      simp [eq_comm]
  | cons head tail inductionHypothesis =>
      rw [List.filterAuxM, bind_ok_iff]
      constructor
      · rintro ⟨holds, decided, run⟩
        obtain ⟨others, same⟩ := inductionHypothesis.mp run
        refine ⟨?_, ?_⟩
        · intro item member
          rcases List.mem_cons.mp member with equal | member
          · rw [equal]
            exact ⟨holds, decided⟩
          · exact others item member
        · cases holds with
          | true => simp [same, passes, decided]
          | false => simp [same, passes, decided]
      · rintro ⟨each, same⟩
        obtain ⟨holds, decided⟩ := each head List.mem_cons_self
        refine ⟨holds, decided, inductionHypothesis.mpr
          ⟨fun item member => each item (List.mem_cons_of_mem _ member), ?_⟩⟩
        cases holds with
        | true => simp [same, passes, decided]
        | false => simp [same, passes, decided]

/-- A filter succeeds when its condition is decided for every item. -/
theorem filterM_ok_iff {γ : Type} {condition : γ → Except ε Bool} {items kept : List γ} :
    items.filterM condition = .ok kept ↔
      (∀ item ∈ items, ∃ holds, condition item = .ok holds) ∧
        kept = items.filter (passes condition) := by
  rw [List.filterM, bind_ok_iff]
  constructor
  · rintro ⟨gathered, run, same⟩
    obtain ⟨each, reversed⟩ := filterAuxM_ok_iff.mp run
    rw [pure_ok_iff] at same
    refine ⟨each, ?_⟩
    rw [← same, reversed, List.append_nil, List.reverse_reverse]
  · rintro ⟨each, same⟩
    refine ⟨_, filterAuxM_ok_iff.mpr ⟨each, rfl⟩, ?_⟩
    rw [pure_ok_iff, List.append_nil, List.reverse_reverse, same]

theorem filterM_of_decided {γ : Type} {condition : γ → Except ε Bool} {items : List γ}
    (each : ∀ item ∈ items, ∃ holds, condition item = .ok holds) :
    items.filterM condition = .ok (items.filter (passes condition)) :=
  filterM_ok_iff.mpr ⟨each, rfl⟩

theorem passes_iff {γ : Type} {condition : γ → Except ε Bool} {item : γ} :
    passes condition item = true ↔ condition item = .ok true := by
  cases decided : condition item with
  | error failure => simp [passes, decided]
  | ok holds => simp [passes, decided]

end Lists

section Loops

variable {ε : Type u} {α : Type v} {σ : Type v}

/-- An invariant that every successful step preserves holds after the loop.  The
invariant may speak about the items already done, and a step may look at where in the
list it stands. -/
theorem foldlM_invariant_split {step : σ → α → Except ε σ} (invariant : List α → σ → Prop)
    (items : List α) (start result : σ) (run : items.foldlM step start = .ok result)
    (initially : invariant [] start)
    (preserved : ∀ done item rest state next, items = done ++ item :: rest →
      invariant done state → step state item = .ok next → invariant (done ++ [item]) next) :
    invariant items result := by
  have general : ∀ (rest done : List α) (state : σ), items = done ++ rest →
      invariant done state → rest.foldlM step state = .ok result →
      invariant (done ++ rest) result := by
    intro rest
    induction rest with
    | nil =>
        intro done state _ holds run
        rw [List.foldlM_nil, pure_ok_iff] at run
        subst run
        rw [List.append_nil]
        exact holds
    | cons head tail inductionHypothesis =>
        intro done state split holds run
        rw [List.foldlM_cons, bind_ok_iff] at run
        obtain ⟨next, stepped, run⟩ := run
        have after := inductionHypothesis (done ++ [head]) next
          (by rw [split, List.append_assoc, List.singleton_append])
          (preserved done head tail state next split holds stepped) run
        rw [List.append_assoc, List.singleton_append] at after
        exact after
  exact general items [] start rfl initially run

theorem foldlM_invariant {step : σ → α → Except ε σ} (invariant : List α → σ → Prop)
    (items : List α) (start result : σ) (run : items.foldlM step start = .ok result)
    (initially : invariant [] start)
    (preserved : ∀ done item state next, invariant done state → item ∈ items →
      step state item = .ok next → invariant (done ++ [item]) next) :
    invariant items result :=
  foldlM_invariant_split invariant items start result run initially
    (fun done item rest state next split holds stepped =>
      preserved done item state next holds (by rw [split]; simp) stepped)

/-- A loop over items that correspond follows a loop whose steps it can follow. -/
theorem foldlM_simulation {β τ : Type v} {step : σ → α → Except ε σ}
    {other : τ → β → Except ε τ} {corresponds : α → β → Prop} (related : List α → σ → τ → Prop)
    {items : List α} {others : List β} {start result : σ} {otherStart : τ}
    (paired : List.Forall₂ corresponds items others)
    (run : items.foldlM step start = .ok result) (initially : related [] start otherStart)
    (preserved : ∀ done item otherItem rest state otherState next,
      items = done ++ item :: rest → corresponds item otherItem →
      related done state otherState → step state item = .ok next →
      ∃ otherNext, other otherState otherItem = .ok otherNext ∧
        related (done ++ [item]) next otherNext) :
    ∃ otherResult, others.foldlM other otherStart = .ok otherResult ∧
      related items result otherResult := by
  have general : ∀ (done rest : List α) (otherRest : List β) (state : σ) (otherState : τ),
      items = done ++ rest → List.Forall₂ corresponds rest otherRest →
      related done state otherState → rest.foldlM step state = .ok result →
      ∃ otherResult, otherRest.foldlM other otherState = .ok otherResult ∧
        related (done ++ rest) result otherResult := by
    intro done rest otherRest state otherState split rests holds run
    induction rests generalizing done state otherState with
    | nil =>
        rw [List.foldlM_nil, pure_ok_iff] at run
        subst run
        rw [List.append_nil]
        exact ⟨otherState, rfl, holds⟩
    | cons matched rests inductionHypothesis =>
        rw [List.foldlM_cons, bind_ok_iff] at run
        rcases run with ⟨next, stepped, run⟩
        rcases preserved done _ _ _ state otherState next split matched holds stepped with
          ⟨otherNext, otherStepped, after⟩
        rcases inductionHypothesis (done ++ [_]) next otherNext (by rw [split]; simp) after run
          with ⟨otherResult, reached, final⟩
        rw [List.foldlM_cons, bind_of_ok otherStepped]
        rw [List.append_assoc, List.singleton_append] at final
        exact ⟨otherResult, reached, final⟩
  exact general [] items others start otherStart rfl paired initially run

/-- A loop succeeds when every step does from a state with the invariant. -/
theorem exists_foldlM_invariant {step : σ → α → Except ε σ} (invariant : List α → σ → Prop)
    (items : List α) (start : σ) (initially : invariant [] start)
    (each : ∀ done item rest state, items = done ++ item :: rest → invariant done state →
      ∃ next, step state item = .ok next ∧ invariant (done ++ [item]) next) :
    ∃ result, items.foldlM step start = .ok result ∧ invariant items result := by
  have general : ∀ (rest done : List α) (state : σ), items = done ++ rest →
      invariant done state →
      ∃ result, rest.foldlM step state = .ok result ∧ invariant (done ++ rest) result := by
    intro rest
    induction rest with
    | nil =>
        intro done state _ holds
        rw [List.append_nil]
        exact ⟨state, rfl, holds⟩
    | cons head tail inductionHypothesis =>
        intro done state split holds
        obtain ⟨next, stepped, after⟩ := each done head tail state split holds
        obtain ⟨result, looped, complete⟩ := inductionHypothesis (done ++ [head]) next
          (by rw [split, List.append_assoc, List.singleton_append]) after
        rw [List.append_assoc, List.singleton_append] at complete
        refine ⟨result, ?_, complete⟩
        rw [List.foldlM_cons, bind_of_ok stepped]
        exact looped
  exact general items [] start rfl initially

/-- A loop succeeds when every step does. -/
theorem exists_foldlM_ok {step : σ → α → Except ε σ} {items : List α}
    (each : ∀ state, ∀ item ∈ items, ∃ next, step state item = .ok next) (start : σ) :
    ∃ result, items.foldlM step start = .ok result := by
  induction items generalizing start with
  | nil => exact ⟨start, rfl⟩
  | cons head tail inductionHypothesis =>
      obtain ⟨next, stepped⟩ := each start head List.mem_cons_self
      obtain ⟨result, looped⟩ := inductionHypothesis
        (fun state item member => each state item (List.mem_cons_of_mem _ member)) next
      refine ⟨result, ?_⟩
      rw [List.foldlM_cons, bind_ok_iff]
      exact ⟨next, stepped, looped⟩

end Loops

end Foundation
