import Statefuse.Foundation.Dict

/-!
# Dictionaries in insertion order

A dictionary of the host language keeps its keys in the order in which they were first
bound: binding a key again replaces its value where it stands.  Where a program reads the
values of a dictionary in that order the dictionary is modelled as its list of entries,
and what the operations do is said about the entries.
-/

namespace Foundation

universe u v

/-- The entries of a dictionary, no key of which is bound twice. -/
structure OrderedDict (K : Type u) (V : Type v) where
  entries : List (K × V)
  keysDistinct : (entries.map Prod.fst).Nodup

namespace OrderedDict

variable {K : Type u} {V : Type v}

def keys (dict : OrderedDict K V) : List K := dict.entries.map Prod.fst

def values (dict : OrderedDict K V) : List V := dict.entries.map Prod.snd

theorem mem_keys {dict : OrderedDict K V} {key : K} :
    key ∈ dict.keys ↔ ∃ value, (key, value) ∈ dict.entries := by
  simp [keys]

theorem mem_values {dict : OrderedDict K V} {value : V} :
    value ∈ dict.values ↔ ∃ key, (key, value) ∈ dict.entries := by
  simp [values]

/-- The dictionary that binds nothing. -/
def empty : OrderedDict K V := ⟨[], List.nodup_nil⟩

@[simp] theorem entries_empty : (empty : OrderedDict K V).entries = [] := rfl

@[simp] theorem keys_empty : (empty : OrderedDict K V).keys = [] := rfl

section Assign

variable [DecidableEq K]

/-- The entries with another value under a key. -/
def replaced (entries : List (K × V)) (key : K) (value : V) : List (K × V) :=
  entries.map fun entry => if entry.1 = key then (key, value) else entry

theorem keys_replaced (entries : List (K × V)) (key : K) (value : V) :
    (replaced entries key value).map Prod.fst = entries.map Prod.fst := by
  rw [replaced, List.map_map]
  apply List.map_congr_left
  intro entry _
  by_cases same : entry.1 = key
  · simp [same]
  · simp [same]

theorem replaced_distinct {dict : OrderedDict K V} (key : K) (value : V) :
    ((replaced dict.entries key value).map Prod.fst).Nodup := by
  rw [keys_replaced]
  exact dict.keysDistinct

omit [DecidableEq K] in
theorem appended_distinct {dict : OrderedDict K V} {key : K} (value : V)
    (unbound : key ∉ dict.keys) : ((dict.entries ++ [(key, value)]).map Prod.fst).Nodup := by
  rw [List.map_append, List.map_singleton, List.nodup_append]
  refine ⟨dict.keysDistinct, List.nodup_singleton key, ?_⟩
  intro bound listed other last same
  rw [List.mem_singleton.mp last] at same
  rw [same] at listed
  exact unbound listed

/-- `dict[key] = value` -/
def assign (dict : OrderedDict K V) (key : K) (value : V) : OrderedDict K V :=
  if bound : key ∈ dict.keys then
    ⟨replaced dict.entries key value, replaced_distinct key value⟩
  else ⟨dict.entries ++ [(key, value)], appended_distinct value bound⟩

/-- `dict.setdefault(key, value)` -/
def setDefault (dict : OrderedDict K V) (key : K) (value : V) : OrderedDict K V :=
  if key ∈ dict.keys then dict else dict.assign key value

/-- `{key(item): item for item in items}` -/
def ofItems (key : V → K) (items : List V) : OrderedDict K V :=
  items.foldl (fun dict item => dict.assign (key item) item) empty

variable {dict : OrderedDict K V} {key : K} {value : V}

/-- Assigning keeps the order of the keys, and a new key comes last. -/
theorem keys_assign :
    (dict.assign key value).keys = if key ∈ dict.keys then dict.keys else dict.keys ++ [key] := by
  unfold assign
  by_cases bound : key ∈ dict.keys
  · rw [dif_pos bound, if_pos bound]
    exact keys_replaced dict.entries key value
  · rw [dif_neg bound, if_neg bound]
    exact List.map_append

@[simp] theorem mem_keys_assign {other : K} :
    other ∈ (dict.assign key value).keys ↔ other ∈ dict.keys ∨ other = key := by
  rw [keys_assign]
  by_cases bound : key ∈ dict.keys
  · rw [if_pos bound]
    constructor
    · exact Or.inl
    · intro listed
      rcases listed with earlier | same
      · exact earlier
      · rw [same]
        exact bound
  · rw [if_neg bound, List.mem_append, List.mem_singleton]

/-- Assigning binds the key to the value and leaves the other keys as they were. -/
theorem mem_assign {entry : K × V} :
    entry ∈ (dict.assign key value).entries ↔
      entry = (key, value) ∨ (entry ∈ dict.entries ∧ entry.1 ≠ key) := by
  unfold assign
  by_cases bound : key ∈ dict.keys
  · rw [dif_pos bound]
    simp only [replaced, List.mem_map]
    constructor
    · intro listed
      rcases listed with ⟨original, inside, same⟩
      by_cases here : original.1 = key
      · rw [if_pos here] at same
        exact Or.inl same.symm
      · rw [if_neg here] at same
        rw [← same]
        exact Or.inr ⟨inside, here⟩
    · intro either
      rcases either with same | ⟨inside, other⟩
      · rcases mem_keys.mp bound with ⟨held, inside⟩
        exact ⟨(key, held), inside, by rw [if_pos rfl, same]⟩
      · exact ⟨entry, inside, if_neg other⟩
  · rw [dif_neg bound, List.mem_append, List.mem_singleton]
    constructor
    · intro listed
      rcases listed with inside | same
      · refine Or.inr ⟨inside, ?_⟩
        intro here
        rw [← here] at bound
        exact bound (mem_keys.mpr ⟨entry.2, inside⟩)
      · exact Or.inl same
    · intro either
      rcases either with same | ⟨inside, _⟩
      · exact Or.inr same
      · exact Or.inl inside

@[simp] theorem mem_keys_setDefault {other : K} :
    other ∈ (dict.setDefault key value).keys ↔ other ∈ dict.keys ∨ other = key := by
  unfold setDefault
  by_cases bound : key ∈ dict.keys
  · rw [if_pos bound]
    constructor
    · exact Or.inl
    · intro listed
      rcases listed with earlier | same
      · exact earlier
      · rw [same]
        exact bound
  · rw [if_neg bound, mem_keys_assign]

/-- A default binds a key that was not bound. -/
theorem mem_setDefault {entry : K × V} :
    entry ∈ (dict.setDefault key value).entries ↔
      entry ∈ dict.entries ∨ (entry = (key, value) ∧ key ∉ dict.keys) := by
  unfold setDefault
  by_cases bound : key ∈ dict.keys
  · rw [if_pos bound]
    constructor
    · exact Or.inl
    · intro listed
      rcases listed with inside | ⟨_, unbound⟩
      · exact inside
      · exact absurd bound unbound
  · rw [if_neg bound, mem_assign]
    constructor
    · intro listed
      rcases listed with same | ⟨inside, _⟩
      · exact Or.inr ⟨same, bound⟩
      · exact Or.inl inside
    · intro listed
      rcases listed with inside | ⟨same, _⟩
      · refine Or.inr ⟨inside, ?_⟩
        intro here
        rw [← here] at bound
        exact bound (mem_keys.mpr ⟨entry.2, inside⟩)
      · exact Or.inl same

end Assign

/-! ## The dictionary of some items -/

section Items

variable [DecidableEq K] {key : V → K} {items : List V}

/-- Later items are bound behind the keys that are there. -/
theorem keys_prefix_foldl (key : V → K) (items : List V) (dict : OrderedDict K V) :
    dict.keys <+: (items.foldl (fun dict item => dict.assign (key item) item) dict).keys := by
  induction items generalizing dict with
  | nil => exact List.prefix_rfl
  | cons head tail inductionHypothesis =>
      refine List.IsPrefix.trans ?_ (inductionHypothesis (dict.assign (key head) head))
      rw [keys_assign]
      by_cases bound : key head ∈ dict.keys
      · rw [if_pos bound]
      · rw [if_neg bound]
        exact List.prefix_append _ _

/-- Where items of one key are the same item, every item is bound under its key. -/
theorem mem_ofItems
    (identical : ∀ first ∈ items, ∀ second ∈ items, key first = key second → first = second)
    (entry : K × V) :
    entry ∈ (ofItems key items).entries ↔ entry.2 ∈ items ∧ key entry.2 = entry.1 := by
  have general : ∀ (rest : List V) (done : List V) (dict : OrderedDict K V),
      (∀ item, item ∈ items ↔ item ∈ done ∨ item ∈ rest) →
      (∀ entry, entry ∈ dict.entries ↔ entry.2 ∈ done ∧ key entry.2 = entry.1) →
      (entry ∈ (rest.foldl (fun dict item => dict.assign (key item) item) dict).entries ↔
        entry.2 ∈ items ∧ key entry.2 = entry.1) := by
    intro rest
    induction rest with
    | nil =>
        intro done dict split holds
        rw [List.foldl_nil, holds entry, split]
        simp
    | cons head tail inductionHypothesis =>
        intro done dict split holds
        refine inductionHypothesis (done ++ [head]) _ ?_ ?_
        · intro item
          rw [split]
          simp [or_assoc]
        · intro bound
          rw [mem_assign, holds bound, List.mem_append, List.mem_singleton]
          have headListed : head ∈ items := (split head).mpr (Or.inr List.mem_cons_self)
          constructor
          · intro either
            rcases either with same | ⟨⟨listed, keyed⟩, _⟩
            · rw [same]
              exact ⟨Or.inr rfl, rfl⟩
            · exact ⟨Or.inl listed, keyed⟩
          · intro both
            rcases both with ⟨listed, keyed⟩
            by_cases here : bound.1 = key head
            · left
              have boundListed : bound.2 ∈ items := by
                rcases listed with earlier | last
                · exact (split bound.2).mpr (Or.inl earlier)
                · rw [last]
                  exact headListed
              have same := identical bound.2 boundListed head headListed (keyed.trans here)
              exact Prod.ext here same
            · right
              refine ⟨⟨?_, keyed⟩, here⟩
              rcases listed with earlier | last
              · exact earlier
              · rw [last] at keyed
                exact absurd keyed.symm here
  exact general items [] empty (by simp) (by simp)

theorem mem_values_ofItems
    (identical : ∀ first ∈ items, ∀ second ∈ items, key first = key second → first = second)
    (item : V) : item ∈ (ofItems key items).values ↔ item ∈ items := by
  rw [mem_values]
  constructor
  · intro bound
    rcases bound with ⟨_, bound⟩
    exact ((mem_ofItems identical _).mp bound).1
  · intro listed
    exact ⟨key item, (mem_ofItems identical _).mpr ⟨listed, rfl⟩⟩

/-- The values are the items in the order in which their keys were first met. -/
theorem keys_ofItems
    (identical : ∀ first ∈ items, ∀ second ∈ items, key first = key second → first = second) :
    (ofItems key items).values.map key = (ofItems key items).keys := by
  rw [values, keys, List.map_map]
  apply List.map_congr_left
  intro entry bound
  exact ((mem_ofItems identical entry).mp bound).2

theorem values_ofItems_nodup
    (identical : ∀ first ∈ items, ∀ second ∈ items, key first = key second → first = second) :
    (ofItems key items).values.Nodup := by
  apply List.Nodup.of_map key
  rw [keys_ofItems identical]
  exact (ofItems key items).keysDistinct

/-- Two items with different keys at the front of the list are the first two values. -/
theorem values_ofItems_pair {first second : V} {rest : List V}
    (identical : ∀ one ∈ first :: second :: rest, ∀ other ∈ first :: second :: rest,
      key one = key other → one = other)
    (different : key first ≠ key second) :
    [first, second] <+: (ofItems key (first :: second :: rest)).values := by
  have start := keys_prefix_foldl key rest
    (((empty : OrderedDict K V).assign (key first) first).assign (key second) second)
  have two : (((empty : OrderedDict K V).assign (key first) first).assign
      (key second) second).keys = [key first, key second] := by
    rw [keys_assign, if_neg (by simp [different.symm]), keys_assign]
    simp
  rw [two] at start
  change [key first, key second] <+: (ofItems key (first :: second :: rest)).keys at start
  rw [← keys_ofItems identical] at start
  have members := mem_values_ofItems identical
  rcases start with ⟨others, split⟩
  rcases List.map_eq_cons_iff.mp split.symm with ⟨one, later, front, firstKey, split⟩
  rcases List.map_eq_cons_iff.mp split with ⟨other, rest', next, secondKey, _⟩
  have oneListed := (members one).mp (by simp [front])
  have otherListed := (members other).mp (by simp [front, next])
  rw [front, next, identical one oneListed first (by simp) firstKey,
    identical other otherListed second (by simp) secondKey]
  exact List.prefix_append [first, second] rest'

end Items

end OrderedDict

end Foundation
