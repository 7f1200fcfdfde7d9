import Mathlib

/-!
# Dictionaries, sets and sorted lists

A dictionary is an extensional ordered map: two dictionaries are equal exactly
when every lookup agrees, whatever the order of insertion was.  This is the
equality a host language uses to compare dictionaries, and it is the only
equality the results over this library speak about.

Iteration follows the key order.  A program that iterates in insertion order
computes the same result as long as it sorts, or accumulates into a set or a
dictionary; `toList_eq_of_sorted` and `sortBy_eq_of_perm` are the two facts that
make such an argument: a strictly sorted list is determined by its members.
-/

namespace Foundation

universe u v w

/-- A dictionary with ordered keys. -/
abbrev Dict (K : Type u) (V : Type v) [LinearOrder K] : Type (max u v) :=
  Std.ExtTreeMap K V compare

/-- A set of ordered elements. -/
abbrev PySet (K : Type u) [LinearOrder K] : Type u :=
  Std.ExtTreeSet K compare

/-- The comparison of a linear order is transitive, in one step from the order. -/
instance (priority := high) transOfLinearOrder {K : Type u} [order : LinearOrder K] :
    Std.TransCmp (compare : K → K → Ordering) :=
  inferInstance

/-- The comparison of a linear order tells different keys apart. -/
instance (priority := high) lawfulOfLinearOrder {K : Type u} [order : LinearOrder K] :
    Std.LawfulEqCmp (compare : K → K → Ordering) :=
  inferInstance

/-- The stable sort of a list by a key. -/
def sortBy {α : Type u} {β : Type v} [LinearOrder β] (key : α → β) (items : List α) : List α :=
  items.insertionSort (fun first second => key first ≤ key second)

section SortBy

variable {α : Type u} {β : Type v} [LinearOrder β] {key : α → β}

theorem sortBy_perm (key : α → β) (items : List α) : (sortBy key items).Perm items :=
  List.perm_insertionSort _ items

@[simp] theorem mem_sortBy {items : List α} {item : α} :
    item ∈ sortBy key items ↔ item ∈ items :=
  (sortBy_perm key items).mem_iff

theorem sortBy_pairwise (key : α → β) (items : List α) :
    (sortBy key items).Pairwise (fun first second => key first ≤ key second) := by
  have : IsTrans α (fun first second => key first ≤ key second) := ⟨fun _ _ _ => le_trans⟩
  have : Std.Total (fun first second : α => key first ≤ key second) :=
    ⟨fun first second => le_total (key first) (key second)⟩
  exact List.pairwise_insertionSort _ items

/-- Two permuted lists whose members are told apart by their keys sort to the
same list. -/
theorem sortBy_eq_of_perm {first second : List α} (permuted : first.Perm second)
    (injective : ∀ a ∈ first, ∀ b ∈ first, key a = key b → a = b) :
    sortBy key first = sortBy key second := by
  refine List.Perm.eq_of_pairwise ?_ (sortBy_pairwise key first) (sortBy_pairwise key second)
    (((sortBy_perm key first).trans permuted).trans (sortBy_perm key second).symm)
  intro a b aMember bMember below above
  have bFirst : b ∈ first := permuted.mem_iff.mpr (mem_sortBy.mp bMember)
  exact injective a (mem_sortBy.mp aMember) b bFirst (le_antisymm below above)

/-- A sorted list is its own sort. -/
theorem sortBy_of_pairwise {items : List α}
    (sorted : items.Pairwise (fun first second => key first ≤ key second)) :
    sortBy key items = items :=
  List.Pairwise.insertionSort_eq sorted

@[simp] theorem sortBy_eq_nil {items : List α} : sortBy key items = [] ↔ items = [] := by
  constructor
  · intro empty
    have permuted := sortBy_perm key items
    rw [empty] at permuted
    exact permuted.symm.eq_nil
  · intro empty
    subst empty
    rfl

theorem sortBy_nodup {items : List α} (distinct : items.Nodup) : (sortBy key items).Nodup :=
  (sortBy_perm key items).nodup_iff.mpr distinct

/-- Lists without repetition and with the same members sort to the same list. -/
theorem sortBy_eq_of_mem_iff {first second : List α} (firstDistinct : first.Nodup)
    (secondDistinct : second.Nodup) (members : ∀ a, a ∈ first ↔ a ∈ second)
    (injective : ∀ a ∈ first, ∀ b ∈ first, key a = key b → a = b) :
    sortBy key first = sortBy key second :=
  sortBy_eq_of_perm ((List.perm_ext_iff_of_nodup firstDistinct secondDistinct).mpr members)
    injective

end SortBy

/-- A list sorted strictly by a key is determined by its members. -/
theorem eq_of_strictly_sorted {α : Type u} {β : Type v} [LinearOrder β] {key : α → β}
    {first second : List α}
    (firstSorted : first.Pairwise (fun a b => key a < key b))
    (secondSorted : second.Pairwise (fun a b => key a < key b))
    (members : ∀ a, a ∈ first ↔ a ∈ second) : first = second := by
  have : Std.Irrefl (fun a b : α => key a < key b) := ⟨fun a => lt_irrefl (key a)⟩
  have : Std.Asymm (fun a b : α => key a < key b) := ⟨fun _ _ => lt_asymm⟩
  have firstDistinct : first.Nodup := firstSorted.imp (fun below same => by
    subst same
    exact lt_irrefl _ below)
  have secondDistinct : second.Nodup := secondSorted.imp (fun below same => by
    subst same
    exact lt_irrefl _ below)
  exact List.Perm.eq_of_pairwise
    (fun a b _ _ below above => absurd above (lt_asymm below)) firstSorted secondSorted
    ((List.perm_ext_iff_of_nodup firstDistinct secondDistinct).mpr members)

/-! ## Lookups -/

namespace Dict

variable {K : Type u} {V : Type v} {W : Type w} [LinearOrder K]

theorem ext {first second : Dict K V}
    (lookups : ∀ key : K, first[key]? = second[key]?) : first = second :=
  Std.ExtTreeMap.ext_getElem? lookups

@[simp] theorem get_empty (key : K) : (∅ : Dict K V)[key]? = none := by
  simp

theorem get_insert (dict : Dict K V) (key other : K) (value : V) :
    (dict.insert key value)[other]? = if key = other then some value else dict[other]? := by
  rw [Std.ExtTreeMap.getElem?_insert]
  simp only [compare_eq_iff_eq]

@[simp] theorem get_insert_self (dict : Dict K V) (key : K) (value : V) :
    (dict.insert key value)[key]? = some value := by
  rw [get_insert, if_pos rfl]

theorem get_insert_of_ne (dict : Dict K V) {key other : K} (different : key ≠ other)
    (value : V) : (dict.insert key value)[other]? = dict[other]? := by
  rw [get_insert, if_neg different]

theorem get_erase (dict : Dict K V) (key other : K) :
    (dict.erase key)[other]? = if key = other then none else dict[other]? := by
  rw [Std.ExtTreeMap.getElem?_erase]
  simp only [compare_eq_iff_eq]

/-- Inserting the value that is already there changes nothing. -/
theorem insert_of_get {dict : Dict K V} {key : K} {value : V} (found : dict[key]? = some value) :
    dict.insert key value = dict := by
  apply ext
  intro other
  rw [get_insert]
  split
  case isTrue same =>
    subst same
    exact found.symm
  case isFalse => rfl

theorem mem_iff (dict : Dict K V) (key : K) : key ∈ dict ↔ ∃ value, dict[key]? = some value := by
  rw [← Option.isSome_iff_exists, Std.ExtTreeMap.isSome_getElem?_iff_mem]

theorem mem_toList (dict : Dict K V) (key : K) (value : V) :
    (key, value) ∈ dict.toList ↔ dict[key]? = some value :=
  Std.ExtTreeMap.mem_toList_iff_getElem?_eq_some

theorem toList_sorted (dict : Dict K V) :
    dict.toList.Pairwise (fun first second => first.1 < second.1) :=
  Std.ExtTreeMap.ordered_keys_toList.imp (fun below => compare_lt_iff_lt.mp below)

/-- The listing of a dictionary is the one strictly sorted list of its entries. -/
theorem toList_eq_of_sorted {dict : Dict K V} {entries : List (K × V)}
    (sorted : entries.Pairwise (fun first second => first.1 < second.1))
    (members : ∀ key value, (key, value) ∈ entries ↔ dict[key]? = some value) :
    dict.toList = entries :=
  @eq_of_strictly_sorted _ _ _ Prod.fst _ _ dict.toList_sorted sorted
    (fun entry => (dict.mem_toList entry.1 entry.2).trans (members entry.1 entry.2).symm)

@[simp] theorem toList_empty : (∅ : Dict K V).toList = [] :=
  toList_eq_of_sorted List.Pairwise.nil (by simp)

theorem mem_keys (dict : Dict K V) (key : K) :
    key ∈ dict.keys ↔ ∃ value, dict[key]? = some value := by
  rw [Std.ExtTreeMap.mem_keys, mem_iff]

theorem keys_sorted (dict : Dict K V) : dict.keys.Pairwise (· < ·) :=
  Std.ExtTreeMap.ordered_keys.imp (fun below => compare_lt_iff_lt.mp below)

theorem keys_nodup (dict : Dict K V) : dict.keys.Nodup :=
  dict.keys_sorted.imp (fun below same => by
    subst same
    exact lt_irrefl _ below)

/-- Looking up in the dictionary of a strictly sorted list of entries. -/
theorem get_ofList {entries : List (K × V)}
    (sorted : entries.Pairwise (fun first second => first.1 < second.1)) (key : K) (value : V) :
    (Std.ExtTreeMap.ofList entries compare : Dict K V)[key]? = some value ↔
      (key, value) ∈ entries := by
  have distinct : entries.Pairwise (fun first second => ¬compare first.1 second.1 = .eq) :=
    sorted.imp (fun below same => ne_of_lt below (compare_eq_iff_eq.mp same))
  have found : ∀ v : V, (key, v) ∈ entries →
      (Std.ExtTreeMap.ofList entries compare : Dict K V)[key]? = some v := by
    intro v member
    exact Std.ExtTreeMap.getElem?_ofList_of_mem (compare_eq_iff_eq.mpr rfl) distinct member
  constructor
  · intro present
    have contained : key ∈ (Std.ExtTreeMap.ofList entries compare : Dict K V) :=
      (mem_iff _ key).mpr ⟨value, present⟩
    rw [Std.ExtTreeMap.mem_ofList, List.contains_iff_mem] at contained
    obtain ⟨entry, member, same⟩ := List.mem_map.mp contained
    subst same
    rw [found entry.2 member] at present
    injection present with present
    subst present
    exact member
  · exact found value

theorem toList_ofList {entries : List (K × V)}
    (sorted : entries.Pairwise (fun first second => first.1 < second.1)) :
    (Std.ExtTreeMap.ofList entries compare : Dict K V).toList = entries :=
  toList_eq_of_sorted sorted (fun key value => (get_ofList sorted key value).symm)

@[simp] theorem ofList_toList (dict : Dict K V) :
    (Std.ExtTreeMap.ofList dict.toList compare : Dict K V) = dict := by
  apply ext
  intro key
  apply Option.ext
  intro value
  rw [get_ofList dict.toList_sorted, mem_toList]

/-- The values of a dictionary, in key order. -/
def values (dict : Dict K V) : List V := dict.toList.map Prod.snd

theorem mem_values (dict : Dict K V) (value : V) :
    value ∈ Dict.values dict ↔ ∃ key : K, dict[key]? = some value := by
  simp only [values, List.mem_map, Prod.exists, mem_toList, exists_eq_right]

theorem get_map (dict : Dict K V) (f : K → V → W) (key : K) :
    (Std.ExtTreeMap.map f dict)[key]? = dict[key]?.map (f key) :=
  Std.ExtTreeMap.getElem?_map

theorem toList_map (dict : Dict K V) (f : K → V → W) :
    (Std.ExtTreeMap.map f dict).toList =
      dict.toList.map fun entry => (entry.1, f entry.1 entry.2) := by
  apply toList_eq_of_sorted
  · rw [List.pairwise_map]
    exact toList_sorted dict
  · intro key value
    rw [get_map, Option.map_eq_some_iff, List.mem_map]
    constructor
    · intro listed
      rcases listed with ⟨entry, inside, same⟩
      injection same with sameKey sameValue
      subst sameKey sameValue
      exact ⟨entry.2, (mem_toList dict entry.1 entry.2).mp inside, rfl⟩
    · intro bound
      rcases bound with ⟨original, found, same⟩
      subst same
      exact ⟨(key, original), (mem_toList dict key original).mpr found, rfl⟩

theorem values_map (dict : Dict K V) (f : V → W) :
    values (Std.ExtTreeMap.map (fun _ => f) dict) = (values dict).map f := by
  rw [values, values, toList_map, List.map_map, List.map_map]
  rfl

theorem get_filter (dict : Dict K V) (keep : K → V → Bool) (key : K) :
    (Std.ExtTreeMap.filter keep dict)[key]? = dict[key]?.filter (keep key) :=
  Std.ExtTreeMap.getElem?_filter'

/-- The dictionary of some items under their own keys; a later item replaces an
earlier one with the same key. -/
def ofItems (key : V → K) (items : List V) : Dict K V :=
  items.foldl (fun dict item => dict.insert (key item) item) ∅

private theorem get_foldl_insert (key : V → K) (items : List V) (dict : Dict K V) (wanted : K)
    (distinct : items.Pairwise (fun a b => key a ≠ key b)) (value : V) :
    (items.foldl (fun dict item => dict.insert (key item) item) dict)[wanted]? = some value ↔
      (value ∈ items ∧ key value = wanted) ∨
        ((∀ item ∈ items, key item ≠ wanted) ∧ dict[wanted]? = some value) := by
  induction items generalizing dict with
  | nil => simp
  | cons head tail inductionHypothesis =>
      have headDistinct := (List.pairwise_cons.mp distinct).1
      rw [List.foldl_cons, inductionHypothesis _ (List.pairwise_cons.mp distinct).2, get_insert]
      by_cases same : key head = wanted
      · subst same
        simp only [if_true, Option.some.injEq, List.mem_cons, ne_eq, forall_eq_or_imp,
          not_true_eq_false, false_and, or_false]
        constructor
        · rintro (⟨member, keyed⟩ | ⟨_, equal⟩)
          · exact ⟨Or.inr member, keyed⟩
          · subst equal
            exact ⟨Or.inl rfl, rfl⟩
        · rintro ⟨equal | member, keyed⟩
          · subst equal
            exact Or.inr ⟨fun item member => (headDistinct item member).symm, rfl⟩
          · exact absurd keyed.symm (headDistinct value member)
      · simp only [List.mem_cons, ne_eq, forall_eq_or_imp, same, not_false_eq_true,
          true_and]
        constructor
        · rintro (⟨member, keyed⟩ | old)
          · exact Or.inl ⟨Or.inr member, keyed⟩
          · exact Or.inr old
        · rintro (⟨equal | member, keyed⟩ | old)
          · subst equal
            exact absurd keyed same
          · exact Or.inl ⟨member, keyed⟩
          · exact Or.inr old

/-- Items that are replaced under the same keys. -/
theorem map_ofItems (key : V → K) (f : V → V) (keeps : ∀ item, key (f item) = key item)
    (items : List V) :
    Std.ExtTreeMap.map (fun _ => f) (ofItems key items) = ofItems key (items.map f) := by
  have general : ∀ (items : List V) (start : Dict K V),
      Std.ExtTreeMap.map (fun _ => f)
          (items.foldl (fun dict item => dict.insert (key item) item) start) =
        (items.map f).foldl (fun dict item => dict.insert (key item) item)
          (Std.ExtTreeMap.map (fun _ => f) start) := by
    intro items
    induction items with
    | nil =>
        intro start
        rfl
    | cons head tail inductionHypothesis =>
        intro start
        have entered : Std.ExtTreeMap.map (fun _ => f) (start.insert (key head) head) =
            (Std.ExtTreeMap.map (fun _ => f) start : Dict K V).insert (key (f head))
              (f head) := by
          apply ext
          intro wanted
          rw [get_map, get_insert, get_insert, get_map, keeps]
          by_cases here : key head = wanted
          · rw [if_pos here, if_pos here, Option.map_some]
          · rw [if_neg here, if_neg here]
        rw [List.foldl_cons, inductionHypothesis, entered, List.map_cons, List.foldl_cons]
  have empty : Std.ExtTreeMap.map (fun _ => f) (∅ : Dict K V) = ∅ := by
    apply ext
    intro wanted
    rw [get_map]
    simp
  rw [ofItems, general, empty, ofItems]

/-- Looking up in the dictionary of items with pairwise distinct keys. -/
theorem get_ofItems (key : V → K) (items : List V)
    (distinct : items.Pairwise (fun a b => key a ≠ key b)) (wanted : K) (value : V) :
    (ofItems key items)[wanted]? = some value ↔ value ∈ items ∧ key value = wanted := by
  rw [ofItems, get_foldl_insert key items ∅ wanted distinct]
  simp

end Dict

/-! ## Reverse indexes: dictionaries of sets -/

/-- Add one element to the set stored under a key. -/
def addTo {K : Type u} {V : Type v} [LinearOrder K] [LinearOrder V]
    (dict : Dict K (PySet V)) (key : K) (value : V) : Dict K (PySet V) :=
  dict.insert key ((dict[key]?.getD ∅).insert value)

section Sets

variable {K : Type u} {V : Type v} [LinearOrder K] [LinearOrder V]

theorem PySet.mem_insert (set : PySet V) (value other : V) :
    other ∈ set.insert value ↔ value = other ∨ other ∈ set := by
  rw [Std.ExtTreeSet.mem_insert, compare_eq_iff_eq]

theorem PySet.mem_erase (set : PySet V) (value other : V) :
    other ∈ set.erase value ↔ value ≠ other ∧ other ∈ set := by
  rw [Std.ExtTreeSet.mem_erase, ne_eq, ne_eq, compare_eq_iff_eq]

theorem PySet.mem_toList (set : PySet V) (value : V) : value ∈ set.toList ↔ value ∈ set :=
  Std.ExtTreeSet.mem_toList

theorem PySet.toList_sorted (set : PySet V) : set.toList.Pairwise (· < ·) :=
  Std.ExtTreeSet.ordered_toList.imp (fun below => compare_lt_iff_lt.mp below)

theorem PySet.mem_ofList (items : List V) (value : V) :
    value ∈ (Std.ExtTreeSet.ofList items compare : PySet V) ↔ value ∈ items := by
  rw [Std.ExtTreeSet.mem_ofList]
  simp

theorem PySet.ext {first second : PySet V} (members : ∀ value, value ∈ first ↔ value ∈ second) :
    first = second :=
  Std.ExtTreeSet.ext_mem members

@[simp] theorem PySet.not_mem_empty (value : V) : value ∉ (∅ : PySet V) :=
  Std.ExtTreeSet.not_mem_empty

/-- Insert several elements. -/
theorem PySet.mem_foldl_insert {items : List V} {set : PySet V} {value : V} :
    value ∈ items.foldl (fun set item => set.insert item) set ↔ value ∈ set ∨ value ∈ items := by
  induction items generalizing set with
  | nil => simp
  | cons head tail inductionHypothesis =>
      rw [List.foldl_cons, inductionHypothesis, PySet.mem_insert, List.mem_cons]
      constructor
      · rintro ((same | member) | later)
        · exact Or.inr (Or.inl same.symm)
        · exact Or.inl member
        · exact Or.inr (Or.inr later)
      · rintro (member | same | later)
        · exact Or.inl (Or.inr member)
        · exact Or.inl (Or.inl same.symm)
        · exact Or.inr later

/-- `sorted(set(keys))`. -/
def sortedSet {K : Type} [LinearOrder K] (keys : List K) : List K :=
  (Std.ExtTreeSet.ofList keys compare : PySet K).toList

@[simp] theorem mem_sortedSet {K : Type} [LinearOrder K] {keys : List K} {key : K} :
    key ∈ sortedSet keys ↔ key ∈ keys := by
  rw [sortedSet, PySet.mem_toList, PySet.mem_ofList]

theorem sortedSet_sorted {K : Type} [LinearOrder K] (keys : List K) :
    (sortedSet keys).Pairwise (· < ·) :=
  PySet.toList_sorted _

/-- A sorted set is its own. -/
theorem sortedSet_eq {K : Type} [LinearOrder K] {keys sorted : List K}
    (pairwise : sorted.Pairwise (· < ·)) (members : ∀ key, key ∈ sorted ↔ key ∈ keys) :
    sortedSet keys = sorted :=
  @eq_of_strictly_sorted _ _ _ id _ _ (sortedSet_sorted keys) pairwise
    (fun key => mem_sortedSet.trans (members key).symm)

/-- `dict` lists, under every key that has some, exactly the elements related to
that key. -/
structure Indexes (dict : Dict K (PySet V)) (related : K → V → Prop) : Prop where
  nonempty : ∀ (key : K) (set : PySet V), dict[key]? = some set → ∃ value, value ∈ set
  exact : ∀ (key : K) (value : V), (∃ set, dict[key]? = some set ∧ value ∈ set) ↔ related key value

namespace Indexes

theorem empty : Indexes (∅ : Dict K (PySet V)) (fun _ _ => False) where
  nonempty := by
    intro key set found
    simp at found
  exact := by simp

theorem addTo {dict : Dict K (PySet V)} {related : K → V → Prop} (indexed : Indexes dict related)
    (key : K) (value : V) :
    Indexes (addTo dict key value) (fun k v => related k v ∨ (k = key ∧ v = value)) where
  nonempty := by
    intro wanted set found
    rw [Foundation.addTo, Dict.get_insert] at found
    split at found
    case isTrue same =>
      injection found with found
      subst found
      exact ⟨value, (PySet.mem_insert _ _ _).mpr (Or.inl rfl)⟩
    case isFalse => exact indexed.nonempty wanted set found
  exact := by
    intro wanted other
    rw [Foundation.addTo, Dict.get_insert, ← indexed.exact wanted other]
    by_cases same : key = wanted
    · subst same
      simp only [if_true, Option.some.injEq, exists_eq_left', PySet.mem_insert, true_and]
      cases found : dict[key]? with
      | none => simp [eq_comm]
      | some set => simp [eq_comm, or_comm]
    · simp only [if_neg same, Ne.symm same, false_and, or_false]

theorem congr {dict : Dict K (PySet V)} {related other : K → V → Prop}
    (indexed : Indexes dict related) (same : ∀ key value, related key value ↔ other key value) :
    Indexes dict other where
  nonempty := indexed.nonempty
  exact := fun key value => (indexed.exact key value).trans (same key value)

/-- A membership read through a missing key falls back on the empty set. -/
theorem mem_getD {dict : Dict K (PySet V)} {related : K → V → Prop}
    (indexed : Indexes dict related) (key : K) (value : V) :
    value ∈ dict[key]?.getD ∅ ↔ related key value := by
  rw [← indexed.exact key value]
  cases dict[key]? with
  | none => simp
  | some set => simp

end Indexes

end Sets

/-- `dict` lists, under every key that has some, exactly the related records,
strictly sorted by `order`. -/
structure SortedGroups {K : Type u} {V : Type v} {B : Type w} [LinearOrder K] [LinearOrder B]
    (order : V → B) (dict : Dict K (List V)) (related : K → V → Prop) : Prop where
  nonempty : ∀ (key : K) (items : List V), dict[key]? = some items → items ≠ []
  sorted : ∀ (key : K) (items : List V), dict[key]? = some items →
    items.Pairwise (fun first second => order first < order second)
  exact : ∀ (key : K) (value : V),
    (∃ items, dict[key]? = some items ∧ value ∈ items) ↔ related key value

namespace SortedGroups

variable {K : Type u} {V : Type v} {B : Type w} [LinearOrder K] [LinearOrder B]
variable {order : V → B} {dict other : Dict K (List V)} {related : K → V → Prop}

theorem mem_getD (grouped : SortedGroups order dict related) (key : K) (value : V) :
    value ∈ dict[key]?.getD [] ↔ related key value := by
  rw [← grouped.exact key value]
  cases dict[key]? with
  | none => simp
  | some items => simp

theorem getD_sorted (grouped : SortedGroups order dict related) (key : K) :
    (dict[key]?.getD []).Pairwise (fun first second => order first < order second) := by
  cases found : dict[key]? with
  | none => exact List.Pairwise.nil
  | some items => exact grouped.sorted key items found

theorem isSome_iff (grouped : SortedGroups order dict related) (key : K) :
    key ∈ dict ↔ ∃ value, related key value := by
  rw [Dict.mem_iff]
  constructor
  · rintro ⟨items, found⟩
    obtain ⟨value, member⟩ := List.exists_mem_of_ne_nil items (grouped.nonempty key items found)
    exact ⟨value, (grouped.exact key value).mp ⟨items, found, member⟩⟩
  · rintro ⟨value, holds⟩
    obtain ⟨items, found, _⟩ := (grouped.exact key value).mpr holds
    exact ⟨items, found⟩

theorem congr {fresh : K → V → Prop} (grouped : SortedGroups order dict related)
    (same : ∀ key value, related key value ↔ fresh key value) :
    SortedGroups order dict fresh where
  nonempty := grouped.nonempty
  sorted := grouped.sorted
  exact := fun key value => (grouped.exact key value).trans (same key value)

/-- Grouped, sorted records are determined by the relation they list. -/
theorem unique (first : SortedGroups order dict related)
    (second : SortedGroups order other related) : dict = other := by
  apply Dict.ext
  intro key
  cases leftFound : dict[key]? with
  | none =>
      cases rightFound : other[key]? with
      | none => rfl
      | some items =>
          obtain ⟨value, holds⟩ := (second.isSome_iff key).mp
            ((Dict.mem_iff other key).mpr ⟨items, rightFound⟩)
          obtain ⟨found, leftSome⟩ := (Dict.mem_iff dict key).mp
            ((first.isSome_iff key).mpr ⟨value, holds⟩)
          rw [leftFound] at leftSome
          cases leftSome
  | some items =>
      obtain ⟨value, holds⟩ := (first.isSome_iff key).mp
        ((Dict.mem_iff dict key).mpr ⟨items, leftFound⟩)
      obtain ⟨found, rightFound⟩ := (Dict.mem_iff other key).mp
        ((second.isSome_iff key).mpr ⟨value, holds⟩)
      rw [rightFound]
      congr 1
      apply eq_of_strictly_sorted (first.sorted key items leftFound)
        (second.sorted key found rightFound)
      intro record
      have left := first.mem_getD key record
      have right := second.mem_getD key record
      rw [leftFound] at left
      rw [rightFound] at right
      exact left.trans right.symm

end SortedGroups

end Foundation
