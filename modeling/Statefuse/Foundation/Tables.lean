import Statefuse.Foundation.Dict

/-!
# Tables of records

The shapes of table, each with the relation it lists: any dictionary (`Maps`),
records under their own key (`Lists`) and what is computed from them (`Projects`),
groups of records in some order (`Groups`), reverse indexes (`Indexes`, of the module
on dictionaries) and sets that may be empty (`SetTable`).  A table is determined by its
relation once its groups are sorted, so two programs that fill a table in different
orders agree as soon as each is shown to list the same relation.

Every operation below extends a table by one record, and its lemma says which
relation the result lists.
-/

namespace Foundation

universe u v w

/-- `dict` binds exactly the related values. -/
def Maps {K : Type u} {V : Type v} [LinearOrder K] (dict : Dict K V)
    (related : K → V → Prop) : Prop :=
  ∀ (key : K) (value : V), dict[key]? = some value ↔ related key value

namespace Maps

variable {K : Type u} {V : Type v} [LinearOrder K]
variable {dict other : Dict K V} {related fresh : K → V → Prop}

theorem empty : Maps (∅ : Dict K V) (fun _ _ => False) := by
  intro key value
  simp

theorem congr (maps : Maps dict related) (same : ∀ key value, related key value ↔ fresh key value) :
    Maps dict fresh :=
  fun key value => (maps key value).trans (same key value)

theorem unique (first : Maps dict related) (second : Maps other related) : dict = other := by
  apply Dict.ext
  intro key
  apply Option.ext
  intro value
  rw [first key value, second key value]

theorem get_none (maps : Maps dict related) {key : K} :
    dict[key]? = none ↔ ∀ value, ¬related key value := by
  rw [Option.eq_none_iff_forall_ne_some]
  exact forall_congr' fun value => not_congr (maps key value)

/-- Bind a key that may be bound to the same value already. -/
theorem insert (maps : Maps dict related) (key : K) (value : V)
    (same : ∀ other, related key other → other = value) :
    Maps (dict.insert key value) (fun k v => related k v ∨ (k = key ∧ v = value)) := by
  intro wanted other
  rw [Dict.get_insert]
  by_cases here : key = wanted
  · subst here
    rw [if_pos rfl, Option.some.injEq]
    constructor
    · intro equal
      exact Or.inr ⟨rfl, equal.symm⟩
    · rintro (bound | ⟨_, equal⟩)
      · exact (same other bound).symm
      · exact equal.symm
  · rw [if_neg here, maps wanted other]
    constructor
    · exact Or.inl
    · rintro (bound | ⟨equal, _⟩)
      · exact bound
      · exact absurd equal.symm here

theorem erase (maps : Maps dict related) (key : K) :
    Maps (dict.erase key) (fun k v => related k v ∧ k ≠ key) := by
  intro wanted other
  rw [Dict.get_erase]
  by_cases here : key = wanted
  · subst here
    simp
  · rw [if_neg here, maps wanted other]
    simp [Ne.symm here]

theorem eraseAll {A : Type w} (maps : Maps dict related) (key : A → K) (items : List A) :
    Maps (items.foldl (fun dict item => dict.erase (key item)) dict)
      (fun k v => related k v ∧ ∀ item ∈ items, k ≠ key item) := by
  induction items generalizing dict related with
  | nil => exact maps.congr (by simp)
  | cons head tail inductionHypothesis =>
      refine (inductionHypothesis (maps.erase (key head))).congr ?_
      intro k v
      simp only [List.forall_mem_cons, and_assoc]

end Maps

/-! ## Records under their own key -/

/-- `dict` holds exactly the members, each under its own key. -/
def Lists {K : Type u} {V : Type v} [LinearOrder K] (dict : Dict K V) (key : V → K)
    (member : V → Prop) : Prop :=
  ∀ (wanted : K) (record : V), dict[wanted]? = some record ↔ member record ∧ key record = wanted

namespace Lists

variable {K : Type u} {V : Type v} [LinearOrder K] {key : V → K}
variable {dict other : Dict K V} {member fresh : V → Prop}

theorem empty : Lists (∅ : Dict K V) key (fun _ => False) := by
  intro wanted record
  simp

theorem congr (lists : Lists dict key member) (same : ∀ record, member record ↔ fresh record) :
    Lists dict key fresh := by
  intro wanted record
  rw [lists wanted record, same record]

theorem unique (first : Lists dict key member) (second : Lists other key member) :
    dict = other := by
  apply Dict.ext
  intro wanted
  apply Option.ext
  intro record
  rw [first wanted record, second wanted record]

theorem get_key (lists : Lists dict key member) {record : V} (listed : member record) :
    dict[key record]? = some record :=
  (lists (key record) record).mpr ⟨listed, rfl⟩

/-- Members with one key are one member. -/
theorem eq_of_key (lists : Lists dict key member) {first second : V} (firstMember : member first)
    (secondMember : member second) (same : key first = key second) : first = second := by
  have found := lists.get_key firstMember
  rw [same, lists.get_key secondMember] at found
  injection found with found
  exact found.symm

theorem get_none (lists : Lists dict key member) {wanted : K} :
    dict[wanted]? = none ↔ ∀ record, member record → key record ≠ wanted := by
  constructor
  · intro absent record listed same
    rw [← same, lists.get_key listed] at absent
    cases absent
  · intro absent
    cases found : dict[wanted]? with
    | none => rfl
    | some record =>
        obtain ⟨listed, same⟩ := (lists wanted record).mp found
        exact absurd same (absent record listed)

theorem mem_values (lists : Lists dict key member) (record : V) :
    record ∈ Dict.values dict ↔ member record := by
  rw [Dict.mem_values]
  constructor
  · rintro ⟨wanted, found⟩
    exact ((lists wanted record).mp found).1
  · intro listed
    exact ⟨key record, lists.get_key listed⟩

theorem insert (lists : Lists dict key member) (record : V)
    (distinct : ∀ other, member other → key other = key record → other = record) :
    Lists (dict.insert (key record) record) key
      (fun other => member other ∨ other = record) := by
  intro wanted other
  rw [Dict.get_insert]
  by_cases same : key record = wanted
  · subst same
    rw [if_pos rfl, Option.some.injEq]
    constructor
    · intro equal
      subst equal
      exact ⟨Or.inr rfl, rfl⟩
    · rintro ⟨listed | equal, keyed⟩
      · exact (distinct other listed keyed).symm
      · exact equal.symm
  · rw [if_neg same, lists wanted other]
    constructor
    · rintro ⟨listed, keyed⟩
      exact ⟨Or.inl listed, keyed⟩
    · rintro ⟨listed | equal, keyed⟩
      · exact ⟨listed, keyed⟩
      · subst equal
        exact absurd keyed same

theorem erase (lists : Lists dict key member) (wanted : K) :
    Lists (dict.erase wanted) key (fun record => member record ∧ key record ≠ wanted) := by
  intro place record
  rw [Dict.get_erase]
  by_cases here : wanted = place
  · subst here
    simp
  · rw [if_neg here, lists place record]
    constructor
    · rintro ⟨listed, same⟩
      exact ⟨⟨listed, fun equal => here (equal.symm.trans same)⟩, same⟩
    · rintro ⟨⟨listed, _⟩, same⟩
      exact ⟨listed, same⟩

/-- The listing of a table has every member once. -/
theorem values_distinct (lists : Lists dict key member) :
    (Dict.values dict).Pairwise (fun first second => key first < key second) := by
  refine List.pairwise_map.mpr (dict.toList_sorted.imp_of_mem ?_)
  intro first second firstMember secondMember below
  have firstKey := ((lists _ _).mp ((Dict.mem_toList dict first.1 first.2).mp firstMember)).2
  have secondKey := ((lists _ _).mp ((Dict.mem_toList dict second.1 second.2).mp secondMember)).2
  rw [firstKey, secondKey]
  exact below

theorem ofItems {items : List V} (distinct : items.Pairwise (fun a b => key a ≠ key b)) :
    Lists (Dict.ofItems key items) key (· ∈ items) :=
  fun wanted record => Dict.get_ofItems key items distinct wanted record

/-- Repeated items do no harm when a key stands for one item. -/
theorem ofItems_of_injective {items : List V}
    (injective : ∀ first ∈ items, ∀ second ∈ items, key first = key second → first = second) :
    Lists (Dict.ofItems key items) key (· ∈ items) := by
  induction items using List.reverseRecOn with
  | nil => exact empty.congr (by simp)
  | append_singleton init last inductionHypothesis =>
      have earlier := inductionHypothesis (fun first firstMember second secondMember =>
        injective first (List.mem_append_left _ firstMember) second
          (List.mem_append_left _ secondMember))
      rw [Dict.ofItems, List.foldl_append]
      refine (earlier.insert last ?_).congr (by simp)
      intro other member same
      exact injective other (List.mem_append_left _ member) last (by simp) same

end Lists

/-- `dict` holds under the key of each member what is computed from it. -/
def Projects {K : Type u} {V : Type v} {W : Type w} [LinearOrder K] (dict : Dict K W)
    (key : V → K) (member : V → Prop) (computed : V → W → Prop) : Prop :=
  Maps dict (fun wanted value => ∃ record, member record ∧ key record = wanted ∧
    computed record value)

namespace Projects

variable {K : Type u} {V : Type v} {W : Type w} [LinearOrder K] {key : V → K}
variable {dict : Dict K W} {member fresh : V → Prop} {computed : V → W → Prop}

theorem empty : Projects (∅ : Dict K W) key (fun _ => False) computed :=
  Maps.empty.congr (by simp)

theorem congr (projects : Projects dict key member computed)
    (same : ∀ record, member record ↔ fresh record) : Projects dict key fresh computed :=
  Maps.congr projects (fun _ _ => exists_congr fun record => and_congr_left' (same record))

/-- Mapping a table computes from every record. -/
theorem map {table : Dict K V} (lists : Lists table key member) (f : V → W) :
    Projects (Std.ExtTreeMap.map (fun _ record => f record) table) key member
      (fun record value => f record = value) := by
  intro wanted value
  rw [Dict.get_map, Option.map_eq_some_iff]
  constructor
  · rintro ⟨record, found, same⟩
    obtain ⟨listed, keyed⟩ := (lists wanted record).mp found
    exact ⟨record, listed, keyed, same⟩
  · rintro ⟨record, listed, keyed, same⟩
    exact ⟨record, (lists wanted record).mpr ⟨listed, keyed⟩, same⟩

theorem insert (projects : Projects dict key member computed) (record : V) (value : W)
    (holds : computed record value) (functional : ∀ other, computed record other → other = value)
    (distinct : ∀ other, member other → key other = key record → other = record) :
    Projects (dict.insert (key record) value) key (fun other => member other ∨ other = record)
      computed := by
  have extended := Maps.insert projects (key record) value (by
    rintro other ⟨owner, listed, keyed, owns⟩
    rw [distinct owner listed keyed] at owns
    exact functional other owns)
  refine extended.congr ?_
  intro wanted other
  constructor
  · rintro (⟨owner, listed, keyed, owns⟩ | ⟨same, equal⟩)
    · exact ⟨owner, Or.inl listed, keyed, owns⟩
    · subst same
      subst equal
      exact ⟨record, Or.inr rfl, rfl, holds⟩
  · rintro ⟨owner, listed | same, keyed, owns⟩
    · exact Or.inl ⟨owner, listed, keyed, owns⟩
    · subst same
      exact Or.inr ⟨keyed.symm, functional other owns⟩

theorem erase (projects : Projects dict key member computed) (wanted : K) :
    Projects (dict.erase wanted) key (fun record => member record ∧ key record ≠ wanted)
      computed := by
  refine (Maps.erase projects wanted).congr ?_
  intro place value
  constructor
  · rintro ⟨⟨record, listed, keyed, owns⟩, different⟩
    exact ⟨record, ⟨listed, fun same => different (keyed.symm.trans same)⟩, keyed, owns⟩
  · rintro ⟨record, ⟨listed, different⟩, keyed, owns⟩
    exact ⟨⟨record, listed, keyed, owns⟩, fun same => different (keyed.trans same)⟩

end Projects

/-- Every record is under its own key. -/
def Keyed {K : Type u} {V : Type v} [LinearOrder K] (dict : Dict K V) (key : V → K) : Prop :=
  ∀ (wanted : K) (record : V), dict[wanted]? = some record → key record = wanted

namespace Keyed

variable {K : Type u} {V : Type v} [LinearOrder K] {dict : Dict K V} {key : V → K}

theorem empty : Keyed (∅ : Dict K V) key := by
  intro wanted record found
  rw [Dict.get_empty] at found
  cases found

theorem insert (keyed : Keyed dict key) (fresh : V) :
    Keyed (dict.insert (key fresh) fresh) key := by
  intro wanted record found
  rw [Dict.get_insert] at found
  by_cases same : key fresh = wanted
  · rw [if_pos same, Option.some.injEq] at found
    rw [← found]
    exact same
  · rw [if_neg same] at found
    exact keyed wanted record found

/-- A table whose records are under their own keys lists its values. -/
theorem lists (keyed : Keyed dict key) : Lists dict key (· ∈ Dict.values dict) := by
  intro wanted record
  constructor
  · intro found
    exact ⟨(Dict.mem_values dict record).mpr ⟨wanted, found⟩, keyed wanted record found⟩
  · rintro ⟨listed, same⟩
    obtain ⟨place, found⟩ := (Dict.mem_values dict record).mp listed
    rw [← same, keyed place record found]
    exact found

end Keyed

/-! ## Groups of records -/

section Groups

variable {K : Type u} {V : Type v} {B : Type w} [LinearOrder K]

/-- Add a record at the end of a group. -/
def appendTo (dict : Dict K (List V)) (key : K) (record : V) : Dict K (List V) :=
  dict.insert key (dict[key]?.getD [] ++ [record])

/-- The lists of the items with one key, under that key. -/
def groupBy (key : V → K) (items : List V) : Dict K (List V) :=
  items.foldl (fun groups item => appendTo groups (key item) item) ∅

/-- Sort every group. -/
def sortGroups [LinearOrder B] (order : V → B) (groups : Dict K (List V)) : Dict K (List V) :=
  groups.map fun _ items => sortBy order items

/-- Add a record to a sorted group. -/
def insertSorted [LinearOrder B] (order : V → B) (dict : Dict K (List V)) (key : K) (record : V) :
    Dict K (List V) :=
  dict.insert key (sortBy order (dict[key]?.getD [] ++ [record]))

/-- Sorting a list whose records are told apart by the order. -/
theorem sortBy_strict [LinearOrder B] {order : V → B} {items : List V}
    (distinct : items.Pairwise (fun first second => order first ≠ order second)) :
    (sortBy order items).Pairwise (fun first second => order first < order second) := by
  have different : (sortBy order items).Pairwise (fun a b => order a ≠ order b) :=
    (sortBy_perm order items).symm.pairwise distinct (fun apart => apart.symm)
  exact ((sortBy_pairwise order items).and different).imp
    (fun both => lt_of_le_of_ne both.1 both.2)

/-- `dict` lists, under every key that has some, exactly the related records, told
apart by `order`. -/
structure Groups (order : V → B) (dict : Dict K (List V)) (related : K → V → Prop) : Prop where
  nonempty : ∀ (key : K) (items : List V), dict[key]? = some items → items ≠ []
  distinct : ∀ (key : K) (items : List V), dict[key]? = some items →
    items.Pairwise (fun first second => order first ≠ order second)
  exact : ∀ (key : K) (record : V),
    (∃ items, dict[key]? = some items ∧ record ∈ items) ↔ related key record

/-- Lists under a key, once the record under it and the keys are told apart. -/
theorem exact_insert {dict : Dict K (List V)} {related : K → V → Prop}
    (exact : ∀ (key : K) (record : V),
      (∃ items, dict[key]? = some items ∧ record ∈ items) ↔ related key record)
    (key : K) (record : V) (items : List V)
    (members : ∀ other, other ∈ items ↔ other ∈ dict[key]?.getD [] ∨ other = record)
    (wanted : K) (other : V) :
    (∃ found, (dict.insert key items)[wanted]? = some found ∧ other ∈ found) ↔
      related wanted other ∨ (wanted = key ∧ other = record) := by
  rw [Dict.get_insert, ← exact wanted other]
  by_cases same : key = wanted
  · subst same
    simp only [if_true, Option.some.injEq, exists_eq_left', members, true_and]
    cases found : dict[key]? with
    | none => simp
    | some old => simp
  · simp only [if_neg same, Ne.symm same, false_and, or_false]

namespace Groups

variable {order : V → B} {dict : Dict K (List V)} {related fresh : K → V → Prop}

theorem empty : Groups order (∅ : Dict K (List V)) (fun _ _ => False) where
  nonempty := by
    intro key items found
    simp at found
  distinct := by
    intro key items found
    simp at found
  exact := by simp

theorem congr (grouped : Groups order dict related)
    (same : ∀ key record, related key record ↔ fresh key record) : Groups order dict fresh where
  nonempty := grouped.nonempty
  distinct := grouped.distinct
  exact := fun key record => (grouped.exact key record).trans (same key record)

theorem mem_getD (grouped : Groups order dict related) (key : K) (record : V) :
    record ∈ dict[key]?.getD [] ↔ related key record := by
  rw [← grouped.exact key record]
  cases dict[key]? with
  | none => simp
  | some items => simp

theorem appendTo (grouped : Groups order dict related) (key : K) (record : V)
    (new : ∀ other, related key other → order other ≠ order record) :
    Groups order (appendTo dict key record)
      (fun k other => related k other ∨ (k = key ∧ other = record)) where
  nonempty := by
    intro wanted items found
    rw [Foundation.appendTo, Dict.get_insert] at found
    split at found
    · injection found with found
      subst found
      simp
    · exact grouped.nonempty wanted items found
  distinct := by
    intro wanted items found
    rw [Foundation.appendTo, Dict.get_insert] at found
    split at found
    · injection found with found
      subst found
      refine List.pairwise_append.mpr ⟨?_, List.pairwise_singleton _ _, ?_⟩
      · cases old : dict[key]? with
        | none => exact List.Pairwise.nil
        | some items => exact grouped.distinct key items old
      · intro first firstMember second secondMember
        rw [List.mem_singleton.mp secondMember]
        exact new first ((grouped.mem_getD key first).mp firstMember)
    · exact grouped.distinct wanted items found
  exact := exact_insert grouped.exact key record _ (by simp)

theorem sortGroups [LinearOrder B] (grouped : Groups order dict related) :
    SortedGroups order (sortGroups order dict) related where
  nonempty := by
    intro key items found
    rw [Foundation.sortGroups, Dict.get_map] at found
    obtain ⟨old, present, same⟩ := Option.map_eq_some_iff.mp found
    subst same
    intro empty
    exact grouped.nonempty key old present (sortBy_eq_nil.mp empty)
  sorted := by
    intro key items found
    rw [Foundation.sortGroups, Dict.get_map] at found
    obtain ⟨old, present, same⟩ := Option.map_eq_some_iff.mp found
    subst same
    exact sortBy_strict (grouped.distinct key old present)
  exact := by
    intro key record
    rw [← grouped.exact key record, Foundation.sortGroups, Dict.get_map]
    cases dict[key]? with
    | none => simp
    | some items => simp

end Groups

/-- The groups of items that are told apart by `order`. -/
theorem groups_groupBy {order : V → B} (key : V → K) {items : List V}
    (distinct : items.Pairwise (fun first second => order first ≠ order second)) :
    Groups order (groupBy key items) (fun k record => record ∈ items ∧ key record = k) := by
  have general : ∀ (rest : List V) (dict : Dict K (List V)) (related : K → V → Prop),
      Groups order dict related → rest.Pairwise (fun a b => order a ≠ order b) →
      (∀ k other, related k other → ∀ item ∈ rest, order other ≠ order item) →
      Groups order (rest.foldl (fun groups item => appendTo groups (key item) item) dict)
        (fun k record => related k record ∨ (record ∈ rest ∧ key record = k)) := by
    intro rest
    induction rest with
    | nil =>
        intro dict related grouped _ _
        exact grouped.congr (by simp)
    | cons head tail inductionHypothesis =>
        intro dict related grouped apart new
        obtain ⟨headApart, tailApart⟩ := List.pairwise_cons.mp apart
        have extended := grouped.appendTo (key head) head
          (fun other holds => new (key head) other holds head List.mem_cons_self)
        refine (inductionHypothesis _ _ extended tailApart ?_).congr ?_
        · rintro k other (holds | ⟨_, same⟩) item member
          · exact new k other holds item (List.mem_cons_of_mem _ member)
          · subst same
            exact headApart item member
        · intro k record
          constructor
          · rintro ((holds | ⟨same, equal⟩) | ⟨member, keyed⟩)
            · exact Or.inl holds
            · subst same
              subst equal
              exact Or.inr ⟨List.mem_cons_self, rfl⟩
            · exact Or.inr ⟨List.mem_cons_of_mem _ member, keyed⟩
          · rintro (holds | ⟨member, keyed⟩)
            · exact Or.inl (Or.inl holds)
            · rcases List.mem_cons.mp member with equal | member
              · subst equal
                exact Or.inl (Or.inr ⟨keyed.symm, rfl⟩)
              · exact Or.inr ⟨member, keyed⟩
  refine (general items ∅ _ Groups.empty distinct (fun _ _ impossible => impossible.elim)).congr ?_
  simp

/-- A group is the items with its key, in their order. -/
theorem getD_groupBy (key : V → K) (items : List V) (wanted : K) :
    (groupBy key items)[wanted]?.getD [] = items.filter (fun item => key item = wanted) := by
  have general : ∀ (rest : List V) (dict : Dict K (List V)),
      (rest.foldl (fun groups item => appendTo groups (key item) item) dict)[wanted]?.getD [] =
        dict[wanted]?.getD [] ++ rest.filter (fun item => key item = wanted) := by
    intro rest
    induction rest with
    | nil => simp
    | cons head tail inductionHypothesis =>
        intro dict
        rw [List.foldl_cons, inductionHypothesis, appendTo, Dict.get_insert]
        by_cases same : key head = wanted
        · simp [same]
        · simp [same]
  rw [groupBy, general]
  simp

theorem mem_groupBy (key : V → K) (items : List V) (wanted : K) (item : V) :
    item ∈ (groupBy key items)[wanted]?.getD [] ↔ item ∈ items ∧ key item = wanted := by
  rw [getD_groupBy, List.mem_filter, decide_eq_true_eq]

namespace SortedGroups

variable [LinearOrder B] {order : V → B} {dict : Dict K (List V)} {related : K → V → Prop}

theorem empty : SortedGroups order (∅ : Dict K (List V)) (fun _ _ => False) where
  nonempty := by
    intro key items found
    simp at found
  sorted := by
    intro key items found
    simp at found
  exact := by simp

private theorem eq_singleton {items : List V} {record : V}
    (sorted : items.Pairwise (fun first second => order first < order second))
    (members : ∀ other, other ∈ items ↔ other = record) : items = [record] := by
  have distinct : items.Nodup := sorted.imp (by
    rintro first second below rfl
    exact lt_irrefl _ below)
  apply List.perm_singleton.mp
  rw [List.perm_ext_iff_of_nodup distinct (List.nodup_singleton record)]
  intro other
  rw [members other, List.mem_singleton]

/-- Groups of single records. -/
theorem maps_single (grouped : SortedGroups order dict related)
    (functional : ∀ (key : K) (first second : V), related key first → related key second →
      first = second) :
    Maps dict (fun key items => ∃ record, related key record ∧ items = [record]) := by
  have all : ∀ (key : K) (items : List V), dict[key]? = some items → ∀ record,
      related key record → items = [record] := by
    intro key items found record holds
    apply eq_singleton (grouped.sorted key items found)
    intro other
    have member := grouped.mem_getD key other
    rw [found, Option.getD_some] at member
    rw [member]
    constructor
    · intro otherHolds
      exact functional key other record otherHolds holds
    · rintro rfl
      exact holds
  intro key items
  constructor
  · intro found
    obtain ⟨record, member⟩ := List.exists_mem_of_ne_nil items (grouped.nonempty key items found)
    have holds := (grouped.exact key record).mp ⟨items, found, member⟩
    exact ⟨record, holds, all key items found record holds⟩
  · rintro ⟨record, holds, single⟩
    obtain ⟨items, found, _⟩ := (grouped.exact key record).mpr holds
    rw [found, all key items found record holds, single]

theorem insertSorted (grouped : SortedGroups order dict related) (key : K) (record : V)
    (new : ∀ other, related key other → order other ≠ order record) :
    SortedGroups order (insertSorted order dict key record)
      (fun k other => related k other ∨ (k = key ∧ other = record)) where
  nonempty := by
    intro wanted items found
    rw [Foundation.insertSorted, Dict.get_insert] at found
    split at found
    · injection found with found
      subst found
      intro empty
      rw [sortBy_eq_nil] at empty
      simp at empty
    · exact grouped.nonempty wanted items found
  sorted := by
    intro wanted items found
    rw [Foundation.insertSorted, Dict.get_insert] at found
    split at found
    · injection found with found
      subst found
      refine sortBy_strict (List.pairwise_append.mpr ⟨?_, List.pairwise_singleton _ _, ?_⟩)
      · cases old : dict[key]? with
        | none => exact List.Pairwise.nil
        | some items => exact (grouped.sorted key items old).imp (fun below => ne_of_lt below)
      · intro first firstMember second secondMember
        rw [List.mem_singleton.mp secondMember]
        exact new first ((grouped.mem_getD key first).mp firstMember)
    · exact grouped.sorted wanted items found
  exact := exact_insert grouped.exact key record _ (by simp)

/-- Sorting every group and dropping the empty ones. -/
theorem tidy (members : ∀ (key : K) (record : V), record ∈ dict[key]?.getD [] ↔ related key record)
    (distinct : ∀ (key : K) (items : List V), dict[key]? = some items →
      items.Pairwise (fun first second => order first ≠ order second)) :
    SortedGroups order
      ((Foundation.sortGroups order dict).filter fun _ items => !items.isEmpty) related where
  nonempty := by
    intro key items found
    rw [Dict.get_filter, Option.filter_eq_some_iff] at found
    intro empty
    rw [empty] at found
    simp at found
  sorted := by
    intro key items found
    rw [Dict.get_filter, Option.filter_eq_some_iff, Foundation.sortGroups, Dict.get_map] at found
    obtain ⟨old, present, same⟩ := Option.map_eq_some_iff.mp found.1
    rw [← same]
    exact sortBy_strict (distinct key old present)
  exact := by
    intro key record
    rw [← members key record, Dict.get_filter, Foundation.sortGroups, Dict.get_map]
    cases dict[key]? with
    | none => simp
    | some items =>
        simp only [Option.map_some, Option.filter_eq_some_iff, Option.some.injEq,
          Option.getD_some]
        constructor
        · rintro ⟨found, ⟨same, _⟩, member⟩
          rw [← same] at member
          exact mem_sortBy.mp member
        · intro member
          refine ⟨_, ⟨rfl, ?_⟩, mem_sortBy.mpr member⟩
          rw [List.isEmpty_eq_false_iff_exists_mem.mpr ⟨record, mem_sortBy.mpr member⟩]
          rfl

end SortedGroups

end Groups

/-! ## Reverse indexes -/

section Indexes

variable {K : Type u} {V : Type v} [LinearOrder K] [LinearOrder V]

/-- Add one element to the sets under several keys. -/
def addUnder (index : Dict K (PySet V)) (keys : List K) (value : V) : Dict K (PySet V) :=
  keys.foldl (fun index key => addTo index key value) index

/-- The reverse index of some items: under every key of an item its value. -/
def reverseIndex {α : Type w} (keys : α → List K) (value : α → V) (items : List α) :
    Dict K (PySet V) :=
  items.foldl (fun index item => addUnder index (keys item) (value item)) ∅

/-- A reverse index with its sets listed in order. -/
def listed (index : Dict K (PySet V)) : Dict K (List V) := index.map fun _ values => values.toList

/-- A reverse index with its lists as sets. -/
def unlisted (index : Dict K (List V)) : Dict K (PySet V) :=
  index.map fun _ values => Std.ExtTreeSet.ofList values compare

namespace Indexes

variable {index : Dict K (PySet V)} {related : K → V → Prop}

theorem addUnder (indexed : Indexes index related) (keys : List K) (value : V) :
    Indexes (addUnder index keys value)
      (fun key other => related key other ∨ (key ∈ keys ∧ other = value)) := by
  induction keys generalizing index related with
  | nil => exact indexed.congr (by simp)
  | cons head tail inductionHypothesis =>
      refine (inductionHypothesis (indexed.addTo head value)).congr ?_
      intro key other
      simp only [List.mem_cons]
      tauto

theorem reverseIndex {α : Type w} (keys : α → List K) (value : α → V) (items : List α) :
    Indexes (reverseIndex keys value items)
      (fun key other => ∃ item ∈ items, key ∈ keys item ∧ other = value item) := by
  have general : ∀ (rest : List α) (index : Dict K (PySet V)) (related : K → V → Prop),
      Indexes index related →
      Indexes (rest.foldl (fun index item => Foundation.addUnder index (keys item) (value item))
        index) (fun key other => related key other ∨
          ∃ item ∈ rest, key ∈ keys item ∧ other = value item) := by
    intro rest
    induction rest with
    | nil =>
        intro index related indexed
        exact indexed.congr (by simp)
    | cons head tail inductionHypothesis =>
        intro index related indexed
        refine (inductionHypothesis _ _ (indexed.addUnder (keys head) (value head))).congr ?_
        intro key other
        simp only [List.mem_cons, exists_eq_or_imp, or_assoc]
  exact (general items ∅ _ Indexes.empty).congr (by simp)

theorem listed (indexed : Indexes index related) : SortedGroups id (listed index) related where
  nonempty := by
    intro key items found
    rw [Foundation.listed, Dict.get_map] at found
    obtain ⟨set, present, same⟩ := Option.map_eq_some_iff.mp found
    subst same
    obtain ⟨value, member⟩ := indexed.nonempty key set present
    exact List.ne_nil_of_mem ((PySet.mem_toList set value).mpr member)
  sorted := by
    intro key items found
    rw [Foundation.listed, Dict.get_map] at found
    obtain ⟨set, present, same⟩ := Option.map_eq_some_iff.mp found
    subst same
    exact PySet.toList_sorted set
  exact := by
    intro key value
    rw [← indexed.exact key value, Foundation.listed, Dict.get_map]
    cases index[key]? with
    | none => simp
    | some set => simp

end Indexes

theorem SortedGroups.unlisted {dict : Dict K (List V)} {related : K → V → Prop}
    (grouped : SortedGroups id dict related) : Indexes (unlisted dict) related where
  nonempty := by
    intro key set found
    rw [Foundation.unlisted, Dict.get_map] at found
    obtain ⟨items, present, same⟩ := Option.map_eq_some_iff.mp found
    subst same
    obtain ⟨value, member⟩ :=
      List.exists_mem_of_ne_nil items (grouped.nonempty key items present)
    exact ⟨value, (PySet.mem_ofList items value).mpr member⟩
  exact := by
    intro key value
    rw [← grouped.exact key value, Foundation.unlisted, Dict.get_map]
    cases dict[key]? with
    | none => simp
    | some items => simp

theorem mem_unlisted_listed {index : Dict K (PySet V)} {key : K} {value : V} :
    value ∈ (unlisted (listed index))[key]?.getD ∅ ↔ value ∈ index[key]?.getD ∅ := by
  rw [unlisted, listed, Dict.get_map, Dict.get_map]
  cases index[key]? with
  | none => rfl
  | some values =>
      rw [Option.map_some, Option.map_some, Option.getD_some, Option.getD_some,
        PySet.mem_ofList, PySet.mem_toList]

end Indexes

/-! ## Sets that may be empty -/

/-- Take one element out of the set of a key, if there is one. -/
def discardFrom {K : Type u} {V : Type v} [LinearOrder K] [LinearOrder V]
    (dict : Dict K (PySet V)) (key : K) (value : V) : Dict K (PySet V) :=
  match dict[key]? with
  | none => dict
  | some set => dict.insert key (set.erase value)

/-- `dict` has a set under exactly the present keys, with exactly the related elements. -/
structure SetTable {K : Type u} {V : Type v} [LinearOrder K] [LinearOrder V]
    (dict : Dict K (PySet V)) (present : K → Prop) (related : K → V → Prop) : Prop where
  present : ∀ key : K, (∃ set, dict[key]? = some set) ↔ present key
  exact : ∀ (key : K) (value : V), value ∈ dict[key]?.getD ∅ ↔ related key value

namespace SetTable

variable {K : Type u} {V : Type v} [LinearOrder K] [LinearOrder V]
variable {dict other : Dict K (PySet V)} {present here : K → Prop} {related fresh : K → V → Prop}

theorem congr (table : SetTable dict present related) (samePresent : ∀ key, present key ↔ here key)
    (same : ∀ key value, related key value ↔ fresh key value) : SetTable dict here fresh where
  present := fun key => (table.present key).trans (samePresent key)
  exact := fun key value => (table.exact key value).trans (same key value)

theorem unique (first : SetTable dict present related) (second : SetTable other present related) :
    dict = other := by
  apply Dict.ext
  intro key
  have members : ∀ value, value ∈ dict[key]?.getD ∅ ↔ value ∈ other[key]?.getD ∅ :=
    fun value => (first.exact key value).trans (second.exact key value).symm
  have bound := (first.present key).trans (second.present key).symm
  cases left : dict[key]? with
  | none =>
      cases right : other[key]? with
      | none => rfl
      | some set =>
          obtain ⟨found, impossible⟩ := bound.mpr ⟨set, right⟩
          rw [left] at impossible
          cases impossible
  | some set =>
      obtain ⟨found, right⟩ := bound.mp ⟨set, left⟩
      simp only [left, right, Option.getD_some] at members
      rw [right, PySet.ext members]

theorem addTo (table : SetTable dict present related) (key : K) (value : V) :
    SetTable (addTo dict key value) (fun k => present k ∨ k = key)
      (fun k v => related k v ∨ (k = key ∧ v = value)) where
  present := by
    intro wanted
    rw [Foundation.addTo, Dict.get_insert, ← table.present wanted]
    by_cases same : key = wanted
    · simp [same]
    · simp [same, Ne.symm same]
  exact := by
    intro wanted other
    rw [Foundation.addTo, Dict.get_insert, ← table.exact wanted other]
    by_cases same : key = wanted
    · subst same
      simp only [if_true, Option.getD_some, PySet.mem_insert, true_and]
      constructor
      · rintro (equal | member)
        · exact Or.inr equal.symm
        · exact Or.inl member
      · rintro (member | equal)
        · exact Or.inr member
        · exact Or.inl equal.symm
    · simp only [if_neg same, Ne.symm same, false_and, or_false]

/-- Give a key the set it has, or an empty one. -/
theorem touch (table : SetTable dict present related) (key : K) :
    SetTable (dict.insert key (dict[key]?.getD ∅)) (fun k => present k ∨ k = key) related where
  present := by
    intro wanted
    rw [Dict.get_insert, ← table.present wanted]
    by_cases same : key = wanted
    · simp [same]
    · simp [same, Ne.symm same]
  exact := by
    intro wanted other
    rw [Dict.get_insert, ← table.exact wanted other]
    by_cases same : key = wanted
    · simp [same]
    · simp [same]

theorem erase (table : SetTable dict present related) (key : K) :
    SetTable (dict.erase key) (fun k => present k ∧ k ≠ key)
      (fun k v => related k v ∧ k ≠ key) where
  present := by
    intro wanted
    rw [Dict.get_erase, ← table.present wanted]
    by_cases same : key = wanted
    · simp [same]
    · simp [same, Ne.symm same]
  exact := by
    intro wanted other
    rw [Dict.get_erase, ← table.exact wanted other]
    by_cases same : key = wanted
    · simp [same]
    · simp [same, Ne.symm same]

theorem discardFrom (table : SetTable dict present related) (key : K) (value : V) :
    SetTable (discardFrom dict key value) present
      (fun k v => related k v ∧ ¬(k = key ∧ v = value)) := by
  unfold Foundation.discardFrom
  cases found : dict[key]? with
  | none =>
      refine table.congr (fun _ => Iff.rfl) ?_
      intro wanted other
      constructor
      · intro holds
        refine ⟨holds, ?_⟩
        rintro ⟨same, _⟩
        subst same
        rw [← table.exact, found] at holds
        simp at holds
      · exact And.left
  | some set =>
      constructor
      · intro wanted
        rw [Dict.get_insert, ← table.present wanted]
        by_cases same : key = wanted
        · subst same
          simp [found]
        · simp [same]
      · intro wanted other
        rw [Dict.get_insert, ← table.exact wanted other]
        by_cases same : key = wanted
        · subst same
          simp only [if_true, Option.getD_some, PySet.mem_erase, found, true_and]
          constructor
          · rintro ⟨different, member⟩
            exact ⟨member, fun equal => different equal.symm⟩
          · rintro ⟨member, different⟩
            exact ⟨fun equal => different equal.symm, member⟩
        · simp [same, Ne.symm same]

theorem discardAll (table : SetTable dict present related) (value : V) (keys : List K) :
    SetTable (keys.foldl (fun dict key => Foundation.discardFrom dict key value) dict) present
      (fun k v => related k v ∧ ¬(k ∈ keys ∧ v = value)) := by
  induction keys generalizing dict related with
  | nil => exact table.congr (fun _ => Iff.rfl) (by simp)
  | cons head tail inductionHypothesis =>
      refine (inductionHypothesis (table.discardFrom head value)).congr (fun _ => Iff.rfl) ?_
      intro k v
      simp only [List.mem_cons]
      tauto

end SetTable

end Foundation
