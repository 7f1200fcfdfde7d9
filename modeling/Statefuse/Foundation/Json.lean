import Statefuse.Foundation.Dict

/-!
# JSON values

The type of numbers is a parameter: a host language compares numbers of several
kinds by their value, so the same tree over another number type serves as the key
under which values are compared (`Json.map`).

An object is a list of members.  The list is free in `Json`; `JsonValue` is the
type of trees whose objects list their members in strictly increasing key order,
so that one object has one representation, and `JsonValue.obj` builds it from a
dictionary.  `JsonValue.induct` is the induction this gives back: an array by its
items, an object by its dictionary.
-/

namespace Foundation

universe u v

/-- A JSON tree over numbers `N`.  Booleans count as numbers, as they do in a
host language where `True == 1`. -/
inductive Json (N : Type u) : Type u where
  | null
  | number (value : N)
  | str (value : String)
  | arr (items : List (Json N))
  | obj (members : List (String × Json N))

namespace Json

variable {N : Type u} {M : Type v}

mutual

private theorem inductTree {motive : Json N → Prop} (null : motive .null)
    (number : ∀ value, motive (.number value)) (str : ∀ value, motive (.str value))
    (arr : ∀ items, (∀ item ∈ items, motive item) → motive (.arr items))
    (obj : ∀ members, (∀ member ∈ members, motive member.2) → motive (.obj members)) :
    ∀ tree : Json N, motive tree
  | .null => null
  | .number value => number value
  | .str value => str value
  | .arr items => arr items (inductItems null number str arr obj items)
  | .obj members => obj members (inductMembers null number str arr obj members)

private theorem inductItems {motive : Json N → Prop} (null : motive .null)
    (number : ∀ value, motive (.number value)) (str : ∀ value, motive (.str value))
    (arr : ∀ items, (∀ item ∈ items, motive item) → motive (.arr items))
    (obj : ∀ members, (∀ member ∈ members, motive member.2) → motive (.obj members)) :
    ∀ items : List (Json N), ∀ item ∈ items, motive item
  | [] => fun _ member => absurd member List.not_mem_nil
  | head :: tail => List.forall_mem_cons.mpr
      ⟨inductTree null number str arr obj head, inductItems null number str arr obj tail⟩

private theorem inductMembers {motive : Json N → Prop} (null : motive .null)
    (number : ∀ value, motive (.number value)) (str : ∀ value, motive (.str value))
    (arr : ∀ items, (∀ item ∈ items, motive item) → motive (.arr items))
    (obj : ∀ members, (∀ member ∈ members, motive member.2) → motive (.obj members)) :
    ∀ members : List (String × Json N), ∀ member ∈ members, motive member.2
  | [] => fun _ member => absurd member List.not_mem_nil
  | (_, head) :: tail => List.forall_mem_cons.mpr
      ⟨inductTree null number str arr obj head, inductMembers null number str arr obj tail⟩

end

/-- Induction over a tree, through the lists inside it. -/
theorem induct {motive : Json N → Prop} (null : motive .null)
    (number : ∀ value, motive (.number value)) (str : ∀ value, motive (.str value))
    (arr : ∀ items, (∀ item ∈ items, motive item) → motive (.arr items))
    (obj : ∀ members, (∀ member ∈ members, motive member.2) → motive (.obj members))
    (tree : Json N) : motive tree :=
  inductTree null number str arr obj tree

section Equality

variable [DecidableEq N]

mutual

/-- Structural comparison of two trees. -/
def same : Json N → Json N → Bool
  | .null, .null => true
  | .number first, .number second => first == second
  | .str first, .str second => first == second
  | .arr first, .arr second => sameItems first second
  | .obj first, .obj second => sameMembers first second
  | _, _ => false

/-- Structural comparison, item by item. -/
def sameItems : List (Json N) → List (Json N) → Bool
  | [], [] => true
  | first :: firsts, second :: seconds => same first second && sameItems firsts seconds
  | _, _ => false

/-- Structural comparison, member by member. -/
def sameMembers : List (String × Json N) → List (String × Json N) → Bool
  | [], [] => true
  | (firstKey, first) :: firsts, (secondKey, second) :: seconds =>
      firstKey == secondKey && same first second && sameMembers firsts seconds
  | _, _ => false

end

private theorem sameItems_iff (items : List (Json N))
    (inductionHypothesis : ∀ item ∈ items, ∀ other, same item other = true ↔ item = other) :
    ∀ others, sameItems items others = true ↔ items = others := by
  induction items with
  | nil =>
      intro others
      cases others <;> simp [sameItems]
  | cons head tail listHypothesis =>
      intro others
      cases others with
      | nil => simp [sameItems]
      | cons other rest =>
          rw [sameItems, Bool.and_eq_true, inductionHypothesis head List.mem_cons_self,
            listHypothesis (fun item member =>
              inductionHypothesis item (List.mem_cons_of_mem _ member)), List.cons.injEq]

private theorem sameMembers_iff (members : List (String × Json N))
    (inductionHypothesis : ∀ member ∈ members, ∀ other,
      same member.2 other = true ↔ member.2 = other) :
    ∀ others, sameMembers members others = true ↔ members = others := by
  induction members with
  | nil =>
      intro others
      cases others <;> simp [sameMembers]
  | cons head tail listHypothesis =>
      intro others
      cases others with
      | nil => simp [sameMembers]
      | cons other rest =>
          rw [sameMembers, Bool.and_eq_true, Bool.and_eq_true, beq_iff_eq,
            inductionHypothesis head List.mem_cons_self,
            listHypothesis (fun member among =>
              inductionHypothesis member (List.mem_cons_of_mem _ among)), List.cons.injEq,
            Prod.ext_iff]

theorem same_iff (first second : Json N) : same first second = true ↔ first = second := by
  induction first using induct generalizing second with
  | null => cases second <;> simp [same]
  | number value => cases second <;> simp [same]
  | str value => cases second <;> simp [same]
  | arr items inductionHypothesis =>
      cases second <;> simp [same, sameItems_iff items inductionHypothesis]
  | obj members inductionHypothesis =>
      cases second <;> simp [same, sameMembers_iff members inductionHypothesis]

instance : DecidableEq (Json N) :=
  fun first second => decidable_of_iff (same first second = true) (same_iff first second)

end Equality

mutual

/-- Replace every number of a tree. -/
def map (f : N → M) : Json N → Json M
  | .null => .null
  | .number value => .number (f value)
  | .str value => .str value
  | .arr items => .arr (mapItems f items)
  | .obj members => .obj (mapMembers f members)

/-- Replace every number of the items. -/
def mapItems (f : N → M) : List (Json N) → List (Json M)
  | [] => []
  | head :: tail => map f head :: mapItems f tail

/-- Replace every number of the member values. -/
def mapMembers (f : N → M) : List (String × Json N) → List (String × Json M)
  | [] => []
  | (key, head) :: tail => (key, map f head) :: mapMembers f tail

end

/-! ## Objects with sorted members -/

/-- Every object of the tree lists its members in strictly increasing key order. -/
inductive Normal : Json N → Prop where
  | null : Normal .null
  | number (value : N) : Normal (.number value)
  | str (value : String) : Normal (.str value)
  | arr (items : List (Json N)) (each : ∀ item ∈ items, Normal item) : Normal (.arr items)
  | obj (members : List (String × Json N))
      (sorted : members.Pairwise (fun first second => first.1 < second.1))
      (each : ∀ member ∈ members, Normal member.2) : Normal (.obj members)

theorem Normal.items {items : List (Json N)} (normal : Normal (.arr items)) :
    ∀ item ∈ items, Normal item := by
  cases normal with
  | arr _ each => exact each

theorem Normal.members {members : List (String × Json N)} (normal : Normal (.obj members)) :
    ∀ member ∈ members, Normal member.2 := by
  cases normal with
  | obj _ _ each => exact each

theorem Normal.sorted {members : List (String × Json N)} (normal : Normal (.obj members)) :
    members.Pairwise (fun first second => first.1 < second.1) := by
  cases normal with
  | obj _ sorted _ => exact sorted

end Json

/-- A JSON value: a tree in which one object has one representation. -/
abbrev JsonValue (N : Type u) : Type u := { tree : Json N // tree.Normal }

/-- A JSON object as a dictionary. -/
abbrev JsonObject (N : Type u) : Type u := Dict String (JsonValue N)

/-- Objects are compared as dictionaries. -/
instance (priority := high) decidableObjects {N : Type u} [DecidableEq N] :
    DecidableEq (JsonObject N) :=
  inferInstance

namespace JsonValue

variable {N : Type u}

def null : JsonValue N := ⟨.null, .null⟩

def number (value : N) : JsonValue N := ⟨.number value, .number value⟩

def str (value : String) : JsonValue N := ⟨.str value, .str value⟩

def arr (items : List (JsonValue N)) : JsonValue N :=
  ⟨.arr (items.map Subtype.val), .arr _ (by
    intro item member
    obtain ⟨value, _, same⟩ := List.mem_map.mp member
    subst same
    exact value.2)⟩

private theorem obj_sorted (members : JsonObject N) :
    (members.toList.map (fun entry => (entry.1, entry.2.1))).Pairwise
      (fun first second => first.1 < second.1) :=
  List.pairwise_map.mpr members.toList_sorted

/-- The object with the given members. -/
def obj (members : JsonObject N) : JsonValue N :=
  ⟨.obj (members.toList.map (fun entry => (entry.1, entry.2.1))),
    .obj _ (obj_sorted members) (by
      intro member among
      obtain ⟨entry, _, same⟩ := List.mem_map.mp among
      subst same
      exact entry.2.2)⟩

def asStr? : JsonValue N → Option String
  | ⟨.str value, _⟩ => some value
  | _ => none

def asNumber? : JsonValue N → Option N
  | ⟨.number value, _⟩ => some value
  | _ => none

def asArr? : JsonValue N → Option (List (JsonValue N))
  | ⟨.arr items, normal⟩ => some (items.attachWith Json.Normal normal.items)
  | _ => none

def isNull : JsonValue N → Bool
  | ⟨.null, _⟩ => true
  | _ => false

/-- The dictionary a sorted member list stands for. -/
def ofMembers (members : List (String × Json N))
    (each : ∀ member ∈ members, Json.Normal member.2) : JsonObject N :=
  Std.ExtTreeMap.ofList
    (members.pmap (fun member normal => (member.1, (⟨member.2, normal⟩ : JsonValue N))) each)

def asObj? : JsonValue N → Option (JsonObject N)
  | ⟨.obj members, normal⟩ => some (ofMembers members normal.members)
  | _ => none

private theorem members_sorted {members : List (String × Json N)}
    (each : ∀ member ∈ members, Json.Normal member.2)
    (sorted : members.Pairwise (fun first second => first.1 < second.1)) :
    (members.pmap (fun member normal =>
      (member.1, (⟨member.2, normal⟩ : JsonValue N))) each).Pairwise
      (fun first second => first.1 < second.1) := by
  refine (List.pairwise_pmap each).mpr (sorted.imp ?_)
  intro _ _ below _ _
  exact below

private theorem obj_ofMembers {members : List (String × Json N)}
    (each : ∀ member ∈ members, Json.Normal member.2)
    (sorted : members.Pairwise (fun first second => first.1 < second.1)) :
    (obj (ofMembers members each)).1 = .obj members := by
  change Json.obj ((ofMembers members each).toList.map (fun entry => (entry.1, entry.2.1))) = _
  rw [ofMembers, Dict.toList_ofList (members_sorted each sorted), List.map_pmap]
  simp

/-- Every value is one of the five constructors. -/
theorem cases {motive : JsonValue N → Prop} (null : motive null)
    (number : ∀ value, motive (number value)) (str : ∀ value, motive (str value))
    (arr : ∀ items, motive (arr items)) (obj : ∀ members, motive (obj members))
    (value : JsonValue N) : motive value := by
  obtain ⟨tree, normal⟩ := value
  cases tree with
  | null => exact null
  | number value => exact number value
  | str value => exact str value
  | arr items =>
      have same : (⟨.arr items, normal⟩ : JsonValue N) =
          JsonValue.arr (items.attachWith Json.Normal normal.items) := by
        apply Subtype.ext
        simp [JsonValue.arr]
      rw [same]
      exact arr _
  | obj members =>
      have same : (⟨.obj members, normal⟩ : JsonValue N) =
          JsonValue.obj (ofMembers members normal.members) :=
        Subtype.ext (obj_ofMembers normal.members normal.sorted).symm
      rw [same]
      exact obj _

theorem obj_injective {first second : JsonObject N} (same : obj first = obj second) :
    first = second := by
  have trees : (obj first).1 = (obj second).1 := congrArg Subtype.val same
  injection trees with lists
  have entries : first.toList = second.toList := by
    have injective : Function.Injective
        (fun entry : String × JsonValue N => (entry.1, entry.2.1)) := by
      rintro ⟨firstKey, firstValue⟩ ⟨secondKey, secondValue⟩ equal
      injection equal with keys values
      exact Prod.ext keys (Subtype.ext values)
    exact List.map_injective_iff.mpr injective lists
  rw [← Dict.ofList_toList first, entries, Dict.ofList_toList]

/-- Induction over a value: an array by its items, an object by its dictionary. -/
theorem induct {motive : JsonValue N → Prop} (null : motive null)
    (number : ∀ value, motive (number value)) (str : ∀ value, motive (str value))
    (arr : ∀ items, (∀ item ∈ items, motive item) → motive (arr items))
    (obj : ∀ members : JsonObject N,
      (∀ (key : String) (value : JsonValue N), members[key]? = some value → motive value) →
        motive (obj members))
    (value : JsonValue N) : motive value := by
  obtain ⟨tree, normal⟩ := value
  induction tree using Json.induct with
  | null => exact null
  | number value => exact number value
  | str value => exact str value
  | arr items inductionHypothesis =>
      have same : (⟨.arr items, normal⟩ : JsonValue N) =
          JsonValue.arr (items.attachWith Json.Normal normal.items) := by
        apply Subtype.ext
        simp [JsonValue.arr]
      rw [same]
      apply arr
      intro item member
      exact inductionHypothesis item.1 ((List.mem_attachWith ..).mp member) item.2
  | obj members inductionHypothesis =>
      have same : (⟨.obj members, normal⟩ : JsonValue N) =
          JsonValue.obj (ofMembers members normal.members) :=
        Subtype.ext (obj_ofMembers normal.members normal.sorted).symm
      rw [same]
      apply obj
      intro key value found
      rw [ofMembers, Dict.get_ofList (members_sorted normal.members normal.sorted)] at found
      obtain ⟨member, among, pair⟩ := List.mem_pmap.mp found
      injection pair with _ values
      subst values
      exact inductionHypothesis member among (normal.members member among)

@[simp] theorem asStr_str (value : String) : (str value : JsonValue N).asStr? = some value := rfl

@[simp] theorem asNumber_number (value : N) : (number value).asNumber? = some value := rfl

@[simp] theorem asArr_arr (items : List (JsonValue N)) : (arr items).asArr? = some items := by
  change some ((items.map Subtype.val).attachWith Json.Normal _) = some items
  congr 1
  apply List.map_injective_iff.mpr Subtype.val_injective
  simp

@[simp] theorem asObj_obj (members : JsonObject N) : (obj members).asObj? = some members := by
  change some (ofMembers _ _) = some members
  congr 1
  apply obj_injective
  exact Subtype.ext (obj_ofMembers _ (obj_sorted members))

theorem asStr_eq_some {value : JsonValue N} {text : String} :
    value.asStr? = some text ↔ value = str text := by
  constructor
  · intro found
    induction value using cases with
    | str other =>
        injection found with same
        rw [same]
    | _ => cases found
  · rintro rfl
    rfl

end JsonValue

end Foundation
