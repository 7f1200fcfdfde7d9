import Statefuse.Conflict.DetectionSpec
import Statefuse.Foundation.Intervals
import Statefuse.Reference

/-!
# Joint applicability

Claims apply at an instant under an assignment that gives a value to every name their
contexts bind.  The applicability mark of a direct conflict compares the last start with
the first end and collects context values by a key; it is exact: the mark is set when and
only when no instant and assignment make all the candidates apply
(`applicability_exact`).
-/

namespace Statefuse

open Foundation

private theorem itemEqualityKeys_eq {items : List (Json PyNumber)}
    (each : ∀ item ∈ items, treeEqualityKey item = item.map PyNumber.value) :
    itemEqualityKeys items = Json.mapItems PyNumber.value items := by
  induction items with
  | nil => rfl
  | cons head tail inductionHypothesis =>
      rw [itemEqualityKeys, Json.mapItems, each head List.mem_cons_self,
        inductionHypothesis (fun item member => each item (List.mem_cons_of_mem _ member))]

private theorem memberEqualityKeys_eq {members : List (String × Json PyNumber)}
    (each : ∀ member ∈ members, treeEqualityKey member.2 = member.2.map PyNumber.value) :
    memberEqualityKeys members = Json.mapMembers PyNumber.value members := by
  induction members with
  | nil => rfl
  | cons head tail inductionHypothesis =>
      rw [memberEqualityKeys, Json.mapMembers, each head List.mem_cons_self,
        inductionHypothesis (fun member among => each member (List.mem_cons_of_mem _ among))]

private theorem names_mapMembers (members : List (String × Json PyNumber)) :
    (Json.mapMembers PyNumber.value members).map Prod.fst = members.map Prod.fst := by
  induction members with
  | nil => rfl
  | cons head tail inductionHypothesis =>
      rw [Json.mapMembers, List.map_cons, List.map_cons, inductionHypothesis]

/-- Objects are sorted already, so a key is the tree with its numbers replaced by their
values. -/
theorem treeEqualityKey_eq {tree : Json PyNumber} (normal : tree.Normal) :
    treeEqualityKey tree = tree.map PyNumber.value := by
  induction tree using Json.induct with
  | null => rfl
  | number value => rfl
  | str value => rfl
  | arr items inductionHypothesis =>
      rw [treeEqualityKey, Json.map, itemEqualityKeys_eq
        (fun item member => inductionHypothesis item member (normal.items item member))]
  | obj members inductionHypothesis =>
      have sorted : (Json.mapMembers PyNumber.value members).Pairwise
          (fun first second => first.1 ≤ second.1) := by
        have names : (members.map Prod.fst).Pairwise (· ≤ ·) :=
          List.pairwise_map.mpr (normal.sorted.imp (fun below => le_of_lt below))
        rw [← names_mapMembers] at names
        exact List.pairwise_map.mp names
      rw [treeEqualityKey, Json.map, memberEqualityKeys_eq
        (fun member among => inductionHypothesis member among (normal.members member among)),
        sortBy_of_pairwise sorted]

/-- Two context values have one key exactly when the host finds them equal. -/
theorem contextEqualityKey_iff {first second : JSONValue} :
    contextEqualityKey first = contextEqualityKey second ↔ pyEq first second = true := by
  rw [pyEq_iff, contextEqualityKey, contextEqualityKey, treeEqualityKey_eq first.2,
    treeEqualityKey_eq second.2]
  rfl

/-! ## Names with two values -/

/-- The keys collected for each name are those of the entries; there is one for each
name that occurs. -/
private structure Collects (contextValues : Dict String (List (Json ℚ)))
    (entries : List (String × JSONValue)) : Prop where
  single : ∀ (name : String) (keys : List (Json ℚ)), contextValues[name]? = some keys →
    ∃ value, (name, value) ∈ entries ∧ keys = [contextEqualityKey value]
  complete : ∀ entry ∈ entries,
    contextValues[entry.1]? = some [contextEqualityKey entry.2]

/-- Entries that bind one name to one value each. -/
def OneValued (entries : List (String × JSONValue)) : Prop :=
  ∀ first ∈ entries, ∀ second ∈ entries, first.1 = second.1 → pyEq first.2 second.2 = true

private theorem addContextValue_collects {contextValues : Dict String (List (Json ℚ))}
    {entries : List (String × JSONValue)} (collects : Collects contextValues entries)
    (entry : String × JSONValue) :
    (∃ next, addContextValue (some contextValues) entry = some next ∧
      Collects next (entries ++ [entry])) ∨
    (addContextValue (some contextValues) entry = none ∧
      ∃ other ∈ entries, other.1 = entry.1 ∧ pyEq other.2 entry.2 = false) := by
  have inserted : ∀ keys, keys = [contextEqualityKey entry.2] →
      Collects (contextValues.insert entry.1 keys) (entries ++ [entry]) ∨
        ∃ other ∈ entries, other.1 = entry.1 ∧ pyEq other.2 entry.2 = false := by
    intro keys isSingle
    by_cases agree : ∀ other ∈ entries, other.1 = entry.1 → pyEq other.2 entry.2 = true
    · left
      constructor
      · intro name found bound
        rw [Dict.get_insert] at bound
        by_cases here : entry.1 = name
        · rw [if_pos here, Option.some.injEq] at bound
          refine ⟨entry.2, ?_, bound.symm.trans isSingle⟩
          rw [← here]
          exact List.mem_append_right _ (List.mem_singleton_self _)
        · rw [if_neg here] at bound
          rcases collects.single name found bound with ⟨value, listed, same⟩
          exact ⟨value, List.mem_append_left _ listed, same⟩
      · intro other listed
        rw [Dict.get_insert]
        rcases List.mem_append.mp listed with before | last
        · by_cases here : entry.1 = other.1
          · rw [if_pos here, isSingle,
              contextEqualityKey_iff.mpr (agree other before here.symm)]
          · rw [if_neg here]
            exact collects.complete other before
        · rw [List.mem_singleton.mp last, if_pos rfl, isSingle]
    · right
      simp only [not_forall] at agree
      rcases agree with ⟨other, listed, sameName, different⟩
      exact ⟨other, listed, sameName, Bool.eq_false_iff.mpr different⟩
  cases bound : contextValues[entry.1]? with
  | none =>
      have fresh : addContextValue (some contextValues) entry =
          some (contextValues.insert entry.1 [contextEqualityKey entry.2]) := by
        simp [addContextValue, bound]
      rcases inserted _ rfl with extended | ⟨other, listed, sameName, _⟩
      · exact Or.inl ⟨_, fresh, extended⟩
      · have taken := collects.complete other listed
        rw [sameName, bound] at taken
        cases taken
  | some keys =>
      rcases collects.single entry.1 keys bound with ⟨value, listed, isSingle⟩
      by_cases equal : pyEq value entry.2 = true
      · have same : contextEqualityKey entry.2 = contextEqualityKey value :=
          (contextEqualityKey_iff.mpr equal).symm
        have kept : addContextValue (some contextValues) entry =
            some (contextValues.insert entry.1 [contextEqualityKey entry.2]) := by
          simp [addContextValue, bound, isSingle, same]
        rcases inserted _ rfl with extended | ⟨other, otherListed, sameName, different⟩
        · exact Or.inl ⟨_, kept, extended⟩
        · have taken := collects.complete other otherListed
          rw [sameName, bound, isSingle, Option.some.injEq, List.cons.injEq] at taken
          have equalOther := contextEqualityKey_iff.mp (taken.1.symm.trans same.symm)
          rw [equalOther] at different
          cases different
      · right
        have different : ¬ contextEqualityKey entry.2 = contextEqualityKey value :=
          fun same => equal (contextEqualityKey_iff.mp same.symm)
        refine ⟨by simp [addContextValue, bound, isSingle, different], (entry.1, value), listed,
          rfl, Bool.eq_false_iff.mpr equal⟩

private theorem addContextValue_none (entries : List (String × JSONValue)) :
    entries.foldl addContextValue none = none := by
  induction entries with
  | nil => rfl
  | cons head tail inductionHypothesis => exact inductionHypothesis

private theorem addContextValues_isNone {contextValues : Dict String (List (Json ℚ))}
    {before : List (String × JSONValue)} (collects : Collects contextValues before)
    (oneValued : OneValued before) (entries : List (String × JSONValue)) :
    (entries.foldl addContextValue (some contextValues)).isNone = true ↔
      ¬ OneValued (before ++ entries) := by
  induction entries generalizing contextValues before with
  | nil => simpa using oneValued
  | cons head tail inductionHypothesis =>
      rw [List.foldl_cons]
      have together : before ++ head :: tail = (before ++ [head]) ++ tail := by simp
      rcases addContextValue_collects collects head with
        ⟨next, added, extended⟩ | ⟨stopped, other, listed, sameName, different⟩
      · have stillOne : OneValued (before ++ [head]) := by
          intro first firstListed second secondListed sameName
          have firstKey := extended.complete first firstListed
          have secondKey := extended.complete second secondListed
          rw [sameName, secondKey, Option.some.injEq, List.cons.injEq] at firstKey
          exact contextEqualityKey_iff.mp firstKey.1.symm
        rw [added, together]
        exact inductionHypothesis extended stillOne
      · rw [stopped, addContextValue_none]
        constructor
        · intro _ all
          have equal := all other (List.mem_append_left _ listed) head
            (List.mem_append_right _ List.mem_cons_self) sameName
          rw [equal] at different
          cases different
        · intro _
          rfl

section Theory

variable [Runtime]

/-- The contexts of the claims bind every name to one value. -/
def ContextsAgree (claims : List Claim) : Prop :=
  ∀ first ∈ claims, ∀ second ∈ claims, ∀ (name : String) (value other : JSONValue),
    first.context[name]? = some value → second.context[name]? = some other →
    pyEq value other = true

theorem contextsDiffer_iff (claims : List Claim) :
    contextsDiffer claims = true ↔ ¬ ContextsAgree claims := by
  have start : Collects ∅ [] := by
    constructor
    · intro name keys bound
      rw [Dict.get_empty] at bound
      cases bound
    · intro entry member
      cases member
  have nothing : OneValued [] := by
    intro first member
    cases member
  rw [contextsDiffer, addContextValues_isNone start nothing, List.nil_append, not_iff_not]
  simp only [OneValued, ContextsAgree, List.mem_flatMap, Dict.mem_toList, Prod.forall]
  constructor
  · intro one first firstListed second secondListed name value other bound otherBound
    exact one name value ⟨first, firstListed, bound⟩ name other
      ⟨second, secondListed, otherBound⟩ rfl
  · rintro agree name value ⟨first, firstListed, bound⟩ otherName other
      ⟨second, secondListed, otherBound⟩ same
    subst same
    exact agree first firstListed second secondListed name value other bound otherBound

/-! ## Common assignments -/

omit [Runtime] in
theorem get_mergeContexts (left right : JSONObject) (name : String) :
    (mergeContexts left right)[name]? = (right[name]? <|> left[name]?) := by
  have general : ∀ (entries : List (String × JSONValue)) (start : JSONObject),
      entries.Pairwise (fun first second => first.1 < second.1) →
      (∀ value, (name, value) ∈ entries → (entries.foldl (fun members entry =>
        members.insert entry.1 entry.2) start)[name]? = some value) ∧
      ((∀ value, (name, value) ∉ entries) → (entries.foldl (fun members entry =>
        members.insert entry.1 entry.2) start)[name]? = start[name]?) := by
    intro entries
    induction entries with
    | nil => simp
    | cons head tail inductionHypothesis =>
        intro start sorted
        have parts := List.pairwise_cons.mp sorted
        rcases inductionHypothesis (start.insert head.1 head.2) parts.2 with ⟨bound, unbound⟩
        constructor
        · intro value listed
          rcases List.mem_cons.mp listed with same | later
          · have absent : ∀ other, (name, other) ∉ tail := by
              intro other member
              have below := parts.1 (name, other) member
              rw [← same] at below
              exact lt_irrefl _ below
            rw [List.foldl_cons, unbound absent, ← same]
            exact Dict.get_insert_self _ _ _
          · exact bound value later
        · intro absent
          have different : head.1 ≠ name := by
            intro same
            exact absent head.2 (by rw [← same]; exact List.mem_cons_self)
          rw [List.foldl_cons, unbound (fun value member =>
            absent value (List.mem_cons_of_mem _ member))]
          exact Dict.get_insert_of_ne _ different _
  rcases general right.toList left right.toList_sorted with ⟨bound, unbound⟩
  unfold mergeContexts
  cases found : right[name]? with
  | some value => exact bound value ((Dict.mem_toList right name value).mpr found)
  | none =>
      apply unbound
      intro value member
      rw [(Dict.mem_toList right name value).mp member] at found
      cases found

theorem contextExcludes_eq_false {claim : Claim} {context : JSONObject} :
    contextExcludes claim context = false ↔ ∀ (name : String) (value other : JSONValue),
      context[name]? = some value → claim.context[name]? = some other →
      pyEq other value = true := by
  rw [contextExcludes, List.any_eq_false]
  constructor
  · intro none name value other bound own
    have agrees := none (name, value) ((Dict.mem_toList context name value).mpr bound)
    simpa [own] using agrees
  · rintro agree ⟨name, value⟩ member
    have bound := (Dict.mem_toList context name value).mp member
    cases own : claim.context[name]? with
    | none => simp
    | some other => simp [agree name value other bound own]

/-- The assignment gives a value to every name that the context of a claim binds. -/
def Assigns (assignment : JSONObject) (claims : List Claim) : Prop :=
  ∀ claim ∈ claims, ∀ (name : String) (value : JSONValue), claim.context[name]? = some value →
    ∃ assigned, assignment[name]? = some assigned

/-- The union of the contexts. -/
def unionOfContexts (claims : List Claim) : JSONObject :=
  claims.foldr (fun claim assignment => mergeContexts assignment claim.context) ∅

private theorem assigns_union (claims : List Claim) : Assigns (unionOfContexts claims) claims := by
  induction claims with
  | nil =>
      intro claim member
      cases member
  | cons head tail inductionHypothesis =>
      intro claim member name value bound
      rw [unionOfContexts, List.foldr_cons, get_mergeContexts]
      cases own : head.context[name]? with
      | some assigned => exact ⟨assigned, rfl⟩
      | none =>
          rcases List.mem_cons.mp member with same | later
          · rw [← same, bound] at own
            cases own
          · rcases inductionHypothesis claim later name value bound with ⟨assigned, found⟩
            exact ⟨assigned, found⟩

private theorem union_of_claims {claims : List Claim} {name : String} {assigned : JSONValue}
    (found : (unionOfContexts claims)[name]? = some assigned) :
    ∃ claim ∈ claims, claim.context[name]? = some assigned := by
  induction claims with
  | nil =>
      rw [unionOfContexts, List.foldr_nil, Dict.get_empty] at found
      cases found
  | cons head tail inductionHypothesis =>
      rw [unionOfContexts, List.foldr_cons, get_mergeContexts] at found
      cases own : head.context[name]? with
      | some value =>
          rw [own] at found
          exact ⟨head, List.mem_cons_self, own.trans found⟩
      | none =>
          rw [own] at found
          rcases inductionHypothesis found with ⟨claim, member, bound⟩
          exact ⟨claim, List.mem_cons_of_mem _ member, bound⟩

/-- Some full assignment suits all of the claims exactly when their contexts agree. -/
theorem exists_assignment_iff (claims : List Claim) :
    (∃ assignment, Assigns assignment claims ∧
      ∀ claim ∈ claims, contextExcludes claim assignment = false) ↔ ContextsAgree claims := by
  constructor
  · rintro ⟨assignment, assigns, suits⟩ first firstListed second secondListed name value other
      bound otherBound
    rcases assigns first firstListed name value bound with ⟨assigned, found⟩
    have left := contextExcludes_eq_false.mp (suits first firstListed) name assigned value found
      bound
    have right := contextExcludes_eq_false.mp (suits second secondListed) name assigned other found
      otherBound
    exact pyEq_trans left (pyEq_symm right)
  · intro agree
    refine ⟨unionOfContexts claims, assigns_union claims, ?_⟩
    intro claim listed
    apply contextExcludes_eq_false.mpr
    intro name assigned value found bound
    rcases union_of_claims found with ⟨other, otherListed, otherBound⟩
    exact agree claim listed other otherListed name value assigned bound otherBound

/-! ## Common instants -/

omit [Runtime] in
theorem boundsContain_iff (bounds : ValidityBounds) (instant : Instant) :
    boundsContain bounds instant = true ↔
      (∀ start, bounds.1 = some start → start ≤ instant) ∧
        ∀ stop, bounds.2 = some stop → instant < stop := by
  rcases bounds with ⟨start, stop⟩
  cases start <;> cases stop <;> simp [boundsContain]

theorem readBound_some {bound : Option String} {instant : Instant} :
    readBound bound = .ok (some instant) ↔
      ∃ text, bound = some text ∧ parseUtcIso text = .ok instant := by
  cases bound with
  | none => simp [readBound]
  | some text =>
      rw [readBound, map_ok_iff]
      simp

theorem validityBounds_ok_iff {validity : Option ValidityInterval} {bounds : ValidityBounds} :
    validityBounds validity = .ok bounds ↔
      readBound (validity.bind (·.validFrom)) = .ok bounds.1 ∧
        readBound (validity.bind (·.validUntil)) = .ok bounds.2 := by
  cases validity with
  | none =>
      rcases bounds with ⟨start, stop⟩
      simp [validityBounds, readBound, eq_comm]
  | some interval =>
      rcases bounds with ⟨start, stop⟩
      simp only [validityBounds, bind_ok_iff, pure_ok_iff, Option.bind_some, Prod.mk.injEq]
      constructor
      · rintro ⟨validFrom, readFrom, validUntil, readUntil, sameFrom, sameUntil⟩
        exact ⟨sameFrom ▸ readFrom, sameUntil ▸ readUntil⟩
      · rintro ⟨readFrom, readUntil⟩
        exact ⟨start, readFrom, stop, readUntil, rfl, rfl⟩

/-- The instants that `readBounds` returns. -/
private theorem mem_readBounds {bound : ValidityInterval → Option String} {claims : List Claim}
    {instants : List Instant} (run : readBounds bound claims = .ok instants) (instant : Instant) :
    instant ∈ instants ↔
      ∃ claim ∈ claims, readBound (claim.validity.bind bound) = .ok (some instant) := by
  rw [mem_mapM_ok run]
  simp only [List.mem_filterMap, readBound_some]
  constructor
  · rintro ⟨text, ⟨claim, listed, given⟩, parsed⟩
    exact ⟨claim, listed, text, given, parsed⟩
  · rintro ⟨claim, listed, text, given, parsed⟩
    exact ⟨text, ⟨claim, listed, given⟩, parsed⟩

private theorem readBound_of_readBounds {bound : ValidityInterval → Option String}
    {claims : List Claim} {instants : List Instant} (run : readBounds bound claims = .ok instants)
    {claim : Claim} (listed : claim ∈ claims) :
    ∃ read, readBound (claim.validity.bind bound) = .ok read := by
  cases given : claim.validity.bind bound with
  | none => exact ⟨none, rfl⟩
  | some text =>
      rcases each_mapM_ok run text (List.mem_filterMap.mpr ⟨claim, listed, given⟩) with
        ⟨instant, parsed⟩
      exact ⟨some instant, readBound_some.mpr ⟨text, rfl, parsed⟩⟩

/-- The claim applies at an instant, under an assignment of context values. -/
structure AppliesAt (claim : Claim) (instant : Instant) (assignment : JSONObject) : Prop where
  context : contextExcludes claim assignment = false
  validity : ∃ bounds, validityBounds claim.validity = .ok bounds ∧
    boundsContain bounds instant = true

/-- `claim_applies` at a timestamp, under an assignment. -/
theorem claimApplies_iff {claim : Claim} {text : String} {instant : Instant}
    (parsed : parseUtcIso text = .ok instant) (assignment : JSONObject) :
    claimApplies claim (some text) assignment = .ok true ↔ AppliesAt claim instant assignment := by
  unfold claimApplies
  constructor
  · intro applies
    cases excluded : contextExcludes claim assignment with
    | true =>
        rw [excluded, if_pos rfl] at applies
        cases applies
    | false =>
        rw [excluded, if_neg (by simp)] at applies
        simp only [bind_of_ok parsed, bind_ok_iff, pure_ok_iff] at applies
        exact ⟨excluded, applies⟩
  · rintro ⟨included, bounds, read, contains⟩
    rw [included, if_neg (by simp)]
    simp only [bind_of_ok parsed, bind_of_ok read, contains]
    rfl

/-- The claims apply at one instant exactly when the starts lie before the ends. -/
private theorem exists_instant_iff {claims : List Claim} {starts ends : List Instant}
    (startsRead : readBounds (·.validFrom) claims = .ok starts)
    (endsRead : readBounds (·.validUntil) claims = .ok ends) :
    (∃ instant, ∀ claim ∈ claims, ∃ bounds, validityBounds claim.validity = .ok bounds ∧
      boundsContain bounds instant = true) ↔ Separated starts ends := by
  rw [← exists_common_point_iff]
  apply exists_congr
  intro instant
  constructor
  · intro all
    constructor
    · intro start listed
      rcases (mem_readBounds startsRead start).mp listed with ⟨claim, member, read⟩
      rcases all claim member with ⟨bounds, boundsRead, contains⟩
      have same := (validityBounds_ok_iff.mp boundsRead).1
      rw [read] at same
      injection same with same
      exact ((boundsContain_iff bounds instant).mp contains).1 start same.symm
    · intro stop listed
      rcases (mem_readBounds endsRead stop).mp listed with ⟨claim, member, read⟩
      rcases all claim member with ⟨bounds, boundsRead, contains⟩
      have same := (validityBounds_ok_iff.mp boundsRead).2
      rw [read] at same
      injection same with same
      exact ((boundsContain_iff bounds instant).mp contains).2 stop same.symm
  · rintro ⟨after, before⟩ claim member
    rcases readBound_of_readBounds startsRead member with ⟨start, startRead⟩
    rcases readBound_of_readBounds endsRead member with ⟨stop, stopRead⟩
    refine ⟨(start, stop), validityBounds_ok_iff.mpr ⟨startRead, stopRead⟩, ?_⟩
    apply (boundsContain_iff _ instant).mpr
    constructor
    · intro instant given
      exact after instant ((mem_readBounds startsRead instant).mpr
        ⟨claim, member, startRead.trans (congrArg Except.ok given)⟩)
    · intro instant given
      exact before instant ((mem_readBounds endsRead instant).mpr
        ⟨claim, member, stopRead.trans (congrArg Except.ok given)⟩)

/-! ## The applicability mark -/

/-- Some instant and some full assignment make all of the claims apply. -/
def JointlyApplicable (claims : List Claim) : Prop :=
  ∃ instant assignment, Assigns assignment claims ∧
    ∀ claim ∈ claims, AppliesAt claim instant assignment

theorem hasAggregateApplicability_iff {claims : List Claim} {verdict : Bool}
    (run : hasAggregateApplicability claims = .ok verdict) :
    verdict = true ↔ ¬ JointlyApplicable claims := by
  have agreement : JointlyApplicable claims → ContextsAgree claims := by
    rintro ⟨_, assignment, assigns, apply⟩
    exact (exists_assignment_iff claims).mp
      ⟨assignment, assigns, fun claim listed => (apply claim listed).context⟩
  unfold hasAggregateApplicability at run
  by_cases differ : contextsDiffer claims = true
  · rw [if_pos differ] at run
    injection run with run
    subst run
    exact ⟨fun _ joint => (contextsDiffer_iff claims).mp differ (agreement joint), fun _ => rfl⟩
  · rw [if_neg differ] at run
    have agree : ContextsAgree claims := by
      by_contra disagree
      exact differ ((contextsDiffer_iff claims).mpr disagree)
    simp only [bind_ok_iff] at run
    rcases run with ⟨starts, startsRead, ends, endsRead, decided⟩
    have joint : JointlyApplicable claims ↔ Separated starts ends := by
      rw [← exists_instant_iff startsRead endsRead]
      constructor
      · rintro ⟨instant, _, _, apply⟩
        exact ⟨instant, fun claim listed => (apply claim listed).validity⟩
      · rintro ⟨instant, contains⟩
        rcases (exists_assignment_iff claims).mpr agree with ⟨assignment, assigns, suits⟩
        exact ⟨instant, assignment, assigns,
          fun claim listed => ⟨suits claim listed, contains claim listed⟩⟩
    rw [joint, separated_iff_extremes]
    cases last : starts.max? with
    | none =>
        simp only [last, pure_ok_iff] at decided
        simp [← decided]
    | some latest =>
        cases first : ends.min? with
        | none =>
            simp only [last, first, pure_ok_iff] at decided
            simp [← decided]
        | some earliest =>
            simp only [last, first, pure_ok_iff] at decided
            simp [← decided]

/-- What a finding says about the joint applicability of its candidates. -/
theorem directFinding_annotations {context : ConflictDetectionContext} {key : ClaimKey}
    {candidates : List Claim} {witnesses : List JSONObject} {conflict : ConflictSet}
    (run : directFinding context key candidates witnesses = .ok conflict) :
    conflict.candidates = sortBy Claim.claimId candidates ∧
    ∃ aggregate, hasAggregateApplicability candidates = .ok aggregate ∧
      conflict.annotations = findingAnnotations context candidates aggregate := by
  simp only [directFinding, bind_ok_iff] at run
  rcases run with ⟨aggregate, decided, made⟩
  simp only [makeConflict] at made
  split at made
  · cases made
  · rw [if_neg (by simp)] at made
    have fields := ConflictSet.fields_of_create made
    have sorted : sortBy Claim.claimId (sortBy Claim.claimId candidates) =
        sortBy Claim.claimId candidates := sortBy_of_pairwise (sortBy_pairwise _ _)
    have candidatesEq : conflict.candidates =
        sortBy Claim.claimId (sortBy Claim.claimId candidates) := by
      rw [fields]
      rfl
    refine ⟨candidatesEq.trans sorted, aggregate, decided, ?_⟩
    rw [fields]
    rfl

theorem annotationsFor_applicability (claims : List Claim) (context : ConflictDetectionContext) :
    (annotationsFor claims context)["applicability"]? = none := by
  simp [annotationsFor, get_withField, objectOf]

theorem joint_sortBy (claims : List Claim) :
    JointlyApplicable (sortBy Claim.claimId claims) ↔ JointlyApplicable claims := by
  simp only [JointlyApplicable, Assigns, mem_sortBy]

/-- The mark of a finding is set or absent. -/
theorem directFinding_applicability {context : ConflictDetectionContext} {key : ClaimKey}
    {candidates : List Claim} {witnesses : List JSONObject} {conflict : ConflictSet}
    (run : directFinding context key candidates witnesses = .ok conflict) :
    (conflict.annotations["applicability"]? = some (.str "aggregate") ↔
      ¬ JointlyApplicable conflict.candidates) ∧
    (conflict.annotations["applicability"]? ≠ some (.str "aggregate") →
      conflict.annotations["applicability"]? = none) := by
  rcases directFinding_annotations run with ⟨sorted, aggregate, decided, annotations⟩
  rw [sorted, joint_sortBy, ← hasAggregateApplicability_iff decided, annotations,
    findingAnnotations]
  cases aggregate with
  | true => simp
  | false => simp [annotationsFor_applicability]

theorem finding_of_directConflictFor {context : ConflictDetectionContext} {key : ClaimKey}
    {claims : List Claim} {conflict : ConflictSet}
    (run : directConflictFor context key claims = .ok (some conflict)) :
    ∃ candidates witnesses, directFinding context key candidates witnesses = .ok conflict := by
  unfold directConflictFor at run
  simp only at run
  split at run
  · cases run
  · rw [bind_ok_iff] at run
    rcases run with ⟨pairs, _, run⟩
    split at run
    · cases run
    · rw [bind_ok_iff] at run
      rcases run with ⟨witnesses, _, run⟩
      rw [bind_ok_iff] at run
      rcases run with ⟨found, made, same⟩
      injection same with same
      injection same with same
      exact ⟨_, _, same ▸ made⟩

/-- The mark of a direct conflict is exact: it is set when no instant and no full assignment
of context values make all candidates apply, and absent otherwise. -/
theorem applicability_exact {context : ConflictDetectionContext} {conflicts : List ConflictSet}
    (run : directConflicts context = .ok conflicts) {conflict : ConflictSet}
    (listed : conflict ∈ conflicts) :
    (conflict.annotations["applicability"]? = some (.str "aggregate") ↔
      ¬ ∃ instant assignment, Assigns assignment conflict.candidates ∧
        ∀ claim ∈ conflict.candidates, AppliesAt claim instant assignment) ∧
    (conflict.annotations["applicability"]? ≠ some (.str "aggregate") →
      conflict.annotations["applicability"]? = none) := by
  simp only [directConflicts, bind_ok_iff, pure_ok_iff] at run
  rcases run with ⟨found, detected, same⟩
  rw [← same, List.reduceOption_mem_iff] at listed
  rcases (mem_mapM_ok detected (some conflict)).mp listed with ⟨entry, _, reported⟩
  rcases finding_of_directConflictFor reported with ⟨candidates, witnesses, made⟩
  exact directFinding_applicability made

end Theory

section Example

attribute [local instance] Reference.runtime

/-- A fact without context disagrees with two facts that hold in different modes. -/
def modalFacts : List Claim :=
  [Reference.fact "a" Reference.key (.str "x") [],
    Reference.factIn "b" Reference.key (.str "y") "day",
    Reference.factIn "c" Reference.key (.str "z") "night"]

def modalContext : ConflictDetectionContext where
  activeClaimsByKey := (∅ : Dict ClaimKey (List Claim)).insert Reference.key modalFacts
  claimsById := Dict.ofItems Claim.claimId modalFacts
  evidenceById := ∅
  sourcesById := ∅
  derivationsById := ∅
  activeDecisions := []
  predicateRegistry := .empty

theorem applicability_exact_modal :
    ∃ conflict, directConflicts modalContext = .ok [conflict] ∧
      conflict.annotations["applicability"]? = some (.str "aggregate") ∧
      ¬ ∃ instant assignment, Assigns assignment conflict.candidates ∧
        ∀ claim ∈ conflict.candidates, AppliesAt claim instant assignment := by
  have computed : ((directConflicts modalContext).toOption.map fun conflicts =>
      conflicts.map fun conflict => conflict.annotations["applicability"]?) =
      some [some (.str "aggregate")] := by
    decide +kernel
  cases run : directConflicts modalContext with
  | error failure =>
      rw [run] at computed
      cases computed
  | ok conflicts =>
      rw [run] at computed
      injection computed with computed
      rcases List.map_eq_singleton_iff.mp computed with ⟨conflict, single, marked⟩
      subst single
      have exactness := (applicability_exact run (List.mem_singleton_self conflict)).1
      exact ⟨conflict, rfl, marked, exactness.mp marked⟩

end Example

end Statefuse
