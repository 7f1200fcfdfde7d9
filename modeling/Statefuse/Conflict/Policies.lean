import Statefuse.Conflict.CausalResolver
import Statefuse.Text

/-!
# Preserving, the latest write, and the registry of policies

The resolver of the latest write selects a candidate exactly when the caller vouches for
the timestamps and rules out concurrency, all candidates are of one branch, and theirs is
the unique latest instant (`latest_selection_iff`).  A registry routes the types of
conflicts to named resolvers; whatever is registered and routed, in whatever order and
with whatever failures, every route leads to a resolver (`registry_run`).
-/

namespace Statefuse

open Foundation

section Theory

variable [Runtime]

namespace PreserveResolver

def resolverName : String := "preserve"

def resolve (conflictSet : ConflictSet) (_context : ResolutionContext) :
    Result ResolutionResult :=
  .ok (.unresolvedConflict conflictSet "Conflict preserved by policy."
    (auditOf resolverName conflictSet "unresolved" []))

end PreserveResolver

/-- The branch that a claim was written on, when it names one that is not blank. -/
def Claim.branchId (claim : Claim) : Option String :=
  (getOrNull claim.provenance "branch_id").asStr?.filter fun branch => strip branch.toList ≠ []

/-- The instant at which a claim was written, when its timestamp can be read. -/
def Claim.written (claim : Claim) : Option Instant := (parseUtcIso claim.timestamp).toOption

structure LatestWriteWinsResolver where
  acceptedConflictTypes : PySet String
  typesPresent : acceptedConflictTypes ≠ ∅ ∧ "" ∉ acceptedConflictTypes

namespace LatestWriteWinsResolver

def resolverName : String := "latest_write_wins"

/-- The resolver with the default types. -/
def direct : LatestWriteWinsResolver :=
  ⟨CausalResolver.direct.acceptedConflictTypes, CausalResolver.direct.typesPresent⟩

def create (acceptedConflictTypes : PySet String) : Result LatestWriteWinsResolver :=
  if typesPresent : acceptedConflictTypes ≠ ∅ ∧ "" ∉ acceptedConflictTypes then
    .ok ⟨acceptedConflictTypes, typesPresent⟩
  else valueError "accepted_conflict_types must contain non-empty strings."

def abstain (conflictSet : ConflictSet) (reason : String) : ResolutionResult :=
  .abstention conflictSet reason (auditOf resolverName conflictSet "abstained" [])

/-- The branches of the candidates, when all of them name one. -/
def branchIds (conflictSet : ConflictSet) : Option (List String) :=
  conflictSet.candidates.mapM Claim.branchId

/-- The candidates with their instants, when all of them have one. -/
def ordered (conflictSet : ConflictSet) : Option (List (Claim × Instant)) :=
  conflictSet.candidates.mapM fun claim => claim.written.map fun instant => (claim, instant)

/-- `max(ordered, key=...)`: the first of the entries with the greatest instant. -/
def latest : List (Claim × Instant) → Option (Claim × Instant)
  | [] => none
  | head :: tail =>
      some (tail.foldl (fun best entry => if best.2 < entry.2 then entry else best) head)

/-- The selection of the latest of the candidates. -/
def select (conflictSet : ConflictSet) (branchId : String)
    (ordered : List (Claim × Instant)) : Result ResolutionResult :=
  match latest ordered with
  | none => valueError "max() arg is an empty sequence"
  | some (selected, _) =>
      (SelectedState.create conflictSet selected
        "Selected the unique latest trusted write on one non-concurrent branch."
        (auditOf resolverName conflictSet "selected"
          [("branch_id", branchId), ("ordering", "trusted_timestamp"),
            ("selected_claim_id", selected.claimId)])).map .selectedState

def resolve (resolver : LatestWriteWinsResolver) (conflictSet : ConflictSet)
    (context : ResolutionContext) : Result ResolutionResult :=
  if conflictSet.conflictType ∉ resolver.acceptedConflictTypes then
    .ok (abstain conflictSet "Conflict type is not accepted by this resolver.")
  else if !context.replacementSemantics then
    .ok (abstain conflictSet
      "The caller did not establish replacement semantics for this predicate.")
  else if !context.timestampsTrusted then
    .ok (abstain conflictSet "Candidate timestamps are not explicitly trusted.")
  else if context.concurrent ≠ some false then
    .ok (abstain conflictSet
      (if context.concurrent = some true then
        "Concurrent updates cannot be ordered by latest-write-wins."
      else "Non-concurrency was not explicitly established."))
  else if conflictSet.candidates.length < 2 then
    .ok (abstain conflictSet "Conflict requires at least two candidates.")
  else
    match branchIds conflictSet with
    | none => .ok (abstain conflictSet "Every candidate requires a branch_id.")
    | some branches =>
        if (sortedSet branches).length ≠ 1 then
          .ok (abstain conflictSet "Candidates belong to different branches.")
        else
          match ordered conflictSet with
          | none =>
              .ok (abstain conflictSet "Every candidate requires a parseable timestamp.")
          | some ordered =>
              if (sortedSet (ordered.map Prod.snd)).length ≠ ordered.length then
                .ok (abstain conflictSet "Candidate timestamps contain a tie.")
              else select conflictSet (branches.headD "") ordered

end LatestWriteWinsResolver

omit [Runtime] in
/-- Reading every item of a list. -/
theorem mapM_some_iff {α β : Type} {read : α → Option β} {items : List α} {results : List β} :
    items.mapM read = some results ↔
      List.Forall₂ (fun item result => read item = some result) items results := by
  induction items generalizing results with
  | nil => simp [eq_comm]
  | cons head tail inductionHypothesis =>
      rw [List.mapM_cons, List.forall₂_cons_left_iff]
      simp only [← inductionHypothesis]
      cases read head with
      | none => simp
      | some first =>
          cases tail.mapM read with
          | none => simp
          | some rest => simp [eq_comm]

omit [Runtime] in
theorem sortedSet_length_iff {K : Type} [LinearOrder K] (keys : List K) :
    (sortedSet keys).length = keys.length ↔ keys.Nodup := by
  have distinct : (sortedSet keys).Nodup :=
    (sortedSet_sorted keys).imp (fun below => ne_of_lt below)
  constructor
  · intro same
    have among : (sortedSet keys).Subperm keys :=
      List.subperm_of_subset distinct (fun key listed => mem_sortedSet.mp listed)
    exact (among.perm_of_length_le (le_of_eq same.symm)).nodup_iff.mp distinct
  · intro nodup
    exact ((List.perm_ext_iff_of_nodup distinct nodup).mpr
      (fun key => mem_sortedSet)).length_eq

/-! ## The selection of the latest write -/

namespace LatestWriteWinsResolver

variable {resolver : LatestWriteWinsResolver} {conflict : ConflictSet}
  {context : ResolutionContext}

theorem latest_spec {entries : List (Claim × Instant)} {best : Claim × Instant}
    (found : latest entries = some best) :
    best ∈ entries ∧ ∀ entry ∈ entries, entry.2 ≤ best.2 := by
  cases entries with
  | nil => cases found
  | cons head tail =>
      injection found with found
      subst found
      induction tail generalizing head with
      | nil => simp
      | cons next rest inductionHypothesis =>
          rw [List.foldl_cons]
          obtain ⟨listed, above⟩ := inductionHypothesis (if head.2 < next.2 then next else head)
          have start := above _ List.mem_cons_self
          refine ⟨?_, ?_⟩
          · rcases List.mem_cons.mp listed with same | later
            · rw [same]
              split
              · simp
              · simp
            · exact List.mem_cons_of_mem _ (List.mem_cons_of_mem _ later)
          · intro entry member
            rcases List.mem_cons.mp member with isHead | member
            · rw [isHead]
              refine le_trans ?_ start
              split
              · rename_i below
                exact le_of_lt below
              · exact le_rfl
            · rcases List.mem_cons.mp member with isNext | later
              · rw [isNext]
                refine le_trans ?_ start
                split
                · exact le_rfl
                · rename_i notBelow
                  exact not_lt.mp notBelow
              · exact above entry (List.mem_cons_of_mem _ later)

/-- The caller and the candidates establish what the resolver asks for. -/
structure Orders (resolver : LatestWriteWinsResolver) (conflict : ConflictSet)
    (context : ResolutionContext) : Prop where
  accepted : conflict.conflictType ∈ resolver.acceptedConflictTypes
  replacement : context.replacementSemantics = true
  trusted : context.timestampsTrusted = true
  sequential : context.concurrent = some false
  several : 2 ≤ conflict.candidates.length
  branch : ∃ branch, ∀ claim ∈ conflict.candidates, claim.branchId = some branch
  readable : ∀ claim ∈ conflict.candidates, claim.written ≠ none
  apart : (conflict.candidates.map Claim.written).Nodup

/-- The candidates with their instants are read from the candidates alone. -/
theorem ordered_iff {entries : List (Claim × Instant)} :
    ordered conflict = some entries ↔
      entries.map Prod.fst = conflict.candidates ∧
        entries.map (fun entry => some entry.2) = conflict.candidates.map Claim.written := by
  rw [ordered, mapM_some_iff]
  generalize conflict.candidates = candidates
  constructor
  · intro read
    induction read with
    | nil => simp
    | @cons claim entry claims entries isEntry _ inductionHypothesis =>
        obtain ⟨instant, written, same⟩ := Option.map_eq_some_iff.mp isEntry
        rw [← same]
        simp [inductionHypothesis, written]
  · rintro ⟨firsts, instants⟩
    induction entries generalizing candidates with
    | nil =>
        rw [← firsts]
        exact List.Forall₂.nil
    | cons entry rest inductionHypothesis =>
        rw [← firsts] at instants ⊢
        simp only [List.map_cons, List.cons.injEq] at instants ⊢
        refine List.Forall₂.cons ?_ (inductionHypothesis _ rfl instants.2)
        rw [← instants.1]
        rfl

/-- One branch stands for all candidates when only one id is read from them. -/
theorem branch_iff (some : conflict.candidates ≠ []) {branches : List String}
    (read : branchIds conflict = .some branches) :
    (sortedSet branches).length = 1 ↔
      ∃ branch, ∀ claim ∈ conflict.candidates, claim.branchId = .some branch := by
  have treated := mapM_some_iff.mp read
  rw [List.length_eq_one_iff]
  refine exists_congr fun branch => ?_
  have members : (∀ claim ∈ conflict.candidates, claim.branchId = .some branch) ↔
      ∀ other ∈ branches, other = branch := by
    clear read some
    generalize conflict.candidates = candidates at treated ⊢
    induction treated with
    | nil => simp
    | cons isBranch _ inductionHypothesis =>
        simp only [List.forall_mem_cons, inductionHypothesis, isBranch, Option.some.injEq]
  rw [members]
  constructor
  · intro only other listed
    rw [← mem_sortedSet, only] at listed
    exact List.mem_singleton.mp listed
  · intro only
    refine sortedSet_eq (List.pairwise_singleton _ _) ?_
    intro other
    rw [List.mem_singleton]
    refine ⟨?_, only other⟩
    intro same
    have nonempty : branches ≠ [] := by
      intro none
      rw [none, List.forall₂_nil_right_iff] at treated
      exact some treated
    obtain ⟨present, listed⟩ := List.exists_mem_of_ne_nil branches nonempty
    rw [same, ← only present listed]
    exact listed

/-- One claim was written before another. -/
def WrittenBefore (first second : Claim) : Prop :=
  ∃ early late, first.written = some early ∧ second.written = some late ∧ early < late

/-- The candidate was written after all others. -/
def IsLatest (conflict : ConflictSet) (claim : Claim) : Prop :=
  claim ∈ conflict.candidates ∧
    ∀ other ∈ conflict.candidates, other ≠ claim → WrittenBefore other claim

theorem IsLatest.unique {first second : Claim} (firstLatest : IsLatest conflict first)
    (secondLatest : IsLatest conflict second) : first = second := by
  by_contra different
  obtain ⟨early, late, isEarly, isLate, below⟩ :=
    secondLatest.2 first firstLatest.1 different
  obtain ⟨early', late', isEarly', isLate', below'⟩ :=
    firstLatest.2 second secondLatest.1 (Ne.symm different)
  rw [isEarly, Option.some.injEq] at isLate'
  rw [isLate, Option.some.injEq] at isEarly'
  rw [isLate', isEarly'] at below
  exact lt_asymm below below'

/-- Entries without a tie have a latest one, and it is the latest candidate. -/
theorem select_latest {entries : List (Claim × Instant)}
    (read : ordered conflict = some entries) (some : entries ≠ [])
    (apart : (entries.map Prod.snd).Nodup) (branchId : String) :
    ∃ state, select conflict branchId entries = .ok (.selectedState state) ∧
      IsLatest conflict state.selectedClaim := by
  obtain ⟨firsts, instants⟩ := ordered_iff.mp read
  rw [← firsts, List.map_map, List.map_inj_left] at instants
  cases found : latest entries with
  | none =>
      cases entries with
      | nil => exact absurd rfl some
      | cons head tail => cases found
  | some best =>
      obtain ⟨listed, above⟩ := latest_spec found
      have member : best.1 ∈ conflict.candidates := by
        rw [← firsts]
        exact List.mem_map_of_mem listed
      obtain ⟨state, created, selected⟩ := CausalResolver.create_selected member
        "Selected the unique latest trusted write on one non-concurrent branch."
        (auditOf resolverName conflict "selected" [("branch_id", branchId),
          ("ordering", "trusted_timestamp"), ("selected_claim_id", best.1.claimId)])
      refine ⟨state, ?_, ?_⟩
      · rw [select, found]
        simp only [created]
        rfl
      · rw [selected]
        refine ⟨member, ?_⟩
        intro other isCandidate different
        rw [← firsts] at isCandidate
        obtain ⟨entry, among, isOther⟩ := List.mem_map.mp isCandidate
        rw [← isOther] at different ⊢
        refine ⟨entry.2, best.2, (instants entry among).symm, (instants best listed).symm, ?_⟩
        refine lt_of_le_of_ne (above entry among) ?_
        intro same
        exact different (congrArg Prod.fst (List.inj_on_of_nodup_map apart among listed same))

theorem branchIds_of_one {branch : String}
    (one : ∀ claim ∈ conflict.candidates, claim.branchId = some branch) :
    branchIds conflict = some (conflict.candidates.map fun _ => branch) := by
  rw [branchIds, mapM_some_iff, List.forall₂_map_right_iff, List.forall₂_same]
  exact one

theorem ordered_of_readable (readable : ∀ claim ∈ conflict.candidates, claim.written ≠ none) :
    ordered conflict =
      some (conflict.candidates.map fun claim => (claim, claim.written.getD 0)) := by
  rw [ordered, mapM_some_iff, List.forall₂_map_right_iff, List.forall₂_same]
  intro claim listed
  obtain ⟨instant, written⟩ := Option.ne_none_iff_exists'.mp (readable claim listed)
  rw [written]
  rfl

theorem readable_of_ordered {entries : List (Claim × Instant)}
    (read : ordered conflict = some entries) : ∀ claim ∈ conflict.candidates,
      claim.written ≠ none := by
  intro claim listed missing
  have among := List.mem_map_of_mem listed (f := Claim.written)
  rw [missing, ← (ordered_iff.mp read).2] at among
  obtain ⟨entry, _, impossible⟩ := List.mem_map.mp among
  cases impossible

/-- The instants that are read are apart when those of the candidates are. -/
theorem nodup_iff {entries : List (Claim × Instant)} (read : ordered conflict = some entries) :
    (entries.map Prod.snd).Nodup ↔ (conflict.candidates.map Claim.written).Nodup := by
  rw [← (ordered_iff.mp read).2]
  change _ ↔ (entries.map (some ∘ Prod.snd)).Nodup
  rw [← List.map_map]
  exact (List.nodup_map_iff (Option.some_injective _)).symm

/-- The resolver selects the latest candidate, or abstains. -/
theorem resolve_cases (resolver : LatestWriteWinsResolver) (conflict : ConflictSet)
    (context : ResolutionContext) :
    (resolver.Orders conflict context ∧ ∃ state,
      resolver.resolve conflict context = .ok (.selectedState state) ∧
      IsLatest conflict state.selectedClaim) ∨
    (¬resolver.Orders conflict context ∧ ∃ reason,
      resolver.resolve conflict context = .ok (abstain conflict reason)) := by
  unfold resolve
  by_cases accepted : conflict.conflictType ∈ resolver.acceptedConflictTypes
  swap
  · exact Or.inr ⟨fun orders => accepted orders.accepted, _, if_pos accepted⟩
  rw [if_neg (not_not_intro accepted)]
  by_cases replacement : context.replacementSemantics = true
  swap
  · exact Or.inr ⟨fun orders => replacement orders.replacement, _,
      if_pos (by simp [Bool.eq_false_of_not_eq_true replacement])⟩
  rw [if_neg (by simp [replacement])]
  by_cases trusted : context.timestampsTrusted = true
  swap
  · exact Or.inr ⟨fun orders => trusted orders.trusted, _,
      if_pos (by simp [Bool.eq_false_of_not_eq_true trusted])⟩
  rw [if_neg (by simp [trusted])]
  by_cases sequential : context.concurrent = some false
  swap
  · exact Or.inr ⟨fun orders => sequential orders.sequential, _, if_pos sequential⟩
  rw [if_neg (not_not_intro sequential)]
  by_cases few : conflict.candidates.length < 2
  · exact Or.inr ⟨fun orders => absurd orders.several (not_le_of_gt few), _, if_pos few⟩
  rw [if_neg few]
  have present : conflict.candidates ≠ [] := by
    intro none
    rw [none] at few
    exact few Nat.zero_lt_two
  cases branches : branchIds conflict with
  | none =>
      refine Or.inr ⟨?_, _, rfl⟩
      intro orders
      obtain ⟨branch, same⟩ := orders.branch
      rw [branchIds_of_one same] at branches
      cases branches
  | some ids =>
      dsimp only
      by_cases one : (sortedSet ids).length = 1
      swap
      · exact Or.inr ⟨fun orders => one ((branch_iff present branches).mpr orders.branch), _,
          if_pos one⟩
      rw [if_neg (not_not_intro one)]
      cases read : ordered conflict with
      | none =>
          refine Or.inr ⟨?_, _, rfl⟩
          intro orders
          rw [ordered_of_readable orders.readable] at read
          cases read
      | some entries =>
          dsimp only
          have length := sortedSet_length_iff (entries.map Prod.snd)
          rw [List.length_map] at length
          by_cases tied : (sortedSet (entries.map Prod.snd)).length = entries.length
          swap
          · exact Or.inr ⟨fun orders => tied (length.mpr ((nodup_iff read).mpr orders.apart)), _,
              if_pos tied⟩
          rw [if_neg (not_not_intro tied)]
          have some : entries ≠ [] := by
            intro none
            have firsts := (ordered_iff.mp read).1
            rw [none] at firsts
            exact present firsts.symm
          obtain ⟨state, selects, isLatest⟩ :=
            select_latest read some (length.mp tied) (ids.headD "")
          refine Or.inl ⟨?_, state, selects, isLatest⟩
          exact {
            accepted := accepted
            replacement := replacement
            trusted := trusted
            sequential := sequential
            several := not_lt.mp few
            branch := (branch_iff present branches).mp one
            readable := readable_of_ordered read
            apart := (nodup_iff read).mp (length.mp tied) }

end LatestWriteWinsResolver

/-- A candidate is selected exactly when everything is vouched for and it was written after
all others; when everything is vouched for there is one, otherwise the resolver abstains.  The
order of the candidates does not matter. -/
theorem latest_selection_iff (resolver : LatestWriteWinsResolver) (conflict : ConflictSet)
    (context : ResolutionContext) :
    (∀ claim, (∃ state, resolver.resolve conflict context = .ok (.selectedState state) ∧
        state.selectedClaim = claim) ↔
      resolver.Orders conflict context ∧ LatestWriteWinsResolver.IsLatest conflict claim) ∧
    (resolver.Orders conflict context ↔ ∃ state,
      resolver.resolve conflict context = .ok (.selectedState state)) ∧
    (¬resolver.Orders conflict context ↔ ∃ reason audit,
      resolver.resolve conflict context = .ok (.abstention conflict reason audit)) ∧
    ∀ others : List Claim, others.Perm conflict.candidates → (do
        let again ← ConflictSet.create { conflict.toConflictFields with candidates := others }
        resolver.resolve again context) = resolver.resolve conflict context := by
  have permuted (others : List Claim) (same : others.Perm conflict.candidates) : (do
      let again ← ConflictSet.create { conflict.toConflictFields with candidates := others }
      resolver.resolve again context) = resolver.resolve conflict context := by
    rw [bind_of_ok (conflict.create_permuted same)]
  rcases resolver.resolve_cases conflict context with
    ⟨orders, state, run, isLatest⟩ | ⟨unordered, reason, run⟩
  · refine ⟨?_, ⟨fun _ => ⟨state, run⟩, fun _ => orders⟩, ?_, permuted⟩
    · intro claim
      constructor
      · rintro ⟨selected, found, same⟩
        rw [run] at found
        injection found with found
        injection found with found
        rw [← same, ← found]
        exact ⟨orders, isLatest⟩
      · rintro ⟨_, claimLatest⟩
        exact ⟨state, run, isLatest.unique claimLatest⟩
    · refine ⟨fun unordered => absurd orders unordered, ?_⟩
      rintro ⟨reason, audit, found⟩
      rw [run] at found
      injection found with found
      cases found
  · have none (selected : SelectedState) :
        resolver.resolve conflict context ≠ .ok (.selectedState selected) := by
      intro found
      rw [run] at found
      injection found with found
      cases found
    refine ⟨?_, ?_, ⟨fun _ => ⟨_, _, run⟩, fun _ => unordered⟩, permuted⟩
    · intro claim
      constructor
      · rintro ⟨selected, found, _⟩
        exact absurd found (none selected)
      · rintro ⟨orders, _⟩
        exact absurd orders unordered
    · refine ⟨fun orders => absurd orders unordered, ?_⟩
      rintro ⟨selected, found⟩
      exact absurd found (none selected)

/-! ## The registry -/

def ResolutionResult.conflictSet : ResolutionResult → ConflictSet
  | .selectedState state => state.conflictSet
  | .unresolvedConflict conflictSet _ _ => conflictSet
  | .abstention conflictSet _ _ => conflictSet

/-- What a resolver answers about a conflict.  Equal conflicts can be different objects, so the
answer says whether it holds the object that was supplied. -/
structure ResolverAnswer (conflictSet : ConflictSet) where
  result : ResolutionResult
  holdsSupplied : Bool
  same : holdsSupplied = true → result.conflictSet = conflictSet

/-- How a resolver is called. -/
abbrev ConflictResolver : Type :=
  (conflictSet : ConflictSet) → ResolutionContext → Result (ResolverAnswer conflictSet)

/-- A result is about a conflict. -/
def Retains (conflict : ConflictSet) (run : Result ResolutionResult) : Prop :=
  ∀ result, run = .ok result → result.conflictSet = conflict

/-- The answers of a resolver that puts the object that it was given into its results. -/
def ConflictResolver.ofProgram (resolve : ConflictSet → ResolutionContext → Result ResolutionResult)
    (retains : ∀ conflictSet context, Retains conflictSet (resolve conflictSet context)) :
    ConflictResolver := fun conflictSet context =>
  match answered : resolve conflictSet context with
  | .error failure => .error failure
  | .ok result => .ok ⟨result, true, fun _ => retains conflictSet context result answered⟩

theorem Retains.returned {conflict : ConflictSet} {result : ResolutionResult}
    (same : result.conflictSet = conflict) : Retains conflict (.ok result) := by
  intro other found
  injection found with found
  rw [← found]
  exact same

theorem Retains.selected (conflict : ConflictSet) (claim : Claim) (reason : String)
    (audit : ResolutionAudit) :
    Retains conflict ((SelectedState.create conflict claim reason audit).map .selectedState) := by
  rw [SelectedState.create]
  split
  · exact Retains.returned rfl
  · intro result found
    cases found

theorem PreserveResolver.retains (conflict : ConflictSet) (context : ResolutionContext) :
    Retains conflict (PreserveResolver.resolve conflict context) :=
  Retains.returned rfl

theorem LatestWriteWinsResolver.retains (resolver : LatestWriteWinsResolver)
    (conflict : ConflictSet) (context : ResolutionContext) :
    Retains conflict (resolver.resolve conflict context) := by
  unfold LatestWriteWinsResolver.resolve
  repeat' split
  all_goals try exact Retains.returned rfl
  unfold LatestWriteWinsResolver.select
  split
  · intro result found
    cases found
  · exact Retains.selected _ _ _ _

theorem CausalResolver.retains (resolver : CausalResolver) (conflict : ConflictSet)
    (context : ResolutionContext) : Retains conflict (resolver.resolve conflict context) := by
  unfold CausalResolver.resolve
  repeat' split
  all_goals first | exact Retains.returned rfl | exact Retains.selected _ _ _ _

def PreserveResolver.answer : ConflictResolver := .ofProgram resolve retains

def LatestWriteWinsResolver.answer (resolver : LatestWriteWinsResolver) : ConflictResolver :=
  .ofProgram resolver.resolve resolver.retains

def CausalResolver.answer (resolver : CausalResolver) : ConflictResolver :=
  .ofProgram resolver.resolve resolver.retains

structure ResolverRegistry where
  resolvers : Dict String ConflictResolver
  routes : Dict String String

namespace ResolverRegistry

/-- A registry with the resolvers of the program and no routes. -/
def empty : ResolverRegistry where
  resolvers := (((∅ : Dict String ConflictResolver).insert PreserveResolver.resolverName
    PreserveResolver.answer).insert LatestWriteWinsResolver.resolverName
    LatestWriteWinsResolver.direct.answer).insert CausalResolver.resolverName
    CausalResolver.direct.answer
  routes := ∅

def register (registry : ResolverRegistry) (name : String) (resolver : ConflictResolver) :
    Result ResolverRegistry :=
  if name = "" ∨ registry.resolvers.contains name then
    valueError ("Resolver name must be non-empty and unique: '" ++ name ++ "'.")
  else .ok { registry with resolvers := registry.resolvers.insert name resolver }

def unknown {α : Type} (resolverName : String) : Result α :=
  .error (.keyError ("Unknown resolver: '" ++ resolverName ++ "'."))

def route (registry : ResolverRegistry) (conflictType resolverName : String) :
    Result ResolverRegistry :=
  if !registry.resolvers.contains resolverName then unknown resolverName
  else if conflictType = "" then valueError "conflict_type must be non-empty."
  else .ok { registry with routes := registry.routes.insert conflictType resolverName }

/-- The name of the resolver for a conflict: the one that is given, or the route of its
type, or the one that preserves. -/
def nameFor (registry : ResolverRegistry) (conflictSet : ConflictSet)
    (resolverName : Option String) : String :=
  resolverName.getD
    (registry.routes[conflictSet.conflictType]?.getD PreserveResolver.resolverName)

/-- What a resolver returns has to hold the very object that it was given. -/
def retained {conflictSet : ConflictSet} (run : Result (ResolverAnswer conflictSet)) :
    Result ResolutionResult := do
  let answer ← run
  if answer.holdsSupplied then return answer.result
  else valueError "Resolver result must retain the supplied ConflictSet object."

def resolve (registry : ResolverRegistry) (conflictSet : ConflictSet)
    (context : ResolutionContext) (resolverName : Option String) : Result ResolutionResult :=
  match registry.resolvers[registry.nameFor conflictSet resolverName]? with
  | none =>
      if resolverName.isSome then unknown (registry.nameFor conflictSet resolverName)
      else .error (.keyError (registry.nameFor conflictSet resolverName))
  | some resolver => retained (resolver conflictSet context)

/-- The calls that change a registry. -/
inductive RegistryCall where
  | register (name : String) (resolver : ConflictResolver)
  | route (conflictType resolverName : String)

/-- The registry after a call; a call that raises changes nothing. -/
def after (registry : ResolverRegistry) : RegistryCall → ResolverRegistry
  | .register name resolver => (registry.register name resolver).toOption.getD registry
  | .route conflictType resolverName =>
      (registry.route conflictType resolverName).toOption.getD registry

def run (registry : ResolverRegistry) (calls : List RegistryCall) : ResolverRegistry :=
  calls.foldl after registry

/-! ## Runs of a registry -/

variable {registry : ResolverRegistry} {conflict : ConflictSet} {context : ResolutionContext}

/-- The resolvers of the program stand under their names, and every route leads to a
resolver. -/
structure Sound (registry : ResolverRegistry) : Prop where
  preserve : registry.resolvers[PreserveResolver.resolverName]? = some PreserveResolver.answer
  latest : registry.resolvers[LatestWriteWinsResolver.resolverName]? =
    some LatestWriteWinsResolver.direct.answer
  causal : registry.resolvers[CausalResolver.resolverName]? = some CausalResolver.direct.answer
  routed : ∀ (conflictType name : String), registry.routes[conflictType]? = some name →
    ∃ resolver, registry.resolvers[name]? = some resolver

/-- What a registry has stays in it. -/
def Extends (registry next : ResolverRegistry) : Prop :=
  ∀ (name : String) (resolver : ConflictResolver), registry.resolvers[name]? = some resolver →
    next.resolvers[name]? = some resolver

theorem empty_sound : empty.Sound where
  preserve := by
    rw [empty, Dict.get_insert_of_ne _ (by decide), Dict.get_insert_of_ne _ (by decide),
      Dict.get_insert_self]
  latest := by
    rw [empty, Dict.get_insert_of_ne _ (by decide), Dict.get_insert_self]
  causal := by
    rw [empty, Dict.get_insert_self]
  routed := by
    intro conflictType name found
    rw [empty, Dict.get_empty] at found
    cases found

theorem after_register (registry : ResolverRegistry) (name : String)
    (resolver : ConflictResolver) :
    registry.after (.register name resolver) =
      if name = "" ∨ registry.resolvers.contains name then registry
      else { registry with resolvers := registry.resolvers.insert name resolver } := by
  change (registry.register name resolver).toOption.getD registry = _
  rw [register]
  split
  · rfl
  · rfl

theorem after_route (registry : ResolverRegistry) (conflictType name : String) :
    registry.after (.route conflictType name) =
      if registry.resolvers.contains name = false ∨ conflictType = "" then registry
      else { registry with routes := registry.routes.insert conflictType name } := by
  change (registry.route conflictType name).toOption.getD registry = _
  rw [route]
  by_cases known : registry.resolvers.contains name = true
  · by_cases blank : conflictType = ""
    · rw [if_pos (Or.inr blank), if_neg (by simp [known]), if_pos blank]
      rfl
    · have accepted : ¬(registry.resolvers.contains name = false ∨ conflictType = "") := by
        rw [not_or, known]
        exact ⟨nofun, blank⟩
      rw [if_neg accepted, known, Bool.not_true, if_neg Bool.false_ne_true, if_neg blank]
      rfl
  · rw [Bool.not_eq_true] at known
    rw [if_pos (Or.inl known), if_pos (by simp [known])]
    rfl

theorem contains_iff {name : String} : registry.resolvers.contains name = true ↔
    ∃ resolver, registry.resolvers[name]? = some resolver :=
  (Std.ExtTreeMap.mem_iff_contains).symm.trans (Dict.mem_iff _ _)

/-- What a call does. -/
theorem after_cases (registry : ResolverRegistry) (call : RegistryCall) :
    registry.after call = registry ∨
      (∃ name resolver, registry.resolvers[name]? = none ∧
        registry.after call =
          { registry with resolvers := registry.resolvers.insert name resolver }) ∨
      ∃ conflictType name, call = .route conflictType name ∧
        registry.resolvers.contains name = true ∧
        registry.after call =
          { registry with routes := registry.routes.insert conflictType name } := by
  cases call with
  | register name resolver =>
      rw [after_register]
      by_cases refused : name = "" ∨ registry.resolvers.contains name = true
      · rw [if_pos refused]
        exact Or.inl rfl
      · rw [if_neg refused]
        rw [not_or, Bool.not_eq_true] at refused
        exact Or.inr (Or.inl ⟨name, resolver,
          Std.ExtTreeMap.getElem?_eq_none_of_contains_eq_false refused.2, rfl⟩)
  | route conflictType name =>
      rw [after_route]
      by_cases refused : registry.resolvers.contains name = false ∨ conflictType = ""
      · rw [if_pos refused]
        exact Or.inl rfl
      · rw [if_neg refused]
        rw [not_or, Bool.not_eq_false] at refused
        exact Or.inr (Or.inr ⟨conflictType, name, rfl, refused.1, rfl⟩)

theorem after_extends (registry : ResolverRegistry) (call : RegistryCall) :
    registry.Extends (registry.after call) := by
  intro other resolver found
  rcases registry.after_cases call with
    same | ⟨name, fresh, absent, same⟩ | ⟨_, _, _, _, same⟩
  · rw [same]
    exact found
  · rw [same, Dict.get_insert_of_ne]
    · exact found
    · intro equal
      rw [equal, found] at absent
      cases absent
  · rw [same]
    exact found

theorem after_sound (sound : registry.Sound) (call : RegistryCall) :
    (registry.after call).Sound where
  preserve := registry.after_extends call _ _ sound.preserve
  latest := registry.after_extends call _ _ sound.latest
  causal := registry.after_extends call _ _ sound.causal
  routed := by
    intro conflictType name found
    have earlier : registry.routes[conflictType]? = some name →
        ∃ resolver, (registry.after call).resolvers[name]? = some resolver := by
      intro known
      obtain ⟨resolver, registered⟩ := sound.routed conflictType name known
      exact ⟨resolver, registry.after_extends call _ _ registered⟩
    rcases registry.after_cases call with
      same | ⟨_, _, _, same⟩ | ⟨type, target, _, known, same⟩
    · rw [same] at found
      exact earlier found
    · rw [same] at found
      exact earlier found
    · have routes : (registry.after call).routes = registry.routes.insert type target := by
        rw [same]
      rw [routes, Dict.get_insert] at found
      split at found
      · injection found with found
        obtain ⟨resolver, registered⟩ := contains_iff.mp known
        rw [← found]
        exact ⟨resolver, registry.after_extends call _ _ registered⟩
      · exact earlier found

/-- Only an accepted call that routes a type changes its route. -/
theorem after_routes {call : RegistryCall} {conflictType : String}
    (refused : ∀ name next, call = .route conflictType name →
      registry.route conflictType name ≠ .ok next) :
    (registry.after call).routes[conflictType]? = registry.routes[conflictType]? := by
  rcases registry.after_cases call with
    same | ⟨_, _, _, same⟩ | ⟨type, target, isRoute, _, same⟩
  · rw [same]
  · rw [same]
  · by_cases here : type = conflictType
    · subst here
      cases routed : registry.route type target with
      | error failure =>
          rw [isRoute, after, routed]
          rfl
      | ok next => exact absurd routed (refused target next isRoute)
    · rw [same, Dict.get_insert_of_ne _ here]

theorem run_append (registry : ResolverRegistry) (earlier later : List RegistryCall) :
    registry.run (earlier ++ later) = (registry.run earlier).run later :=
  List.foldl_append

theorem run_extends (registry : ResolverRegistry) (calls : List RegistryCall) :
    registry.Extends (registry.run calls) := by
  induction calls generalizing registry with
  | nil => exact fun _ _ found => found
  | cons head tail inductionHypothesis =>
      intro name resolver found
      exact inductionHypothesis (registry.after head) name resolver
        (registry.after_extends head name resolver found)

theorem run_sound (sound : registry.Sound) (calls : List RegistryCall) :
    (registry.run calls).Sound := by
  induction calls generalizing registry with
  | nil => exact sound
  | cons head tail inductionHypothesis => exact inductionHypothesis (after_sound sound head)

/-- None of the calls routes a type, or those that do raise. -/
def RefusesRoutes (registry : ResolverRegistry) (conflictType : String)
    (calls : List RegistryCall) : Prop :=
  ∀ before name after next, calls = before ++ .route conflictType name :: after →
    (registry.run before).route conflictType name ≠ .ok next

theorem run_routes {conflictType : String} (calls : List RegistryCall)
    (refuses : registry.RefusesRoutes conflictType calls) :
    (registry.run calls).routes[conflictType]? = registry.routes[conflictType]? := by
  induction calls generalizing registry with
  | nil => rfl
  | cons head tail inductionHypothesis =>
      have later : (registry.after head).RefusesRoutes conflictType tail := by
        intro before name after next split
        exact refuses (head :: before) name after next (by rw [split, List.cons_append])
      refine (inductionHypothesis later).trans (after_routes ?_)
      intro name next isHead
      exact refuses [] name tail next (by rw [isHead, List.nil_append])

theorem resolve_of_found {name : String} {given : Option String} {resolver : ConflictResolver}
    (named : registry.nameFor conflict given = name)
    (found : registry.resolvers[name]? = some resolver) :
    registry.resolve conflict context given =
      retained (resolver conflict context) := by
  rw [resolve, named, found]

/-- A name keeps its resolver. -/
theorem resolve_run {name : String} (known : registry.resolvers.contains name = true)
    (calls : List RegistryCall) :
    (registry.run calls).resolve conflict context (some name) =
      registry.resolve conflict context (some name) := by
  obtain ⟨resolver, found⟩ := contains_iff.mp known
  have still := registry.run_extends calls name resolver found
  exact (resolve_of_found rfl still).trans (resolve_of_found rfl found).symm

/-- The resolver of a conflict without a name is that of its route. -/
theorem resolve_routed {name : String}
    (routed : registry.nameFor conflict none = name) :
    registry.resolvers.contains name = true → registry.resolve conflict context none =
      registry.resolve conflict context (some name) := by
  intro known
  obtain ⟨resolver, found⟩ := contains_iff.mp known
  rw [resolve_of_found routed found, resolve_of_found rfl found]

theorem retained_retains (run : Result (ResolverAnswer conflict)) :
    Retains conflict (retained run) := by
  intro result found
  cases run with
  | error failure => cases found
  | ok answer =>
      rw [retained, bind_of_ok rfl] at found
      split at found
      · rename_i holds
        injection found with found
        rw [← found]
        exact answer.same holds
      · cases found

/-- A resolver of the program passes the check on its results. -/
theorem retained_ofProgram
    {resolve : ConflictSet → ResolutionContext → Result ResolutionResult}
    (retains : ∀ conflictSet context, Retains conflictSet (resolve conflictSet context))
    (conflict : ConflictSet) (context : ResolutionContext) :
    retained (ConflictResolver.ofProgram resolve retains conflict context) =
      resolve conflict context := by
  unfold ConflictResolver.ofProgram
  split
  · rename_i failure raised
    exact raised.symm
  · rename_i result answered
    exact answered.symm

/-- A name that is registered answers with its resolver. -/
theorem resolve_registered {name : String} {resolver : ConflictResolver}
    {next : ResolverRegistry} (registered : registry.register name resolver = .ok next)
    (calls : List RegistryCall) :
    ((registry.after (.register name resolver)).run calls).resolve conflict context (some name) =
      retained (resolver conflict context) := by
  have found : next.resolvers[name]? = some resolver := by
    rw [register] at registered
    split at registered
    · cases registered
    · injection registered with registered
      rw [← registered]
      exact Dict.get_insert_self ..
  refine resolve_of_found rfl (run_extends _ calls name resolver ?_)
  rw [after, registered]
  exact found

/-- A type that is routed is answered by the resolver of its route. -/
theorem nameFor_routed {name : String} {next : ResolverRegistry}
    (routed : registry.route conflict.conflictType name = .ok next) {calls : List RegistryCall}
    (refuses : next.RefusesRoutes conflict.conflictType calls) :
    registry.resolvers.contains name = true ∧
      ((registry.after (.route conflict.conflictType name)).run calls).nameFor conflict none =
        name := by
  have isNext : registry.after (.route conflict.conflictType name) = next := by
    rw [after, routed]
    rfl
  rw [isNext, nameFor, Option.getD_none, run_routes calls refuses]
  rw [route] at routed
  split at routed
  · cases routed
  · rename_i known
    split at routed
    · cases routed
    · injection routed with routed
      rw [← routed, Dict.get_insert_self, Option.getD_some]
      exact ⟨by simpa using known, rfl⟩

end ResolverRegistry

open ResolverRegistry in
/-- Whatever is registered and routed, and whichever calls raise, a name that is registered
answers with its resolver for good, the last accepted route of a type decides, and a type without
one is preserved. -/
theorem registry_run (earlier later : List RegistryCall) (conflict : ConflictSet)
    (context : ResolutionContext) :
    (∀ name resolver next, (empty.run earlier).register name resolver = .ok next →
      (empty.run (earlier ++ .register name resolver :: later)).resolve conflict context
          (some name) =
        retained (resolver conflict context)) ∧
    (∀ name, (empty.run earlier).resolvers.contains name = true →
      (empty.run (earlier ++ later)).resolve conflict context (some name) =
        (empty.run earlier).resolve conflict context (some name)) ∧
    (∀ name next, (empty.run earlier).route conflict.conflictType name = .ok next →
      next.RefusesRoutes conflict.conflictType later →
      (empty.run (earlier ++ .route conflict.conflictType name :: later)).resolve
          conflict context none =
        (empty.run earlier).resolve conflict context (some name)) ∧
    (empty.RefusesRoutes conflict.conflictType later →
      (empty.run later).resolve conflict context none =
        PreserveResolver.resolve conflict context) ∧
    (∃ name, (empty.run later).resolvers.contains name = true ∧
      (empty.run later).resolve conflict context none =
        (empty.run later).resolve conflict context (some name)) ∧
    (empty.run later).resolve conflict context (some PreserveResolver.resolverName) =
      PreserveResolver.resolve conflict context ∧
    (empty.run later).resolve conflict context (some LatestWriteWinsResolver.resolverName) =
      LatestWriteWinsResolver.direct.resolve conflict context ∧
    (empty.run later).resolve conflict context (some CausalResolver.resolverName) =
      CausalResolver.direct.resolve conflict context ∧
    ∀ given result, (empty.run later).resolve conflict context given = .ok result →
      result.conflictSet = conflict := by
  have sound := run_sound empty_sound later
  refine ⟨?_, ?_, ?_, ?_, ?_, ?_, ?_, ?_, ?_⟩
  · intro name resolver next registered
    rw [run_append]
    exact resolve_registered registered later
  · intro name known
    rw [run_append]
    exact resolve_run known later
  · intro name next routed refuses
    obtain ⟨known, named⟩ := nameFor_routed routed refuses
    obtain ⟨resolver, found⟩ := contains_iff.mp known
    have still := (empty.run earlier).run_extends
      (.route conflict.conflictType name :: later) name resolver found
    rw [run_append]
    exact (resolve_of_found named still).trans (resolve_of_found rfl found).symm
  · intro refuses
    have unrouted : (empty.run later).nameFor conflict none =
        PreserveResolver.resolverName := by
      rw [nameFor, Option.getD_none, run_routes later refuses, empty, Dict.get_empty,
        Option.getD_none]
    rw [resolve_of_found unrouted sound.preserve]
    exact retained_ofProgram _ conflict context
  · cases routed : (empty.run later).routes[conflict.conflictType]? with
    | none =>
        have known := contains_iff.mpr ⟨_, sound.preserve⟩
        refine ⟨_, known, resolve_routed ?_ known⟩
        rw [nameFor, Option.getD_none, routed, Option.getD_none]
    | some name =>
        have known := contains_iff.mpr (sound.routed _ name routed)
        refine ⟨name, known, resolve_routed ?_ known⟩
        rw [nameFor, Option.getD_none, routed, Option.getD_some]
  · rw [resolve_of_found rfl sound.preserve]
    exact retained_ofProgram _ conflict context
  · rw [resolve_of_found rfl sound.latest]
    exact retained_ofProgram _ conflict context
  · rw [resolve_of_found rfl sound.causal]
    exact retained_ofProgram _ conflict context
  · intro given result found
    rw [resolve] at found
    split at found
    · split at found
      · cases found
      · cases found
    · exact retained_retains _ result found

end Theory

section Example

attribute [local instance] Reference.runtime

/-- A claim that was written on a branch at some time. -/
def writtenFact (claimId timestamp : String) : Claim :=
  { Reference.fact claimId Reference.key (.str claimId) [] with
    timestamp := timestamp
    provenance := objectOf [("branch_id", .str "main")] }

/-- The conflict between two such claims, the second of which was written later. -/
def writtenConflict : ConflictSet where
  toConflictFields := { clockedFields with
    candidates := [writtenFact "c1" "2024-01-01T00:00:00Z",
      writtenFact "c2" "2023-12-31T23:30:00-01:00"] }
  valid := by
    refine { clockedFields_valid with candidatesSorted := ?_, candidateKeysListed := ?_ }
    · rw [List.pairwise_pair]
      decide
    · intro claim listed
      rcases List.mem_pair.mp listed with same | same
      · rw [same]
        exact List.mem_singleton.mpr rfl
      · rw [same]
        exact List.mem_singleton.mpr rfl

/-- The instants decide, although the text of the later one comes first. -/
theorem latest_selection_iff_later : ∃ state,
    LatestWriteWinsResolver.direct.resolve writtenConflict ⟨true, some false, true, false⟩ =
      .ok (.selectedState state) ∧
    state.selectedClaim = writtenFact "c2" "2023-12-31T23:30:00-01:00" := by
  have early : (writtenFact "c1" "2024-01-01T00:00:00Z").written = some 1704067200000000 := by
    decide +kernel
  have late : (writtenFact "c2" "2023-12-31T23:30:00-01:00").written =
      some 1704069000000000 := by
    decide +kernel
  have orders : LatestWriteWinsResolver.direct.Orders writtenConflict
      ⟨true, some false, true, false⟩ := by
    refine ⟨(PySet.mem_insert _ _ _).mpr (Or.inl rfl), rfl, rfl, rfl, le_refl 2,
      ⟨"main", ?_⟩, ?_, ?_⟩
    · intro claim listed
      rcases List.mem_pair.mp listed with same | same
      · rw [same]
        decide +kernel
      · rw [same]
        decide +kernel
    · intro claim listed
      rcases List.mem_pair.mp listed with same | same
      · rw [same, early]
        exact Option.some_ne_none _
      · rw [same, late]
        exact Option.some_ne_none _
    · change [(writtenFact "c1" _).written, (writtenFact "c2" _).written].Nodup
      rw [early, late]
      decide
  apply ((latest_selection_iff _ _ _).1 _).mpr
  refine ⟨orders, List.mem_pair.mpr (Or.inr rfl), ?_⟩
  intro other listed different
  rcases List.mem_pair.mp listed with same | same
  · rw [same]
    exact ⟨_, _, early, late, by decide⟩
  · exact absurd same different

end Example

end Statefuse
