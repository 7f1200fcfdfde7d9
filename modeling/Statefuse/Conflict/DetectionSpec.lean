import Statefuse.Conflict.Index
import Statefuse.Foundation.Outcome
import Statefuse.Foundation.Tables

/-!
# What the detectors report

Whatever the detectors report, the accepted conflicts have references of their own
(`runConflictDetectors_refs`).  The direct detector fails on a key only when a
validity bound of one of its claims cannot be read (`directConflictFor_ok`), and what
it reports about a key is identified by the key and the claims that disagree.
-/

namespace Statefuse

open Foundation

variable [Runtime]

/-- The tables of accepted conflicts hold exactly some conflicts. -/
structure AcceptedConflicts.Holds (accepted : AcceptedConflicts) (member : ConflictSet → Prop) :
    Prop where
  byId : Lists accepted.byId (·.conflictId) member
  refs : ∀ conflictRef conflictId : String, accepted.refs[conflictRef]? = some conflictId ↔
    ∃ conflict, member conflict ∧ conflict.conflictRef = conflictRef ∧
      conflict.conflictId = conflictId

theorem AcceptedConflicts.holds_empty :
    AcceptedConflicts.Holds ⟨∅, ∅⟩ (fun _ => False) where
  byId := Lists.empty
  refs := by simp

theorem AcceptedConflicts.Holds.congr {accepted : AcceptedConflicts}
    {member other : ConflictSet → Prop} (holds : accepted.Holds member)
    (same : ∀ conflict, member conflict ↔ other conflict) : accepted.Holds other := by
  have equal : member = other := funext fun conflict => propext (same conflict)
  rw [← equal]
  exact holds

/-- A conflict that is taken up is canonical and none of its two identifiers is in use. -/
theorem acceptConflict_ok {context : ConflictDetectionContext} {accepted next : AcceptedConflicts}
    {member : ConflictSet → Prop} {conflict : ConflictSet} (holds : accepted.Holds member)
    (run : acceptConflict context accepted conflict = .ok next) :
    next = accepted ∨ next.Holds (fun other => member other ∨ other = conflict) := by
  simp only [acceptConflict] at run
  by_cases missing : missingCandidates context conflict ≠ []
  · rw [if_pos missing] at run
    cases run
  rw [if_neg missing] at run
  by_cases foreign : conflict.conflictRef ≠ deriveConflictRef conflict.key conflict.conflictType
        conflict.keys conflict.detectorId ∨
      conflict.conflictId ≠ deriveConflictId conflict.key
        (conflict.candidates.map Claim.claimId) conflict.conflictType conflict.keys
        conflict.detectorId
  · rw [if_pos foreign] at run
    cases run
  rw [if_neg foreign] at run
  cases sameId : accepted.byId[conflict.conflictId]? with
  | some existing =>
      simp only [sameId] at run
      split at run
      · injection run with run
        exact Or.inl run.symm
      · cases run
  | none =>
      have newId : ∀ other, member other → other.conflictId ≠ conflict.conflictId :=
        holds.byId.get_none.mp sameId
      have newRef : accepted.refs[conflict.conflictRef]? = none ∧
          next = ⟨accepted.byId.insert conflict.conflictId conflict,
            accepted.refs.insert conflict.conflictRef conflict.conflictId⟩ := by
        cases prior : accepted.refs[conflict.conflictRef]? with
        | none =>
            simp only [sameId, prior] at run
            injection run with run
            exact ⟨rfl, run.symm⟩
        | some priorId =>
            simp only [sameId, prior] at run
            split at run
            · cases run
            · rename_i same
              obtain ⟨other, listed, _, equal⟩ := (holds.refs _ _).mp prior
              exact absurd (equal.trans (not_not.mp same)) (newId other listed)
      obtain ⟨freeRef, same⟩ := newRef
      subst same
      refine Or.inr ⟨holds.byId.insert conflict
        (fun other listed equal => absurd equal (newId other listed)), ?_⟩
      intro conflictRef conflictId
      rw [Dict.get_insert]
      by_cases here : conflict.conflictRef = conflictRef
      · subst here
        rw [if_pos rfl, Option.some.injEq]
        constructor
        · intro equal
          exact ⟨conflict, Or.inr rfl, rfl, equal⟩
        · rintro ⟨other, listed | equal, sameRef, sameId⟩
          · have taken := (holds.refs _ _).mpr ⟨other, listed, sameRef, sameId⟩
            rw [freeRef] at taken
            cases taken
          · rw [← sameId, equal]
      · rw [if_neg here, holds.refs]
        constructor
        · rintro ⟨other, listed, sameRef, sameId⟩
          exact ⟨other, Or.inl listed, sameRef, sameId⟩
        · rintro ⟨other, listed | equal, sameRef, sameId⟩
          · exact ⟨other, listed, sameRef, sameId⟩
          · subst equal
            exact absurd sameRef here

/-- The candidates of a conflict are the active claims of their ids, up to equality. -/
def CandidatesActive (context : ConflictDetectionContext) (conflict : ConflictSet) : Prop :=
  ∀ claim ∈ conflict.candidates, ∃ known, context.claimsById[claim.claimId]? = some known ∧
    pyEq known claim = true

theorem acceptConflict_active {context : ConflictDetectionContext}
    {accepted next : AcceptedConflicts} {conflict : ConflictSet}
    (run : acceptConflict context accepted conflict = .ok next) :
    CandidatesActive context conflict := by
  intro claim candidate
  simp only [acceptConflict] at run
  by_cases missing : missingCandidates context conflict ≠ []
  · rw [if_pos missing] at run
    cases run
  have kept : claim.claimId ∉ missingCandidates context conflict := by
    rw [not_not.mp missing]
    exact List.not_mem_nil
  simp only [missingCandidates, mem_sortBy, List.mem_map, List.mem_filter] at kept
  cases found : context.claimsById[claim.claimId]? with
  | none => exact absurd ⟨claim, ⟨candidate, by rw [found]⟩, rfl⟩ kept
  | some known =>
      refine ⟨known, rfl, ?_⟩
      by_contra different
      exact kept ⟨claim, ⟨candidate, by simp [found, different]⟩, rfl⟩

/-- The tables of the accepted conflicts hold exactly the conflicts of a detection. -/
theorem runConflictDetectors_holds {context : ConflictDetectionContext}
    {detectors : List ConflictDetector} {conflicts : List ConflictSet}
    (run : runConflictDetectors context detectors = .ok conflicts) :
    ∃ accepted : AcceptedConflicts, accepted.Holds (· ∈ conflicts) ∧
      Dict.values accepted.byId = conflicts ∧
      ∀ conflict ∈ conflicts, CandidatesActive context conflict := by
  simp only [runConflictDetectors, bind_ok_iff, pure_ok_iff] at run
  obtain ⟨direct, _, custom, _, accepted, looped, same⟩ := run
  obtain ⟨member, holds, active⟩ := foldlM_invariant
    (fun _ (accepted : AcceptedConflicts) => ∃ member, accepted.Holds member ∧
      ∀ conflict, member conflict → CandidatesActive context conflict) _ _ _ looped
    ⟨_, AcceptedConflicts.holds_empty, fun _ impossible => impossible.elim⟩ (by
      rintro _ conflict state next ⟨member, holds, active⟩ _ stepped
      rcases acceptConflict_ok holds stepped with same | extended
      · exact ⟨member, same ▸ holds, active⟩
      · refine ⟨_, extended, ?_⟩
        rintro other (listed | equal)
        · exact active other listed
        · rw [equal]
          exact acceptConflict_active stepped)
  subst same
  exact ⟨accepted, holds.congr (fun conflict => (holds.byId.mem_values conflict).symm), rfl,
    fun conflict listed => active conflict ((holds.byId.mem_values conflict).mp listed)⟩

/-- The conflicts of a detection are ordered by their ids, which are distinct. -/
theorem runConflictDetectors_sorted {context : ConflictDetectionContext}
    {detectors : List ConflictDetector} {conflicts : List ConflictSet}
    (run : runConflictDetectors context detectors = .ok conflicts) :
    conflicts.Pairwise (fun first second => first.conflictId < second.conflictId) := by
  obtain ⟨accepted, holds, same, _⟩ := runConflictDetectors_holds run
  rw [← same]
  exact holds.byId.values_distinct

/-- The conflicts of a detection have distinct references. -/
theorem runConflictDetectors_refs {context : ConflictDetectionContext}
    {detectors : List ConflictDetector} {conflicts : List ConflictSet}
    (run : runConflictDetectors context detectors = .ok conflicts) :
    Lists (Dict.ofItems (fun conflict : ConflictSet => conflict.conflictRef) conflicts)
      (·.conflictRef) (· ∈ conflicts) := by
  obtain ⟨accepted, holds, _, _⟩ := runConflictDetectors_holds run
  apply Lists.ofItems
  refine (runConflictDetectors_sorted run).imp_of_mem ?_
  intro first second firstListed secondListed below sameRef
  have firstId := (holds.refs _ _).mpr ⟨first, firstListed, rfl, rfl⟩
  have secondId := (holds.refs _ _).mpr ⟨second, secondListed, rfl, rfl⟩
  rw [sameRef, secondId, Option.some.injEq] at firstId
  exact absurd firstId.symm (ne_of_lt below)

/-! ## Reading validity bounds -/

/-- The bounds of a claim's validity are timestamps. -/
def Readable (claim : Claim) : Prop := ∃ bounds, validityBounds claim.validity = .ok bounds

private theorem readBound_ok {bound : Option String} {instant : Option Instant}
    (read : readBound bound = .ok instant) {text : String} (given : bound = some text) :
    ∃ instant, parseUtcIso text = .ok instant := by
  subst given
  obtain ⟨instant, parsed, _⟩ := map_ok_iff.mp read
  exact ⟨instant, parsed⟩

namespace Readable

variable {claim left right : Claim}

theorem bounds_parse (readable : Readable claim) {text : String}
    (given : claim.validity.bind (·.validFrom) = some text ∨
      claim.validity.bind (·.validUntil) = some text) :
    ∃ instant, parseUtcIso text = .ok instant := by
  obtain ⟨bounds, read⟩ := readable
  cases isValid : claim.validity with
  | none => simp [isValid] at given
  | some interval =>
      rw [isValid, validityBounds, bind_ok_iff] at read
      obtain ⟨validFrom, readFrom, read⟩ := read
      rw [bind_ok_iff] at read
      obtain ⟨validUntil, readUntil, _⟩ := read
      rw [isValid, Option.bind_some, Option.bind_some] at given
      rcases given with given | given
      · exact readBound_ok readFrom given
      · exact readBound_ok readUntil given

end Readable

private theorem extremum_ok (before : Instant → Instant → Bool) {texts : List String}
    (parse : ∀ text ∈ texts, ∃ instant, parseUtcIso text = .ok instant) :
    ∃ best, extremum before texts = .ok best := by
  cases texts with
  | nil => exact ⟨none, rfl⟩
  | cons first rest =>
      obtain ⟨instant, parsed⟩ := parse first List.mem_cons_self
      have step : ∀ (best : String × Instant), ∀ text ∈ rest, ∃ next : String × Instant, (do
          let instant ← parseUtcIso text
          return if before instant best.2 then (text, instant) else best) = .ok next := by
        intro best text member
        obtain ⟨instant, parsed⟩ := parse text (List.mem_cons_of_mem _ member)
        rw [bind_of_ok parsed]
        exact ⟨_, rfl⟩
      obtain ⟨best, looped⟩ := exists_foldlM_ok step (first, instant)
      rw [extremum, bind_of_ok parsed, bind_of_ok looped]
      exact ⟨_, rfl⟩

/-- The witness of a pair of readable claims exists. -/
theorem overlapWitness_ok {left right : Claim} (leftReadable : Readable left)
    (rightReadable : Readable right) : ∃ witness, overlapWitness left right = .ok witness := by
  have startsParse : ∀ text ∈ [left.validity.bind (·.validFrom),
      right.validity.bind (·.validFrom)].reduceOption,
      ∃ instant, parseUtcIso text = .ok instant := by
    intro text member
    rw [List.reduceOption_mem_iff] at member
    simp only [List.mem_cons, List.not_mem_nil, or_false] at member
    rcases member with given | given
    · exact leftReadable.bounds_parse (Or.inl given.symm)
    · exact rightReadable.bounds_parse (Or.inl given.symm)
  have endsParse : ∀ text ∈ [left.validity.bind (·.validUntil),
      right.validity.bind (·.validUntil)].reduceOption,
      ∃ instant, parseUtcIso text = .ok instant := by
    intro text member
    rw [List.reduceOption_mem_iff] at member
    simp only [List.mem_cons, List.not_mem_nil, or_false] at member
    rcases member with given | given
    · exact leftReadable.bounds_parse (Or.inr given.symm)
    · exact rightReadable.bounds_parse (Or.inr given.symm)
  obtain ⟨validFrom, starts⟩ :=
    extremum_ok (fun instant best => decide (best < instant)) startsParse
  obtain ⟨validUntil, ends⟩ :=
    extremum_ok (fun instant best => decide (instant < best)) endsParse
  rw [overlapWitness, latest, earliest, bind_of_ok starts, bind_of_ok ends]
  exact ⟨_, rfl⟩

/-- Readable claims can be compared. -/
theorem incompatible_ok (registry : PredicateRegistry) (key : ClaimKey) {left right : Claim}
    (leftReadable : Readable left) (rightReadable : Readable right) :
    ∃ verdict, incompatible registry key left right = .ok verdict := by
  unfold incompatible
  split
  · exact ⟨false, rfl⟩
  · split
    · obtain ⟨leftBounds, leftRead⟩ := leftReadable
      obtain ⟨rightBounds, rightRead⟩ := rightReadable
      rw [validityOverlaps, bind_of_ok leftRead, bind_of_ok rightRead]
      exact ⟨_, rfl⟩
    · exact ⟨false, rfl⟩

private theorem readBounds_ok (bound : ValidityInterval → Option String) {claims : List Claim}
    (parse : ∀ claim ∈ claims, ∀ text, claim.validity.bind bound = some text →
      ∃ instant, parseUtcIso text = .ok instant) : ∃ instants, readBounds bound claims =
        .ok instants := by
  apply exists_mapM_ok
  intro text member
  obtain ⟨claim, among, given⟩ := List.mem_filterMap.mp member
  exact parse claim among text given

private theorem hasAggregateApplicability_ok {claims : List Claim}
    (readable : ∀ claim ∈ claims, Readable claim) :
    ∃ verdict, hasAggregateApplicability claims = .ok verdict := by
  unfold hasAggregateApplicability
  split
  · exact ⟨true, rfl⟩
  · obtain ⟨starts, startsRead⟩ := readBounds_ok (·.validFrom)
      (fun claim member text given => (readable claim member).bounds_parse (Or.inl given))
    obtain ⟨ends, endsRead⟩ := readBounds_ok (·.validUntil)
      (fun claim member text given => (readable claim member).bounds_parse (Or.inr given))
    rw [bind_of_ok startsRead, bind_of_ok endsRead]
    cases starts.max? with
    | none => exact ⟨false, rfl⟩
    | some start =>
        cases ends.min? with
        | none => exact ⟨false, rfl⟩
        | some stop => exact ⟨_, rfl⟩

/-! ## The finding about a key -/

/-- What a finding of the direct detector says, apart from its classification. -/
structure IsFinding (key : ClaimKey) (candidates : List Claim) (witnesses : List JSONObject)
    (conflict : ConflictSet) : Prop where
  anchor : conflict.key = key
  keys : conflict.keys = [key]
  candidates : conflict.candidates = sortBy Claim.claimId candidates
  conflictType : conflict.conflictType = directConflictType
  detectorId : conflict.detectorId = "direct"
  conflictRef : conflict.conflictRef = deriveConflictRef key directConflictType [key] "direct"
  conflictId : conflict.conflictId = deriveConflictId key
    (conflict.candidates.map Claim.claimId) directConflictType [key] "direct"
  witness : conflict.witness =
    objectOf [("incompatible_pairs", .arr (witnesses.map .obj))]

private theorem relatedKeys_eq {key : ClaimKey} {candidates : List Claim}
    (keyed : ∀ claim ∈ candidates, claim.key = key) :
    sortedSet ([key] ++ (sortBy Claim.claimId candidates).map Claim.key) = [key] := by
  apply sortedSet_eq (List.pairwise_singleton _ _)
  intro other
  simp only [List.mem_singleton, List.mem_append, List.mem_map, mem_sortBy]
  constructor
  · exact Or.inl
  · rintro (same | ⟨claim, member, same⟩)
    · exact same
    · rw [← same, keyed claim member]

theorem ConflictSet.fields_of_create {fields : ConflictFields} {conflict : ConflictSet}
    (run : ConflictSet.create fields = .ok conflict) :
    conflict.toConflictFields = fields.normalized := by
  unfold ConflictSet.create at run
  split at run
  · split at run
    · injection run with run
      rw [← run]
    · cases run
  · cases run

private theorem create_exists {fields : ConflictFields}
    (distinct : (fields.candidates.map Claim.claimId).Nodup)
    (present : fields.conflictId ≠ "" ∧ fields.conflictType ≠ "" ∧ fields.conflictClass ≠ "" ∧
      fields.conflictSubclass ≠ "" ∧ fields.detectorId ≠ "") :
    ∃ conflict, ConflictSet.create fields = .ok conflict := by
  unfold ConflictSet.create
  rw [dif_pos distinct, dif_pos present]
  exact ⟨_, rfl⟩

/-- The fields from which a finding is made. -/
def findingFields (context : ConflictDetectionContext) (key : ClaimKey) (candidates : List Claim)
    (witnesses : List JSONObject) (annotations : JSONObject) : ConflictFields where
  conflictId := deriveConflictId key ((sortBy Claim.claimId candidates).map Claim.claimId)
    directConflictType [key] "direct"
  key := key
  candidates := sortBy Claim.claimId candidates
  distinctValues := distinctValuesForClaims key.predicate candidates context.predicateRegistry
  reason :=
    "functional predicate has incompatible active values in overlapping context and validity"
  conflictRef := deriveConflictRef key directConflictType [key] "direct"
  conflictType := directConflictType
  keys := [key]
  conflictClass := (taxonomyFor candidates).1
  conflictSubclass := (taxonomyFor candidates).2
  detectorId := "direct"
  annotations := annotations
  witness := objectOf [("incompatible_pairs", .arr (witnesses.map .obj))]

/-- The annotations of a finding. -/
def findingAnnotations (context : ConflictDetectionContext) (candidates : List Claim)
    (aggregate : Bool) : JSONObject :=
  if aggregate then (annotationsFor candidates context).insert "applicability" (.str "aggregate")
  else annotationsFor candidates context

/-- A finding is created from its fields, once it is known whether it is aggregate. -/
theorem directFinding_eq (context : ConflictDetectionContext) {key : ClaimKey}
    {candidates : List Claim} (witnesses : List JSONObject)
    (keyed : ∀ claim ∈ candidates, claim.key = key) (nonempty : candidates ≠ []) :
    directFinding context key candidates witnesses = (do
      let aggregate ← hasAggregateApplicability candidates
      ConflictSet.create (findingFields context key candidates witnesses
        (findingAnnotations context candidates aggregate))) := by
  unfold directFinding
  cases hasAggregateApplicability candidates with
  | error failure => rfl
  | ok aggregate => ?_
  simp only [bind_of_ok (rfl : (Except.ok aggregate : Result Bool) = _)]
  unfold makeConflict
  simp only
  split
  · rename_i empty
    exact absurd (sortBy_eq_nil.mp empty) nonempty
  · rename_i first rest sorted
    rw [if_neg (by simp), relatedKeys_eq keyed]
    rfl

theorem directFinding_spec {context : ConflictDetectionContext} {key : ClaimKey}
    {candidates : List Claim} {witnesses : List JSONObject} {conflict : ConflictSet}
    (keyed : ∀ claim ∈ candidates, claim.key = key) (nonempty : candidates ≠ [])
    (run : directFinding context key candidates witnesses = .ok conflict) :
    IsFinding key candidates witnesses conflict := by
  rw [directFinding_eq context witnesses keyed nonempty, bind_ok_iff] at run
  obtain ⟨aggregate, _, created⟩ := run
  have fields := ConflictSet.fields_of_create created
  have keys : sortedSet (key :: [key] ++ (sortBy Claim.claimId candidates).map Claim.key) =
      [key] := by
    rw [← relatedKeys_eq keyed]
    apply sortedSet_eq (sortedSet_sorted _)
    intro other
    simp
  have sorted : sortBy Claim.claimId (sortBy Claim.claimId candidates) =
      sortBy Claim.claimId candidates := sortBy_of_pairwise (sortBy_pairwise _ _)
  have normalized : (findingFields context key candidates witnesses
      (findingAnnotations context candidates aggregate)).normalized =
      findingFields context key candidates witnesses
        (findingAnnotations context candidates aggregate) := by
    simp only [ConflictFields.normalized, findingFields, sorted, keys,
      if_neg (deriveConflictRef_ne_empty key directConflictType [key] "direct")]
  rw [normalized] at fields
  constructor <;> rw [fields] <;> rfl

private theorem taxonomy_present (claims : List Claim) :
    (taxonomyFor claims).1 ≠ "" ∧ (taxonomyFor claims).2 ≠ "" := by
  have known : ∀ entry ∈ (claims.filterMap fun claim => kindTaxonomy claim.kind).dedup,
      entry.1 ≠ "" ∧ entry.2 ≠ "" := by
    intro entry member
    obtain ⟨claim, _, found⟩ := List.mem_filterMap.mp (List.mem_dedup.mp member)
    unfold kindTaxonomy at found
    split at found <;> cases found <;> decide
  unfold taxonomyFor
  simp only
  split
  · rename_i only single
    exact known only (by rw [single]; exact List.mem_singleton_self _)
  · rename_i onlyClass single _
    have member : onlyClass ∈
        ((claims.filterMap fun claim => kindTaxonomy claim.kind).dedup.map Prod.fst).dedup := by
      rw [single]
      exact List.mem_singleton_self _
    obtain ⟨entry, listed, same⟩ := List.mem_map.mp (List.mem_dedup.mp member)
    rw [← same]
    exact ⟨(known entry listed).1, by simp⟩
  · exact ⟨by decide, by decide⟩

theorem directFinding_ok (context : ConflictDetectionContext) {key : ClaimKey}
    {candidates : List Claim} (witnesses : List JSONObject)
    (keyed : ∀ claim ∈ candidates, claim.key = key) (nonempty : candidates ≠ [])
    (distinct : (candidates.map Claim.claimId).Nodup)
    (readable : ∀ claim ∈ candidates, Readable claim) :
    ∃ conflict, directFinding context key candidates witnesses = .ok conflict := by
  rw [directFinding_eq context witnesses keyed nonempty]
  obtain ⟨aggregate, decided⟩ := hasAggregateApplicability_ok readable
  rw [bind_of_ok decided]
  apply create_exists
  · exact ((sortBy_perm Claim.claimId candidates).map Claim.claimId).nodup_iff.mpr distinct
  · exact ⟨deriveConflictId_ne_empty _ _ _ _ _, by simp [findingFields, directConflictType],
      (taxonomy_present candidates).1, (taxonomy_present candidates).2, by simp [findingFields]⟩

end Statefuse
