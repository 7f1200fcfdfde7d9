import Statefuse.Auth.Transport
import Statefuse.Materialize.Authority
import Statefuse.Materialize.Refinement
import Statefuse.Merge.Authenticated

/-!
# What an authenticated merge admits

Every operation of the other log lands in one place: added, duplicate or quarantined.  Added
claims and retractions are signed by a known key that is not revoked, and no resolution and
no lifecycle event is added.  What else is added decides nothing about claims and resolutions
(`AdmitsOnlyAuthenticated`).

Comparing a signature raises on characters outside ASCII.  The merge as a whole has its
properties exactly when no signature that it compares has such a character.
-/

namespace Statefuse

open Foundation

section Theory

variable [Runtime] [Hmac]

section Reasons

variable {keyId signature : Option String} {payload : JSONObject}
  {keySecrets : Dict String String} {revokedKeys : List String}

omit [Runtime] [Hmac] in
private theorem truthy_some_iff {text : Option String} {value : String} :
    truthy text = some value ↔ text = some value ∧ value ≠ "" := by
  rw [truthy, Option.filter_eq_some_iff, decide_eq_true_eq]

omit [Runtime] in
/-- The status of a signature can be computed unless it has to be compared and cannot. -/
theorem signatureStatus_exists_iff (spelled : Hmac.Spelled) :
    (∃ status, signatureStatus keyId signature payload keySecrets = .ok status) ↔
      ∀ key text, keyId = some key → signature = some text → key ≠ "" → text ≠ "" →
        keySecrets[key]? ≠ none → isAscii text = true := by
  unfold signatureStatus
  cases keyGiven : truthy keyId with
  | none =>
      refine ⟨fun _ key text isKey _ present => ?_, fun _ => ⟨_, rfl⟩⟩
      rw [truthy_some_iff.mpr ⟨isKey, present⟩] at keyGiven
      cases keyGiven
  | some key =>
      rcases truthy_some_iff.mp keyGiven with ⟨isKey, keyPresent⟩
      cases signatureGiven : truthy signature with
      | none =>
          refine ⟨fun _ key text _ isText _ present => ?_, fun _ => ⟨_, rfl⟩⟩
          rw [truthy_some_iff.mpr ⟨isText, present⟩] at signatureGiven
          cases signatureGiven
      | some text =>
          rcases truthy_some_iff.mp signatureGiven with ⟨isText, textPresent⟩
          cases known : keySecrets[key]? with
          | none =>
              refine ⟨fun _ other _ isOther _ _ _ otherKnown => ?_,
                fun _ => ⟨.unknownKey, by simp [known]⟩⟩
              rw [isKey] at isOther
              injection isOther with same
              rw [← same] at otherKnown
              exact absurd known otherKnown
          | some secret =>
              simp only [known]
              by_cases ascii : isAscii text = true
              · have compared : compareDigest text (signatureDigest payload secret) =
                    .ok (text == signatureDigest payload secret) := by
                  rw [compareDigest, if_pos ⟨ascii, spelled.ascii _ _⟩]
                rw [bind_of_ok compared]
                refine ⟨fun _ _ other _ isOther _ _ _ => ?_, fun _ => ⟨_, rfl⟩⟩
                rw [isText] at isOther
                injection isOther with same
                rw [← same]
                exact ascii
              · constructor
                · intro computed
                  rcases computed with ⟨status, computed⟩
                  rw [compareDigest, if_neg (fun both => ascii both.1)] at computed
                  cases computed
                · intro comparable
                  exact absurd (comparable key text isKey isText keyPresent textPresent
                    (by simp [known])) ascii

omit [Runtime] in
/-- A verified signature is one under a known key. -/
theorem signatureStatus_verified
    (verified : signatureStatus keyId signature payload keySecrets = .ok .verified) :
    ∃ key secret, keyId = some key ∧ key ≠ "" ∧ keySecrets[key]? = some secret := by
  unfold signatureStatus at verified
  cases keyGiven : truthy keyId with
  | none => simp [keyGiven] at verified
  | some key =>
      rcases truthy_some_iff.mp keyGiven with ⟨isKey, present⟩
      cases signatureGiven : truthy signature with
      | none => simp [keyGiven, signatureGiven] at verified
      | some text =>
          simp only [keyGiven, signatureGiven] at verified
          cases known : keySecrets[key]? with
          | none => simp [known] at verified
          | some secret => exact ⟨key, secret, isKey, present, known⟩

omit [Runtime] [Hmac] in
theorem signatureReason_none_iff {subject key : String} {status : Result SignatureStatus} :
    signatureReason subject key status revokedKeys true = .ok none ↔
      ¬(key ≠ "" ∧ key ∈ revokedKeys) ∧ status = .ok .verified := by
  unfold signatureReason
  by_cases revoked : key ≠ "" ∧ key ∈ revokedKeys
  · simp [revoked]
  · rw [if_neg revoked]
    cases status with
    | error failure => simp [Bind.bind, Except.bind]
    | ok status => cases status <;> simp [revoked, Bind.bind, Except.bind, pure, Except.pure]

omit [Runtime] [Hmac] in
theorem signatureReason_exists_iff {subject key : String} {status : Result SignatureStatus} :
    (∃ reason, signatureReason subject key status revokedKeys true = .ok reason) ↔
      (¬(key ≠ "" ∧ key ∈ revokedKeys) → ∃ found, status = .ok found) := by
  unfold signatureReason
  by_cases revoked : key ≠ "" ∧ key ∈ revokedKeys
  · simp [revoked]
  · rw [if_neg revoked]
    cases status with
    | error failure => simp [revoked, Bind.bind, Except.bind]
    | ok status =>
        refine ⟨fun _ _ => ⟨status, rfl⟩, fun _ => ?_⟩
        cases status <;> simp [Bind.bind, Except.bind, pure, Except.pure]

end Reasons

/-- The id of the signing key and the signature of an operation, where they are strings. -/
def Op.signedBy : Op → Option String × Option String
  | .claimAdded _ claim =>
      ((getOrNull claim.provenance "signing_key_id").asStr?,
        (getOrNull claim.provenance "signature").asStr?)
  | .claimRetracted retraction => (retraction.signingKeyId, retraction.signature)
  | _ => (none, none)

/-- A signature that the merge compares has no character outside ASCII. -/
def Op.Comparable (keySecrets : Dict String String) (revokedKeys : List String)
    (requireValidTimestamps : Bool) (op : Op) : Prop :=
  (requireValidTimestamps = true → timestampsParse op = true) →
    ∀ key text, op.signedBy = (some key, some text) → key ≠ "" → text ≠ "" →
      key ∉ revokedKeys → keySecrets[key]? ≠ none → isAscii text = true

/-- The signature of a claim or a retraction is verified. -/
def Op.isVerified (keySecrets : Dict String String) : Op → Bool
  | .claimAdded _ claim => (claimSignatureStatus claim keySecrets).toOption = some .verified
  | .claimRetracted retraction =>
      (retractionSignatureStatus retraction keySecrets).toOption = some .verified
  | _ => false

/-- What an operation needs to be added. -/
def Op.Authenticated (keySecrets : Dict String String) (revokedKeys : List String) : Op → Prop
  | .claimAdded _ claim => ∃ key secret,
      claim.provenance["signing_key_id"]? = some (.str key) ∧ key ∉ revokedKeys ∧
        keySecrets[key]? = some secret ∧ claimSignatureStatus claim keySecrets = .ok .verified
  | .claimRetracted retraction => ∃ key secret,
      retraction.signingKeyId = some key ∧ key ∉ revokedKeys ∧
        keySecrets[key]? = some secret ∧
        retractionSignatureStatus retraction keySecrets = .ok .verified
  | .resolutionAdded .. | .conflictLifecycleEventAdded .. => False
  | _ => True

section Operations

variable {keySecrets : Dict String String} {revokedKeys : List String}
  {requireValidTimestamps : Bool} {op : Op}

omit [Hmac] in
/-- The text under which a key may be revoked is its id. -/
private theorem keyText_of_str {provenance : JSONObject} {key : String}
    (isKey : (getOrNull provenance "signing_key_id").asStr? = some key) :
    provenance["signing_key_id"]? = some (.str key) ∧
      (if isTrue (provenance["signing_key_id"]?.getD (.str "")) then
        pyStr (provenance["signing_key_id"]?.getD (.str "")) else "") = key := by
  rw [getOrNull, JsonValue.asStr_eq_some] at isKey
  cases found : provenance["signing_key_id"]? with
  | none =>
      rw [found] at isKey
      cases isKey
  | some value =>
      rw [found, Option.getD_some] at isKey
      subst isKey
      refine ⟨rfl, ?_⟩
      rw [Option.getD_some, pyStr_str]
      by_cases absent : key = ""
      · rw [absent]
        split <;> rfl
      · rw [if_pos]
        simp [isTrue, absent]

/-- The merge finds a reason, or none, unless it has to compare a signature and cannot. -/
theorem authenticatedReason_exists_iff (spelled : Hmac.Spelled) :
    (∃ reason, authenticatedReason keySecrets revokedKeys true requireValidTimestamps op =
        .ok reason) ↔
      op.Comparable keySecrets revokedKeys requireValidTimestamps := by
  unfold authenticatedReason Op.Comparable
  by_cases undated : requireValidTimestamps = true ∧ ¬timestampsParse op = true
  · rw [if_pos undated]
    exact ⟨fun _ dated => absurd (dated undated.1) undated.2, fun _ => ⟨_, rfl⟩⟩
  · rw [if_neg undated]
    have dated : requireValidTimestamps = true → timestampsParse op = true := by
      intro required
      by_contra unread
      exact undated ⟨required, unread⟩
    cases op with
    | claimAdded header claim =>
        simp only [signatureReason_exists_iff, claimSignatureStatus,
          signatureStatus_exists_iff spelled]
        constructor
        · intro computed _ key text signed keyPresent textPresent current known
          have isKey := congrArg Prod.fst signed
          have isText := congrArg Prod.snd signed
          refine computed ?_ key text isKey isText keyPresent textPresent known
          rw [(keyText_of_str isKey).2]
          exact fun revoked => current revoked.2
        · intro comparable current key text isKey isText keyPresent textPresent known
          rw [(keyText_of_str isKey).2] at current
          exact comparable dated key text (Prod.ext isKey isText) keyPresent textPresent
            (fun revoked => current ⟨keyPresent, revoked⟩) known
    | claimRetracted retraction =>
        simp only [signatureReason_exists_iff, retractionSignatureStatus,
          signatureStatus_exists_iff spelled]
        constructor
        · intro computed _ key text signed keyPresent textPresent current known
          have isKey : retraction.signingKeyId = some key := congrArg Prod.fst signed
          have isText := congrArg Prod.snd signed
          refine computed ?_ key text isKey isText keyPresent textPresent known
          rw [isKey]
          exact fun revoked => current revoked.2
        · intro comparable current key text isKey isText keyPresent textPresent known
          rw [isKey] at current
          exact comparable dated key text (Prod.ext isKey isText) keyPresent textPresent
            (fun revoked => current ⟨keyPresent, revoked⟩) known
    | sourceAdded | evidenceAdded | decisionAdded | derivationAdded | resolutionAdded
    | conflictLifecycleEventAdded =>
        refine ⟨fun _ _ key text signed => ?_, fun _ => ⟨_, rfl⟩⟩
        cases signed

/-- An operation without a reason is authenticated. -/
theorem authenticated_of_reason
    (admitted : authenticatedReason keySecrets revokedKeys true requireValidTimestamps op =
      .ok none) :
    op.Authenticated keySecrets revokedKeys ∧
      (op.isAuthoritative = true → op.isVerified keySecrets = true) := by
  unfold authenticatedReason at admitted
  by_cases undated : requireValidTimestamps = true ∧ ¬timestampsParse op = true
  · rw [if_pos undated] at admitted
    cases admitted
  · rw [if_neg undated] at admitted
    cases op with
    | claimAdded header claim =>
        simp only [signatureReason_none_iff] at admitted
        rcases admitted with ⟨current, verified⟩
        rcases signatureStatus_verified verified with ⟨key, secret, isKey, present, known⟩
        rcases keyText_of_str isKey with ⟨found, keyText⟩
        rw [keyText] at current
        refine ⟨⟨key, secret, found, fun revoked => current ⟨present, revoked⟩, known,
          verified⟩, fun _ => ?_⟩
        rw [Op.isVerified, verified]
        rfl
    | claimRetracted retraction =>
        simp only [signatureReason_none_iff] at admitted
        rcases admitted with ⟨current, verified⟩
        rcases signatureStatus_verified verified with ⟨key, secret, isKey, present, known⟩
        rw [isKey] at current
        refine ⟨⟨key, secret, isKey, fun revoked => current ⟨present, revoked⟩, known,
          verified⟩, fun _ => ?_⟩
        rw [Op.isVerified, verified]
        rfl
    | resolutionAdded header resolution => cases admitted
    | conflictLifecycleEventAdded header event => cases admitted
    | sourceAdded | evidenceAdded | decisionAdded | derivationAdded =>
        exact ⟨trivial, fun authoritative => nomatch authoritative⟩

end Operations

/-! ## Where operations land -/

inductive Landing where
  | added
  | duplicate
  | quarantined (entry : QuarantinedOp)

def Landing.isAdded : Landing → Bool
  | added => true
  | _ => false

def Landing.isDuplicate : Landing → Bool
  | duplicate => true
  | _ => false

def Landing.quarantine : Landing → Option QuarantinedOp
  | quarantined entry => some entry
  | _ => none

/-- Where an operation lands beside the operations of a log. -/
def landing (base : OpLog) (reason : Op → Option String) (op : Op) : Landing :=
  match reason op with
  | some text => .quarantined ⟨op.opId, op, op, text⟩
  | none =>
      match base.ops[op.opId]? with
      | none => .added
      | some existing =>
          if pyEq existing op then .duplicate
          else .quarantined ⟨op.opId, existing, op, "op_id collision with different payload"⟩

/-- The report after one more operation. -/
def MergeReport.land (report : MergeReport) (op : Op) : Landing → MergeReport
  | .added =>
      { report with
        merged := report.merged.insert op
        addedOpIds := report.addedOpIds ++ [op.opId] }
  | .duplicate => { report with duplicateOpIds := report.duplicateOpIds ++ [op.opId] }
  | .quarantined entry => { report with quarantined := report.quarantined ++ [entry] }

section Merging

variable {keySecrets : Dict String String} {revokedKeys : List String}
  {requireValidTimestamps : Bool} {base : OpLog} {reason : Op → Option String}
  {done : List Op} {report : MergeReport} {op : Op}

theorem mergeStep_eq
    (isReason : authenticatedReason keySecrets revokedKeys true requireValidTimestamps op =
      .ok (reason op)) :
    mergeStep keySecrets revokedKeys true requireValidTimestamps report op =
      .ok (report.land op (landing report.merged reason op)) := by
  rw [mergeStep, bind_of_ok isReason, landing]
  cases reason op with
  | some text => rfl
  | none =>
      cases report.merged.ops[op.opId]? with
      | none => rfl
      | some existing =>
          by_cases same : pyEq existing op = true
          · simp only [same, if_true]
            rfl
          · simp only [same]
            rfl

omit [Hmac] in
theorem landing_added_iff :
    landing base reason op = .added ↔ reason op = none ∧ base.ops[op.opId]? = none := by
  unfold landing
  cases reason op with
  | some text => simp
  | none =>
      cases base.ops[op.opId]? with
      | none => simp
      | some existing =>
          by_cases same : pyEq existing op = true <;> simp [same]

/-- What a report says about the operations that were merged into a log. -/
structure MergeReport.Reports (report : MergeReport) (base : OpLog)
    (reason : Op → Option String) (done : List Op) : Prop where
  merged : ∀ (opId : String) (op : Op), report.merged.ops[opId]? = some op ↔
    base.ops[opId]? = some op ∨ (op ∈ done ∧ op.opId = opId ∧ landing base reason op = .added)
  added : report.addedOpIds =
    (done.filter fun op => (landing base reason op).isAdded).map Op.opId
  duplicate : report.duplicateOpIds =
    (done.filter fun op => (landing base reason op).isDuplicate).map Op.opId
  quarantined : report.quarantined = done.filterMap fun op => (landing base reason op).quarantine

omit [Hmac] in
theorem MergeReport.reports_start : MergeReport.Reports ⟨base, [], [], []⟩ base reason [] where
  merged := by simp
  added := rfl
  duplicate := rfl
  quarantined := rfl

omit [Hmac] in
/-- An operation with a new id lands as if it were merged alone. -/
theorem MergeReport.Reports.landing_eq (reports : report.Reports base reason done)
    (new : ∀ other ∈ done, other.opId ≠ op.opId) :
    landing report.merged reason op = landing base reason op := by
  have unchanged : report.merged.ops[op.opId]? = base.ops[op.opId]? := by
    apply Option.ext
    intro other
    rw [reports.merged]
    constructor
    · intro found
      rcases found with inBase | taken
      · exact inBase
      · exact absurd taken.2.1 (new other taken.1)
    · exact Or.inl
  rw [landing, landing, unchanged]

omit [Hmac] in
theorem MergeReport.Reports.step (reports : report.Reports base reason done)
    (new : ∀ other ∈ done, other.opId ≠ op.opId) :
    (report.land op (landing report.merged reason op)).Reports base reason (done ++ [op]) := by
  rw [reports.landing_eq new]
  have kept : ∀ landed : Landing, landing base reason op = landed → landed.isAdded = false →
      ∀ (opId : String) (other : Op), report.merged.ops[opId]? = some other ↔
        base.ops[opId]? = some other ∨
          (other ∈ done ++ [op] ∧ other.opId = opId ∧ landing base reason other = .added) := by
    intro landed isLanded notAdded opId other
    rw [reports.merged, List.mem_append, List.mem_singleton]
    constructor
    · intro found
      rcases found with inBase | taken
      · exact Or.inl inBase
      · exact Or.inr ⟨Or.inl taken.1, taken.2⟩
    · intro found
      rcases found with inBase | ⟨earlier | isOp, taken⟩
      · exact Or.inl inBase
      · exact Or.inr ⟨earlier, taken⟩
      · rw [isOp, isLanded] at taken
        rw [taken.2] at notAdded
        cases notAdded
  cases landed : landing base reason op with
  | added =>
      refine ⟨?_, ?_, ?_, ?_⟩
      · intro opId other
        have absent := (landing_added_iff.mp landed).2
        change (report.merged.ops.insert op.opId op)[opId]? = some other ↔ _
        rw [Dict.get_insert]
        by_cases here : op.opId = opId
        · rw [if_pos here]
          constructor
          · intro found
            injection found with found
            subst found
            exact Or.inr ⟨by simp, here, landed⟩
          · intro found
            rcases found with inBase | ⟨listed, sameId, _⟩
            · rw [← here, absent] at inBase
              cases inBase
            · rcases List.mem_append.mp listed with earlier | isOp
              · exact absurd (sameId.trans here.symm) (new other earlier)
              · rw [List.mem_singleton.mp isOp]
        · rw [if_neg here, reports.merged, List.mem_append, List.mem_singleton]
          constructor
          · intro found
            rcases found with inBase | taken
            · exact Or.inl inBase
            · exact Or.inr ⟨Or.inl taken.1, taken.2⟩
          · intro found
            rcases found with inBase | ⟨earlier | isOp, taken⟩
            · exact Or.inl inBase
            · exact Or.inr ⟨earlier, taken⟩
            · rw [isOp] at taken
              exact absurd taken.1 here
      · simp [MergeReport.land, reports.added, List.filter_append, landed, Landing.isAdded]
      · simp [MergeReport.land, reports.duplicate, List.filter_append, landed,
          Landing.isDuplicate]
      · simp [MergeReport.land, reports.quarantined, List.filterMap_append, landed,
          Landing.quarantine]
  | duplicate =>
      refine ⟨kept _ landed rfl, ?_, ?_, ?_⟩
      · simp [MergeReport.land, reports.added, List.filter_append, landed, Landing.isAdded]
      · simp [MergeReport.land, reports.duplicate, List.filter_append, landed,
          Landing.isDuplicate]
      · simp [MergeReport.land, reports.quarantined, List.filterMap_append, landed,
          Landing.quarantine]
  | quarantined entry =>
      refine ⟨kept _ landed rfl, ?_, ?_, ?_⟩
      · simp [MergeReport.land, reports.added, List.filter_append, landed, Landing.isAdded]
      · simp [MergeReport.land, reports.duplicate, List.filter_append, landed,
          Landing.isDuplicate]
      · simp [MergeReport.land, reports.quarantined, List.filterMap_append, landed,
          Landing.quarantine]

omit [Hmac] in
/-- The operations of a log have distinct ids. -/
theorem OpLog.iterOps_ids (log : OpLog) :
    log.iterOps.Pairwise fun first second => first.opId ≠ second.opId := by
  have keyed : Keyed log.ops Op.opId := log.keyed
  exact keyed.lists.values_distinct.imp fun below => ne_of_lt below

omit [Hmac] in
theorem OpLog.eq_of_mem_iff {first second : OpLog}
    (same : ∀ op, op ∈ first.iterOps ↔ op ∈ second.iterOps) : first = second := by
  apply OpLog.ext
  apply Dict.ext
  intro opId
  apply Option.ext
  intro op
  have toList : ∀ log : OpLog, log.ops[opId]? = some op ↔ op ∈ log.iterOps ∧ op.opId = opId := by
    intro log
    rw [OpLog.mem_iterOps]
    constructor
    · intro found
      have sameId := log.keyed opId op found
      exact ⟨sameId ▸ found, sameId⟩
    · intro found
      exact found.2 ▸ found.1
  rw [toList, toList, same]

omit [Hmac] in
theorem OpLog.ofOps_iterOps (log : OpLog) : OpLog.ofOps log.iterOps = .ok log := by
  have bound : IdsBound log.iterOps := by
    intro first firstIn second secondIn same
    rw [OpLog.mem_iterOps] at firstIn secondIn
    rw [same, secondIn] at firstIn
    injection firstIn with equal
    exact equal.symm
  rcases OpLog.ofOps_ok bound with ⟨copy, run, members⟩
  rw [run, OpLog.eq_of_mem_iff members]

/-- The report of a merge, when every operation has a reason or none. -/
theorem mergeCheckedAuthenticated_reports (first : OpLog) {second : OpLog}
    (reasons : ∀ op ∈ second.iterOps,
      authenticatedReason keySecrets revokedKeys true requireValidTimestamps op =
        .ok (reason op)) :
    ∃ report, mergeCheckedAuthenticated first second keySecrets revokedKeys true
        requireValidTimestamps = .ok report ∧ report.Reports first reason second.iterOps := by
  rw [mergeCheckedAuthenticated, bind_of_ok first.ofOps_iterOps]
  refine exists_foldlM_invariant (fun done (report : MergeReport) =>
    report.Reports first reason done) second.iterOps _ MergeReport.reports_start ?_
  intro done op rest report split reports
  have isReason := reasons op (by rw [split]; simp)
  have new : ∀ other ∈ done, other.opId ≠ op.opId := by
    intro other earlier
    have distinct := second.iterOps_ids
    rw [split] at distinct
    exact (List.pairwise_append.mp distinct).2.2 other earlier op List.mem_cons_self
  exact ⟨_, mergeStep_eq isReason, reports.step new⟩

omit [Hmac] in
private theorem landing_isAdded {op : Op} :
    (landing base reason op).isAdded = true ↔ landing base reason op = .added := by
  cases landing base reason op <;> simp [Landing.isAdded]

omit [Hmac] in
theorem MergeReport.Reports.mem_added {second : OpLog}
    (reports : report.Reports base reason second.iterOps) (listed : op ∈ second.iterOps) :
    op.opId ∈ report.addedOpIds ↔ landing base reason op = .added := by
  rw [reports.added, List.mem_map]
  constructor
  · intro found
    rcases found with ⟨other, otherIn, sameId⟩
    rw [List.mem_filter, landing_isAdded] at otherIn
    have otherFound := (second.mem_iterOps other).mp otherIn.1
    rw [sameId, (second.mem_iterOps op).mp listed] at otherFound
    injection otherFound with same
    rw [same]
    exact otherIn.2
  · intro landed
    exact ⟨op, List.mem_filter.mpr ⟨listed, landing_isAdded.mpr landed⟩, rfl⟩

omit [Hmac] in
/-- Every operation lands in one place. -/
theorem landings_perm (base : OpLog) (reason : Op → Option String) (ops : List Op) :
    ((ops.filter fun op => (landing base reason op).isAdded).map Op.opId ++
      (ops.filter fun op => (landing base reason op).isDuplicate).map Op.opId ++
      (ops.filterMap fun op => (landing base reason op).quarantine).map (·.opId)).Perm
        (ops.map Op.opId) := by
  induction ops with
  | nil => exact List.Perm.nil
  | cons op rest inductionHypothesis =>
      cases landed : landing base reason op with
      | added =>
          simp only [List.filter_cons, List.filterMap_cons, landed, Landing.isAdded,
            Landing.isDuplicate, Landing.quarantine, if_true, List.map_cons, List.cons_append]
          exact inductionHypothesis.cons op.opId
      | duplicate =>
          simp only [List.filter_cons, List.filterMap_cons, landed, Landing.isAdded,
            Landing.isDuplicate, Landing.quarantine, if_true, List.map_cons]
          exact (List.perm_middle.append_right _).trans (inductionHypothesis.cons op.opId)
      | quarantined entry =>
          have sameId : entry.opId = op.opId := by
            unfold landing at landed
            cases found : reason op with
            | some text =>
                simp only [found] at landed
                injection landed with landed
                rw [← landed]
            | none =>
                simp only [found] at landed
                cases prior : base.ops[op.opId]? with
                | none =>
                    simp only [prior] at landed
                    cases landed
                | some existing =>
                    simp only [prior] at landed
                    split at landed
                    · cases landed
                    · injection landed with landed
                      rw [← landed]
          simp only [List.filter_cons, List.filterMap_cons, landed, Landing.isAdded,
            Landing.isDuplicate, Landing.quarantine, List.map_cons, sameId]
          exact List.perm_middle.trans (inductionHypothesis.cons op.opId)

omit [Hmac] in
/-- Merging again into the merged log finds the added operations there. -/
theorem MergeReport.Reports.landing_again (reports : report.Reports base reason done)
    (listed : op ∈ done) :
    landing report.merged reason op =
      if (landing base reason op).isAdded then .duplicate else landing base reason op := by
  by_cases added : landing base reason op = .added
  · have found := (reports.merged op.opId op).mpr (Or.inr ⟨listed, rfl, added⟩)
    rw [if_pos (landing_isAdded.mpr added), landing, (landing_added_iff.mp added).1]
    simp [found]
  · rw [if_neg (mt landing_isAdded.mp added)]
    unfold landing
    cases isReason : reason op with
    | some text => rfl
    | none =>
        cases prior : base.ops[op.opId]? with
        | none => exact absurd (landing_added_iff.mpr ⟨isReason, prior⟩) added
        | some existing =>
            have found := (reports.merged op.opId existing).mpr (Or.inl prior)
            simp only [found]

end Merging

/-! ## The properties of the merge -/

omit [Hmac] in
theorem OpLog.keep_keyed (log : OpLog) (test : Op → Bool) (opId : String) (op : Op)
    (found : (Std.ExtTreeMap.filter (fun _ op => test op) log.ops)[opId]? = some op) :
    op.opId = opId := by
  rw [Dict.get_filter, Option.filter_eq_some_iff] at found
  exact log.keyed opId op found.1

/-- The operations of a log that pass a test. -/
def OpLog.keep (log : OpLog) (test : Op → Bool) : OpLog where
  ops := Std.ExtTreeMap.filter (fun _ op => test op) log.ops
  keyed := log.keep_keyed test

omit [Hmac] in
theorem OpLog.iterOps_keep (log : OpLog) (test : Op → Bool) :
    (log.keep test).iterOps = log.iterOps.filter test := by
  have entries : (Std.ExtTreeMap.filter (fun _ op => test op) log.ops : Dict String Op).toList =
      log.ops.toList.filter fun entry => test entry.2 := by
    apply Dict.toList_eq_of_sorted
    · exact (Dict.toList_sorted log.ops).filter _
    · intro opId op
      rw [List.mem_filter, Dict.mem_toList, Dict.get_filter, Option.filter_eq_some_iff]
  rw [iterOps, keep, Dict.values, entries, iterOps, Dict.values, List.filter_map]
  rfl

/-- What an authenticated merge that requires signatures guarantees. -/
structure AdmitsOnlyAuthenticated (first second : OpLog) (keySecrets : Dict String String)
    (revokedKeys : List String) (requireValidTimestamps : Bool) (report : MergeReport) :
    Prop where
  kept : ∀ op ∈ first.iterOps, op ∈ report.merged.iterOps
  taken : ∀ op, op ∈ report.merged.iterOps ↔
    op ∈ first.iterOps ∨ op ∈ second.iterOps ∧ op.opId ∈ report.addedOpIds
  /-- The operations of the other log land in one place each. -/
  landed : (report.addedOpIds ++ report.duplicateOpIds ++
    report.quarantined.map fun entry => entry.opId).Perm (second.iterOps.map Op.opId)
  once : (report.addedOpIds ++ report.duplicateOpIds ++
    report.quarantined.map fun entry => entry.opId).Nodup
  authenticated : ∀ op ∈ second.iterOps, op.opId ∈ report.addedOpIds →
    op.Authenticated keySecrets revokedKeys
  again : ∃ rerun, mergeCheckedAuthenticated report.merged second keySecrets revokedKeys true
      requireValidTimestamps = .ok rerun ∧ rerun.merged = report.merged ∧
    rerun.addedOpIds = [] ∧
    rerun.quarantined.map (fun entry => entry.opId) =
      report.quarantined.map fun entry => entry.opId
  /-- Dropping what is no verified claim or retraction of the other log changes nothing about
  claims and resolutions. -/
  powerless : ∀ (registry : PredicateRegistry) (detectors : List ConflictDetector)
      (validAt : Option String) (context : JSONObject) (state : MemoryState),
    (∀ detector ∈ detectors, ReadsClaims detector) →
    materialize report.merged registry detectors validAt context = .ok state →
    ∃ narrowed narrowState, mergeCheckedAuthenticated first
        (second.keep (Op.isVerified keySecrets)) keySecrets revokedKeys true
        requireValidTimestamps = .ok narrowed ∧
      materialize narrowed.merged registry detectors validAt context = .ok narrowState ∧
      state.SameAuthority narrowState

section Merged

variable {first second : OpLog} {keySecrets : Dict String String} {revokedKeys : List String}
  {requireValidTimestamps : Bool} {reason : Op → Option String} {report : MergeReport}

theorem powerless_of_reports
    (reasons : ∀ op ∈ second.iterOps,
      authenticatedReason keySecrets revokedKeys true requireValidTimestamps op =
        .ok (reason op))
    (reports : report.Reports first reason second.iterOps) {registry : PredicateRegistry}
    {detectors : List ConflictDetector} {validAt : Option String} {context : JSONObject}
    {state : MemoryState} (reads : ∀ detector ∈ detectors, ReadsClaims detector)
    (run : materialize report.merged registry detectors validAt context = .ok state) :
    ∃ narrowed narrowState, mergeCheckedAuthenticated first
        (second.keep (Op.isVerified keySecrets)) keySecrets revokedKeys true
        requireValidTimestamps = .ok narrowed ∧
      materialize narrowed.merged registry detectors validAt context = .ok narrowState ∧
      state.SameAuthority narrowState := by
  have narrowReasons : ∀ op ∈ (second.keep (Op.isVerified keySecrets)).iterOps,
      authenticatedReason keySecrets revokedKeys true requireValidTimestamps op =
        .ok (reason op) := by
    intro op listed
    rw [OpLog.iterOps_keep, List.mem_filter] at listed
    exact reasons op listed.1
  rcases mergeCheckedAuthenticated_reports first narrowReasons with
    ⟨narrowed, merged, narrowReports⟩
  let keeps : Op → Bool := fun op =>
    decide (first.ops[op.opId]? = some op) || op.isVerified keySecrets
  have kept : narrowed.merged.iterOps = report.merged.iterOps.filter keeps := by
    have same : narrowed.merged = report.merged.keep keeps := by
      apply OpLog.eq_of_mem_iff
      intro op
      rw [OpLog.iterOps_keep, List.mem_filter, OpLog.mem_iterOps, OpLog.mem_iterOps,
        narrowReports.merged, reports.merged, OpLog.iterOps_keep, List.mem_filter,
        Bool.or_eq_true, decide_eq_true_eq]
      constructor
      · intro found
        rcases found with inFirst | ⟨⟨listed, verified⟩, landed⟩
        · exact ⟨Or.inl inFirst, Or.inl inFirst⟩
        · exact ⟨Or.inr ⟨listed, landed⟩, Or.inr verified⟩
      · intro found
        rcases found with ⟨inFirst | ⟨listed, landed⟩, kept⟩
        · exact Or.inl inFirst
        · rcases kept with inFirst | verified
          · exact Or.inl inFirst
          · exact Or.inr ⟨⟨listed, verified⟩, landed⟩
    rw [same, OpLog.iterOps_keep]
  have authority : ∀ op ∈ report.merged.iterOps, op.isAuthoritative = true →
      keeps op = true := by
    intro op listed authoritative
    rw [OpLog.mem_iterOps, reports.merged] at listed
    rw [Bool.or_eq_true, decide_eq_true_eq]
    rcases listed with inFirst | ⟨listed, _, landed⟩
    · exact Or.inl inFirst
    · have admitted := reasons op listed
      rw [(landing_added_iff.mp landed).1] at admitted
      exact Or.inr ((authenticated_of_reason admitted).2 authoritative)
  rcases materialize_narrowed authority kept reads run with ⟨narrowState, narrowRun, same⟩
  exact ⟨narrowed, narrowState, merged, narrowRun, same⟩

theorem admitsOnlyAuthenticated_of_reports
    (reasons : ∀ op ∈ second.iterOps,
      authenticatedReason keySecrets revokedKeys true requireValidTimestamps op =
        .ok (reason op))
    (reports : report.Reports first reason second.iterOps) :
    AdmitsOnlyAuthenticated first second keySecrets revokedKeys requireValidTimestamps report := by
  have landed := landings_perm first reason second.iterOps
  rw [← reports.added, ← reports.duplicate, ← reports.quarantined] at landed
  refine ⟨?_, ?_, landed, ?_, ?_, ?_, ?_⟩
  · intro op listed
    rw [OpLog.mem_iterOps] at listed ⊢
    exact (reports.merged op.opId op).mpr (Or.inl listed)
  · intro op
    rw [report.merged.mem_iterOps, reports.merged, first.mem_iterOps]
    constructor
    · intro found
      rcases found with inFirst | ⟨listed, _, landed⟩
      · exact Or.inl inFirst
      · exact Or.inr ⟨listed, (reports.mem_added listed).mpr landed⟩
    · intro found
      rcases found with inFirst | ⟨listed, added⟩
      · exact Or.inl inFirst
      · exact Or.inr ⟨listed, rfl, (reports.mem_added listed).mp added⟩
  · exact landed.nodup_iff.mpr (List.pairwise_map.mpr second.iterOps_ids)
  · intro op listed added
    have admitted := reasons op listed
    rw [(landing_added_iff.mp ((reports.mem_added listed).mp added)).1] at admitted
    exact (authenticated_of_reason admitted).1
  · rcases mergeCheckedAuthenticated_reports report.merged reasons with
      ⟨rerun, merged, again⟩
    have noneAdded : ∀ op ∈ second.iterOps, landing report.merged reason op ≠ .added := by
      intro op listed added
      rw [reports.landing_again listed] at added
      split at added
      · cases added
      · rename_i notAdded
        rw [added] at notAdded
        exact notAdded rfl
    refine ⟨rerun, merged, ?_, ?_, ?_⟩
    · apply OpLog.eq_of_mem_iff
      intro op
      rw [OpLog.mem_iterOps, OpLog.mem_iterOps, again.merged]
      constructor
      · intro found
        rcases found with before | ⟨listed, _, added⟩
        · exact before
        · exact absurd added (noneAdded op listed)
      · exact Or.inl
    · rw [again.added, List.map_eq_nil_iff, List.filter_eq_nil_iff]
      intro op listed added
      exact noneAdded op listed (landing_isAdded.mp added)
    · have entries : ∀ op ∈ second.iterOps, (landing report.merged reason op).quarantine =
          (landing first reason op).quarantine := by
        intro op listed
        rw [reports.landing_again listed]
        cases landing first reason op <;> rfl
      rw [again.quarantined, reports.quarantined, List.filterMap_congr entries]
  · intro registry detectors validAt context state reads run
    exact powerless_of_reports reasons reports reads run

end Merged

/-- A merge that returns has found a reason, or none, for every operation. -/
theorem authenticatedReason_of_merged {first second : OpLog} {keySecrets : Dict String String}
    {revokedKeys : List String} {requireValidTimestamps : Bool} {report : MergeReport}
    (merged : mergeCheckedAuthenticated first second keySecrets revokedKeys true
      requireValidTimestamps = .ok report) {op : Op} (listed : op ∈ second.iterOps) :
    ∃ reason, authenticatedReason keySecrets revokedKeys true requireValidTimestamps op =
      .ok reason := by
  rw [mergeCheckedAuthenticated, bind_of_ok first.ofOps_iterOps] at merged
  rcases List.append_of_mem listed with ⟨before, after, split⟩
  rw [split, List.foldlM_append, bind_ok_iff] at merged
  rcases merged with ⟨state, _, merged⟩
  rw [List.foldlM_cons, bind_ok_iff] at merged
  rcases merged with ⟨next, stepped, _⟩
  rcases bind_ok_iff.mp stepped with ⟨reason, isReason, _⟩
  exact ⟨reason, isReason⟩

/-- The merge guarantees this exactly when every signature it compares is spelled in ASCII. -/
theorem mergeCheckedAuthenticated_admits_iff (spelled : Hmac.Spelled) (first second : OpLog)
    (keySecrets : Dict String String) (revokedKeys : List String)
    (requireValidTimestamps : Bool) :
    (∃ report, mergeCheckedAuthenticated first second keySecrets revokedKeys true
        requireValidTimestamps = .ok report ∧
      AdmitsOnlyAuthenticated first second keySecrets revokedKeys requireValidTimestamps
        report) ↔
      ∀ op ∈ second.iterOps, op.Comparable keySecrets revokedKeys requireValidTimestamps := by
  constructor
  · intro merges op listed
    rcases merges with ⟨report, merged, _⟩
    exact (authenticatedReason_exists_iff spelled).mp (authenticatedReason_of_merged merged listed)
  · intro comparable
    have each : ∀ op, ∃ reason, op ∈ second.iterOps →
        authenticatedReason keySecrets revokedKeys true requireValidTimestamps op =
          .ok reason := by
      intro op
      by_cases listed : op ∈ second.iterOps
      · rcases (authenticatedReason_exists_iff spelled).mpr (comparable op listed) with
          ⟨reason, isReason⟩
        exact ⟨reason, fun _ => isReason⟩
      · exact ⟨none, fun inside => absurd inside listed⟩
    choose reason reasons using each
    rcases mergeCheckedAuthenticated_reports first reasons with
      ⟨report, merged, reports⟩
    exact ⟨report, merged, admitsOnlyAuthenticated_of_reports reasons reports⟩

end Theory

section Example

attribute [local instance] Reference.runtime Reference.spellingHmac

private def trustedKeys : Dict String String := (∅ : Dict String String).insert "k" "secret"

private def incomingHeader : OpHeader := ⟨"o", "r", Reference.timestamp⟩

private theorem withdrawal_checked : RetractionFields.check
    ⟨⟨"t", "r", Reference.timestamp⟩, some "c", none, [], "withdrawn", none, none, none, none⟩ =
      .ok () := rfl

private def withdrawal : ClaimRetracted where
  opId := "t"
  replicaId := "r"
  timestamp := Reference.timestamp
  targetClaimId := some "c"
  targetClaimRef := none
  evidenceIds := []
  reason := "withdrawn"
  supersedesClaimId := none
  supersedesClaimRef := none
  signingKeyId := none
  signature := none
  checked := withdrawal_checked

private def signedLog : OpLog :=
  Reference.logOf [.claimRetracted (signRetraction withdrawal "secret" "k")]

/-- A signed retraction is compared and admitted. -/
theorem mergeCheckedAuthenticated_admits_retraction :
    ∃ report, mergeCheckedAuthenticated OpLog.empty signedLog trustedKeys [] true true =
        .ok report ∧
      AdmitsOnlyAuthenticated OpLog.empty signedLog trustedKeys [] true report := by
  apply (mergeCheckedAuthenticated_admits_iff Reference.spellingHmac_spelled OpLog.empty signedLog
    trustedKeys [] true).mpr
  intro op listed _ key text signed _ _ _ _
  rw [OpLog.mem_iterOps, signedLog, Reference.logOf, List.foldl_cons, List.foldl_nil,
    OpLog.insert, Dict.get_insert] at listed
  split at listed
  · injection listed with isRetraction
    rw [← isRetraction] at signed
    have isText := congrArg Prod.snd signed
    injection isText with isText
    rw [← isText]
    exact Reference.spellingHmac_spelled.ascii _ _
  · simp [OpLog.empty] at listed

/-- A claim whose signature has a character outside ASCII. -/
private def accentedClaim : Claim :=
  { Reference.fact "c" Reference.key (.str "v") [] with
    provenance := objectOf [("signing_key_id", .str "k"), ("signature", .str "é")] }

private def accentedLog : OpLog := Reference.logOf [.claimAdded incomingHeader accentedClaim]

/-- One such claim in the other log, and the merge raises. -/
theorem merge_raises_on_signature :
    ¬∃ report, mergeCheckedAuthenticated OpLog.empty accentedLog trustedKeys [] true true =
      .ok report := by
  intro merges
  rcases merges with ⟨report, merged⟩
  have listed : Op.claimAdded incomingHeader accentedClaim ∈ accentedLog.iterOps := by
    rw [OpLog.mem_iterOps]
    exact Dict.get_insert_self _ _ _
  have comparable := (authenticatedReason_exists_iff Reference.spellingHmac_spelled).mp
    (authenticatedReason_of_merged merged listed)
  have dated : timestampsParse (.claimAdded incomingHeader accentedClaim) = true := by
    decide +kernel
  have signed : (Op.claimAdded incomingHeader accentedClaim).signedBy =
      (some "k", some "é") := by
    simp [Op.signedBy, accentedClaim, getOrNull, get_objectOf, List.lookup]
  have ascii := comparable (fun _ => dated) "k" "é" signed (by decide) (by decide) (by simp)
    (by simp [trustedKeys])
  revert ascii
  decide +kernel

end Example

end Statefuse
