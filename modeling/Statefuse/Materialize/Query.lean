import Statefuse.Materialize.State

/-!
# Queries over the conflicts of a state

`MemoryState.findConflicts` filters the current conflicts.  A filter that is not
given accepts every conflict; the status is read in the lane of the scope, or in the
global lane when the lane of the scope has no status.
-/

namespace Statefuse

open Foundation

variable [Runtime]

/-- `members.get(name, value) == value` for every item of the context. -/
def agreesWith (members context : JSONObject) : Bool :=
  context.toList.all fun entry => pyEq (members[entry.1]?.getD entry.2) entry.2

/-- The context of one recorded pair agrees; a pair that is no object, or has no context,
does not. -/
def pairMatchesContext (context : JSONObject) (pair : JSONValue) : Bool :=
  match pair.asObj? with
  | none => false
  | some pair =>
      match (getOrNull pair "context").asObj? with
      | none => false
      | some pairContext => agreesWith pairContext context

/-- A direct conflict matches through one of its recorded pairs, any other through all
of its candidates. -/
def conflictMatchesContext (conflict : ConflictSet) (context : JSONObject) : Bool :=
  match (getOrNull conflict.witness "incompatible_pairs").asArr? with
  | some pairs =>
      if conflict.conflictType = directConflictType then pairs.any (pairMatchesContext context)
      else conflict.candidates.all fun claim => agreesWith claim.context context
  | none => conflict.candidates.all fun claim => agreesWith claim.context context

/-- The filters of a query; an empty context is no filter. -/
structure ConflictQuery where
  conflictId : Option String := none
  conflictRef : Option String := none
  conflictType : Option String := none
  conflictClass : Option String := none
  conflictSubclass : Option String := none
  detectorId : Option String := none
  claimId : Option String := none
  sourceId : Option String := none
  sourceType : Option String := none
  key : Option ClaimKey := none
  nameSpace : Option String := none
  context : JSONObject := ∅
  status : Option String := none
  scope : Option String := none

/-- A filter that is not given accepts everything. -/
def accepts {α : Type} (filter : Option α) (test : α → Bool) : Bool :=
  match filter with
  | none => true
  | some wanted => test wanted

namespace MemoryState

/-- The sources behind the evidence of the candidates. -/
def candidateSourceIds (state : MemoryState) (conflict : ConflictSet) : List String :=
  sortedSet ((conflict.candidates.flatMap Claim.evidenceIds).filterMap fun evidenceId =>
    state.evidenceById[evidenceId]?.bind Evidence.sourceId)

def hasSourceType (state : MemoryState) (conflict : ConflictSet) (sourceType : String) : Bool :=
  (state.candidateSourceIds conflict).any fun sourceId =>
    match state.sourcesById[sourceId]? with
    | none => false
    | some source => source.sourceType = sourceType

/-- The lane in which the status of a conflict is read. -/
def statusLane (state : MemoryState) (conflict : ConflictSet) (scope : Option String) : Lane :=
  let lane : Lane := ⟨conflict.conflictRef, scope⟩
  if scope ≠ none ∧ lane ∉ state.lifecycleStatusByConflictRefAndScope then
    Lane.global conflict.conflictRef
  else lane

def currentStatus (state : MemoryState) (conflict : ConflictSet) (scope : Option String) :
    LifecycleStatus :=
  (state.lifecycleStatusByConflictRefAndScope[state.statusLane conflict scope]?).getD .opened

/-- Every filter of the query accepts the conflict. -/
def matchesQuery (state : MemoryState) (query : ConflictQuery) (conflict : ConflictSet) : Bool :=
  accepts query.conflictId (fun wanted => conflict.conflictId = wanted) &&
  accepts query.conflictRef (fun wanted => conflict.conflictRef = wanted) &&
  accepts query.conflictType (fun wanted => conflict.conflictType = wanted) &&
  accepts query.conflictClass (fun wanted => conflict.conflictClass = wanted) &&
  accepts query.conflictSubclass (fun wanted => conflict.conflictSubclass = wanted) &&
  accepts query.detectorId (fun wanted => conflict.detectorId = wanted) &&
  accepts query.claimId
    (fun wanted => conflict.candidates.any fun claim => claim.claimId = wanted) &&
  accepts query.key (fun wanted => wanted ∈ conflict.keys) &&
  accepts query.nameSpace (fun wanted => conflict.keys.any fun key => key.nameSpace = wanted) &&
  accepts query.sourceId (fun wanted => wanted ∈ state.candidateSourceIds conflict) &&
  accepts query.sourceType (state.hasSourceType conflict) &&
  (query.context = ∅ || conflictMatchesContext conflict query.context) &&
  accepts query.status (fun wanted => (state.currentStatus conflict query.scope).text = wanted)

def findConflicts (state : MemoryState) (query : ConflictQuery) : List ConflictSet :=
  sortBy (·.conflictId) (state.conflicts.filter (state.matchesQuery query))

/-- A query by status alone. -/
theorem mem_findConflicts_status (state : MemoryState) (status : LifecycleStatus)
    (scope : Option String) (conflict : ConflictSet) :
    conflict ∈ state.findConflicts { status := some status.text, scope := scope } ↔
      conflict ∈ state.conflicts ∧ state.currentStatus conflict scope = status := by
  have texts : (state.currentStatus conflict scope).text = status.text ↔
      state.currentStatus conflict scope = status := by
    constructor
    · intro same
      exact LifecycleStatus.text_injective same
    · intro same
      rw [same]
  simp [findConflicts, mem_sortBy, matchesQuery, accepts, texts]

end MemoryState

end Statefuse
