import Statefuse.Conflict.Record

/-!
# A reference runtime

A concrete runtime for computing with the model on given inputs.  It reads the
formats that `datetime.isoformat` writes, and its digest spells its input, so that
it is collision-free by construction.

A few records over that runtime are at the end.
-/

namespace Statefuse

open Foundation

namespace Reference

def digit? (char : Char) : Option Nat :=
  if char.isDigit then some (char.toNat - 48) else none

def number? (chars : List Char) : Option Nat :=
  (chars.mapM digit?).map fun digits => digits.foldl (fun sum digit => sum * 10 + digit) 0

/-- A number of exactly `width` digits and the text after it. -/
def field? (width : Nat) (text : List Char) : Option (Nat × List Char) :=
  if width ≤ text.length then (number? (text.take width)).map fun value => (value, text.drop width)
  else none

/-- A field with a character in front of it. -/
def fieldAfter? (mark : Char) (width : Nat) (text : List Char) : Option (Nat × List Char) :=
  match text with
  | char :: rest => if char = mark then field? width rest else none
  | [] => none

def isLeap (year : Nat) : Bool := year % 4 = 0 ∧ (year % 100 ≠ 0 ∨ year % 400 = 0)

def monthLengths (year : Nat) : List Nat :=
  [31, if isLeap year then 29 else 28, 31, 30, 31, 30, 31, 31, 30, 31, 30, 31]

/-- Days since 1970-01-01 of a date that exists. -/
def days? (year month day : Nat) : Option Int :=
  if 1 ≤ year ∧ 1 ≤ month ∧ month ≤ 12 ∧ 1 ≤ day ∧
      day ≤ (monthLengths year).getD (month - 1) 0 then
    let before := year - 1
    some (((365 * before + before / 4 - before / 100 + before / 400 +
      ((monthLengths year).take (month - 1)).sum + day : Nat) : Int) - 719163)
  else none

/-- The offset at the end of a timestamp, in microseconds. -/
def offset? (text : List Char) : Option (Option Int) :=
  match text with
  | [] => some none
  | sign :: rest => do
      let (hours, rest) ← field? 2 rest
      let (minutes, rest) ← fieldAfter? ':' 2 rest
      let size : Int := ((hours * 60 + minutes) * 60000000 : Nat)
      if rest ≠ [] ∨ 24 ≤ hours ∨ 60 ≤ minutes then none
      else if sign = '+' then some (some size)
      else if sign = '-' then some (some (-size))
      else none

/-- The fraction of a second, in microseconds. -/
def fraction? (text : List Char) : Option (Nat × List Char) :=
  match text with
  | '.' :: rest => field? 6 rest
  | text => some (0, text)

def fromisoformat (value : String) : Option LocalDatetime := do
  let (year, text) ← field? 4 value.toList
  let (month, text) ← fieldAfter? '-' 2 text
  let (day, text) ← fieldAfter? '-' 2 text
  let days ← days? year month day
  match text with
  | [] => some ⟨days * 86400000000, none⟩
  | _ :: text =>
      let (hour, text) ← field? 2 text
      let (minute, text) ← fieldAfter? ':' 2 text
      let (second, text) ← fieldAfter? ':' 2 text
      let (fraction, text) ← fraction? text
      let offset ← offset? text
      if 24 ≤ hour ∨ 60 ≤ minute ∨ 60 ≤ second then none
      else
        let seconds : Nat := (hour * 60 + minute) * 60 + second
        some ⟨days * 86400000000 + ((seconds * 1000000 + fraction : Nat) : Int), offset⟩

/-- The payload itself, one character for each byte. -/
def sha256 (payload : ByteArray) : String :=
  String.ofList (payload.data.toList.map fun byte => Char.ofNat byte.toNat)

@[reducible] def runtime : Runtime where
  fromisoformat := fromisoformat
  sha256 := sha256
  strOf value := String.ofList (value.dumps false)
  floatOf _ := none

/-- A checksum of the payload: not collision-free, but short, so that larger examples can be
computed. -/
def checksum (payload : ByteArray) : String :=
  toString (payload.data.toList.foldl
    (fun sum byte => (sum * 257 + byte.toNat) % 2305843009213693951) 1)

/-- The same host with the short digest. -/
@[reducible] def shortRuntime : Runtime := { runtime with sha256 := checksum }

theorem sha256_injective : Function.Injective sha256 := by
  intro first second same
  have chars : first.data.toList.map (fun byte => Char.ofNat byte.toNat) =
      second.data.toList.map (fun byte => Char.ofNat byte.toNat) :=
    String.ofList_injective same
  have bytes : Function.Injective (fun byte : UInt8 => Char.ofNat byte.toNat) := by
    intro left right equal
    have numbers := congrArg Char.toNat equal
    rw [Char.toNat_ofNat, Char.toNat_ofNat] at numbers
    have leftSmall := left.toNat_lt
    have rightSmall := right.toNat_lt
    rw [if_pos (Or.inl (by omega)), if_pos (Or.inl (by omega))] at numbers
    exact UInt8.toNat_inj.mp numbers
  have lists := List.map_injective_iff.mpr bytes chars
  exact ByteArray.ext (Array.ext' lists)

/-- The identifiers the examples tell apart. -/
theorem a_ne_b : "a" ≠ "b" := by decide

theorem b_ne_a : "b" ≠ "a" := by decide

theorem e_ne_c : "e" ≠ "c" := by decide

theorem c_ne_empty : "c" ≠ "" := by decide

theorem d_ne_empty : "d" ≠ "" := by decide

theorem f_ne_empty : "f" ≠ "" := by decide

section Records

theorem collisionFree : @CollisionFree runtime := sha256_injective

def timestamp : String := "2024-01-01T00:00:00Z"

/-- The host reads the timestamp of the records. -/
class ReadsTimestamp (host : Runtime) : Prop where
  parses : ∃ instant, parseUtcIso timestamp = .ok instant

instance : ReadsTimestamp runtime := ⟨1704067200000000, by decide +kernel⟩

instance : ReadsTimestamp shortRuntime := ⟨1704067200000000, by decide +kernel⟩

variable [host : Runtime]

def key : ClaimKey := ⟨"n", "s", "p"⟩

/-- A fact with full confidence and nothing beyond what a fact must have. -/
def fact (claimId : String) (key : ClaimKey) (value : JSONValue) (evidenceIds : List String) :
    Claim where
  claimId := claimId
  key := key
  value := value
  confidence := .int 1
  timestamp := timestamp
  claimRef := deriveClaimRef key value "fact" ∅
  evidenceIds := evidenceIds
  provenance := ∅
  validity := none
  derivationId := none
  kind := "fact"
  context := ∅
  confidenceInUnit := by decide
  kindPresent := by decide
  contextKeysPresent := Dict.get_empty ""
  claimRefPresent := claimRefFromPayload_ne_empty _

/-- A fact that holds in one mode only. -/
def factIn (claimId : String) (key : ClaimKey) (value : JSONValue) (mode : String) : Claim :=
  { fact claimId key value [] with
    claimRef := deriveClaimRef key value "fact" (objectOf [("mode", .str mode)])
    context := objectOf [("mode", .str mode)]
    contextKeysPresent := by simp [objectOf]
    claimRefPresent := claimRefFromPayload_ne_empty _ }

variable [ReadsTimestamp host]

/-- The resolution of the direct conflict between two claims of `key` that selects the first. -/
def selectionFields (resolutionId selected rejected : String) : ResolutionFields where
  resolutionId := resolutionId
  conflictRef := deriveConflictRef key directConflictType [key] "direct"
  observedConflictId := deriveConflictId key [selected, rejected] directConflictType [key] "direct"
  selectedClaimIds := [selected]
  rejectedClaimIds := [rejected]
  retainedClaimIds := []
  resolutionType := "manual"
  reason := "reviewed"
  evidenceIds := []
  actorId := "reviewer"
  timestamp := timestamp
  scope := none
  validFrom := none
  validUntil := none
  metadata := ∅

def selection (resolutionId selected rejected : String)
    (present : resolutionId ≠ "") (different : selected ≠ rejected) :
    ResolutionRecord where
  toResolutionFields := selectionFields resolutionId selected rejected
  outcome := .select
  valid := {
    selectedDistinct := List.nodup_singleton _
    rejectedDistinct := List.nodup_singleton _
    retainedDistinct := List.nodup_nil
    disjoint := by simp [ResolutionFields.Disjoint, selectionFields, different]
    identifiersPresent :=
      ⟨present, deriveConflictRef_ne_empty _ _ _ _,
        deriveConflictId_ne_empty _ _ _ _ _⟩
    authorityPresent := by simp [selectionFields]
    timestampPresent := by simp [selectionFields, timestamp]
    leavesOpen := by simp
    mergesOne := by simp
    timestampParses := ReadsTimestamp.parses
    intervalOrdered := by simp [IntervalOrdered, selectionFields] }
  ordered := rfl

/-- The fields of a selection for a conflict of another kind, about two keys. -/
def betweenFields (resolutionId selected rejected conflictType detectorId : String)
    (key other : ClaimKey) : ResolutionFields :=
  { selectionFields resolutionId selected rejected with
    conflictRef := deriveConflictRef key conflictType (sortedSet [key, other]) detectorId
    observedConflictId := deriveConflictId key [selected, rejected] conflictType
      (sortedSet [key, other]) detectorId }

def selectionBetween (resolutionId selected rejected conflictType detectorId : String)
    (key other : ClaimKey) (present : resolutionId ≠ "") (different : selected ≠ rejected) :
    ResolutionRecord where
  toResolutionFields :=
    betweenFields resolutionId selected rejected conflictType detectorId key other
  outcome := .select
  valid := {
    selectedDistinct := List.nodup_singleton _
    rejectedDistinct := List.nodup_singleton _
    retainedDistinct := List.nodup_nil
    disjoint := by simp [ResolutionFields.Disjoint, betweenFields, selectionFields, different]
    identifiersPresent := ⟨present,
      deriveConflictRef_ne_empty key conflictType (sortedSet [key, other]) detectorId,
      deriveConflictId_ne_empty key [selected, rejected] conflictType
        (sortedSet [key, other]) detectorId⟩
    authorityPresent := by simp [betweenFields, selectionFields]
    timestampPresent := by simp [betweenFields, selectionFields, timestamp]
    leavesOpen := by simp
    mergesOne := by simp
    timestampParses := ReadsTimestamp.parses
    intervalOrdered := by simp [IntervalOrdered, betweenFields, selectionFields] }
  ordered := rfl

/-- The same selection for one scope, until an instant. -/
def scopedSelection (resolutionId selected rejected scope validUntil : String)
    (present : resolutionId ≠ "") (different : selected ≠ rejected) : ResolutionRecord where
  toResolutionFields :=
    { selectionFields resolutionId selected rejected with
      scope := some scope
      validUntil := some validUntil }
  outcome := .select
  valid := { (selection resolutionId selected rejected present different).valid with
    intervalOrdered := by simp [IntervalOrdered, selectionFields] }
  ordered := rfl

def logOf (ops : List Op) : OpLog := ops.foldl OpLog.insert OpLog.empty

end Records

end Reference

end Statefuse
