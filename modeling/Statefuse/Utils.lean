import Statefuse.Foundation.Equality
import Statefuse.Foundation.JsonRoundTrip
import Statefuse.Foundation.Outcome

/-!
# Timestamps, canonical JSON and digests

`Runtime` collects what the program takes from its host's standard library and
what no result here needs to know in full: the ISO 8601 reader, whose accepted
formats depend on the version of the host, the SHA-256 function, and the host's
`str` and `float` on values that are not already a string or a number.

A result that rests on digests being collision-free says so by the hypothesis
that `Runtime.sha256` is injective.
-/

namespace Statefuse

open Foundation

/-- The exceptions of the program, with the message of the source. -/
inductive PyError where
  | valueError (message : String)
  | typeError (message : String)
  | keyError (key : String)
  | overflowError (message : String)
  | indexError (message : String)
  deriving DecidableEq

abbrev Result (α : Type) : Type := Except PyError α

def valueError {α : Type} (message : String) : Result α := .error (.valueError message)

abbrev JSONValue : Type := JsonValue PyNumber

/-- A dictionary with string keys and JSON values. -/
abbrev JSONObject : Type := JsonObject PyNumber

def canonicalJsonDumps (value : JSONValue) : String :=
  String.ofList (value.dumps false)

def canonicalJsonLoads (value : String) : Result JSONValue :=
  match JsonValue.loads value.toList with
  | some loaded => .ok loaded
  | none => valueError "Expecting value"

theorem canonicalJsonLoads_dumps (value : JSONValue) :
    canonicalJsonLoads (canonicalJsonDumps value) = .ok value := by
  rw [canonicalJsonLoads, canonicalJsonDumps, String.toList_ofList, loads_dumps]

theorem canonicalJsonDumps_injective : Function.Injective canonicalJsonDumps :=
  fun _ _ same => dumps_injective false (String.ofList_injective same)

/-- A dictionary display. -/
def objectOf (fields : List (String × JSONValue)) : JSONObject :=
  fields.foldl (fun members field => members.insert field.1 field.2) ∅

/-- A field that is written only when it has a value. -/
def withField (members : JSONObject) (key : String) (value : Option JSONValue) : JSONObject :=
  match value with
  | none => members
  | some value => members.insert key value

theorem get_withField (members : JSONObject) (key other : String) (value : Option JSONValue) :
    (withField members key value)[other]? =
      if key = other then (value <|> members[other]?) else members[other]? := by
  cases value with
  | none => simp [withField]
  | some value =>
      rw [withField, Dict.get_insert]
      rfl

def optionalStr (value : Option String) : JSONValue :=
  match value with
  | none => .null
  | some text => .str text

def strList (items : List String) : JSONValue := .arr (items.map .str)

/-- `value[key]`. -/
def getItem (members : JSONObject) (key : String) : Result JSONValue :=
  match members[key]? with
  | some value => .ok value
  | none => .error (.keyError key)

/-- `value.get(key)` where a missing key counts as `null`. -/
def getOrNull (members : JSONObject) (key : String) : JSONValue := members[key]?.getD .null

/-- An empty string counts as none. -/
def truthy (bound : Option String) : Option String := bound.filter (fun text => text ≠ "")

/-- A point in time: microseconds since the epoch, in UTC. -/
abbrev Instant : Type := Int

/-- The fields of a datetime as microseconds since the epoch, and its offset from
UTC when it has one. -/
structure LocalDatetime where
  microseconds : Int
  offset : Option Int
  deriving DecidableEq

/-- The part of the host's standard library that the program relies on. -/
class Runtime where
  /-- `datetime.fromisoformat`; `none` is a `ValueError`. -/
  fromisoformat : String → Option LocalDatetime
  /-- `hashlib.sha256(payload).hexdigest()`. -/
  sha256 : ByteArray → String
  /-- `str(value)` where the value is not a string. -/
  strOf : JSONValue → String
  /-- `float(text)`; `none` is a `ValueError`. -/
  floatOf : String → Option PyFloat

variable [Runtime]

/-- The instants between the years 1 and 9999. -/
def representable (instant : Instant) : Bool :=
  decide (-62135596800000000 ≤ instant) && decide (instant ≤ 253402300799999999)

/-- A final `Z` stands for the offset of UTC. -/
def expandZulu (value : String) : String :=
  if value.toList.getLast? = some 'Z' then
    String.ofList (value.toList.dropLast ++ ['+', '0', '0', ':', '0', '0'])
  else value

/-- Parse an ISO 8601 timestamp and normalise it to UTC. -/
def parseUtcIso (value : String) : Result Instant :=
  match Runtime.fromisoformat (expandZulu value) with
  | none => valueError "Invalid isoformat string"
  | some parsed =>
      let instant := parsed.microseconds - parsed.offset.getD 0
      if representable instant then .ok instant
      else .error (.overflowError "date value out of range")

/-- `datetime.timestamp()`: the float nearest to the number of seconds. -/
def timestampOf (instant : Instant) : ℚ := binary64 ((instant : ℚ) / 1000000)

def sha256Hexdigest (payload : ByteArray) : String := Runtime.sha256 payload

def digestJsonValue (value : JSONValue) : String :=
  sha256Hexdigest (canonicalJsonDumps value).toByteArray

/-- Digests are collision-free. -/
def CollisionFree : Prop := Function.Injective Runtime.sha256

theorem digestJsonValue_injective (collisionFree : CollisionFree) :
    Function.Injective digestJsonValue := by
  intro first second same
  exact canonicalJsonDumps_injective (String.toByteArray_inj.mp (collisionFree same))

/-- `str(value)`. -/
def pyStr (value : JSONValue) : String := value.asStr?.getD (Runtime.strOf value)

@[simp] theorem pyStr_str (value : String) : pyStr (JsonValue.str value) = value := rfl

/-- `float(value)`. -/
def pyFloat (value : JSONValue) : Result PyFloat :=
  match value.asNumber?, value.asStr? with
  | some number, _ => .ok number.toFloat
  | none, some text =>
      match Runtime.floatOf text with
      | some number => .ok number
      | none => valueError "could not convert string to float"
  | none, none => .error (.typeError "float() argument must be a string or a real number")

end Statefuse
