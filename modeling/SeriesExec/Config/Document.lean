import SeriesExec.Duration.Text
import SeriesExec.Error

/-!
# Documents — configuration values before they are read

A configuration arrives as a tree of values.  This file defines:

* `Document` — such a tree;
* `ConfigError` — what can be wrong with it;
* `Document.fields` — the values of the fields of a record, by name or by place;
* readers for single values: words, truth values, texts, durations, lists and maps of texts.

A record may be written as a list of its values in the declared order.  No field may be unknown.
-/

namespace SeriesExec

/-- A configuration value. -/
inductive Document where
  | null
  | bool (b : Bool)
  | integer (i : Int)
  /-- A number that is not written as an integer; no setting takes one. -/
  | fraction
  | text (s : String)
  | list (items : List Document)
  | record (entries : List (String × Document))
  deriving Inhabited

/-- Why a configuration is refused. -/
inductive ConfigError where
  | wrongType
  | outOfRange
  | unknownField (name : String)
  | missingField (name : String)
  | tooManyItems
  | duration (e : Duration.ReadError)
  deriving DecidableEq, Repr

namespace Document

/-- The values of the named fields, in the order of the names; a field that is not given is
`none`. -/
def fields (names : List String) : Document → Except ConfigError (List (String × Option Document))
  | record entries =>
    match entries.find? fun e => !names.contains e.1 with
    | some e => .error (.unknownField e.1)
    | none => .ok (names.map fun n => (n, (entries.find? fun e => e.1 == n).map Prod.snd))
  | list items =>
    if names.length < items.length then .error .tooManyItems
    else .ok (names.mapIdx fun i n => (n, items[i]?))
  | _ => .error .wrongType

/-- The value of a field that may be left out. -/
def optional {α : Type} (read : Document → Except ConfigError α) (default : α)
    (fields : List (String × Option Document)) (name : String) : Except ConfigError α :=
  match fields.lookup name with
  | some (some d) => read d
  | _ => .ok default

/-- The value of a field that must be there. -/
def required {α : Type} (read : Document → Except ConfigError α)
    (fields : List (String × Option Document)) (name : String) : Except ConfigError α :=
  match fields.lookup name with
  | some (some d) => read d
  | _ => .error (.missingField name)

/-- A natural number below a bound. -/
def readNat (bound : Nat) : Document → Except ConfigError Nat
  | integer i => if 0 ≤ i ∧ i < bound then .ok i.toNat else .error .outOfRange
  | _ => .error .wrongType

/-- A word of 64 bits. -/
def readWord : Document → Except ConfigError Nat := readNat UInt64.size

def readBool : Document → Except ConfigError Bool
  | bool b => .ok b
  | _ => .error .wrongType

def readText : Document → Except ConfigError String
  | text s => .ok s
  | _ => .error .wrongType

def readDuration : Document → Except ConfigError Duration
  | text s =>
    match Duration.parse s with
    | .ok d => .ok d
    | .error e => .error (.duration e)
  | _ => .error .wrongType

/-- A value that may be absent, written as null. -/
def readOption {α : Type} (read : Document → Except ConfigError α) :
    Document → Except ConfigError (Option α)
  | null => .ok none
  | d => (read d).map some

def readList {α : Type} (read : Document → Except ConfigError α) :
    Document → Except ConfigError (List α)
  | list items => items.mapM read
  | _ => .error .wrongType

/-- A record of texts. -/
def readTags : Document → Except ConfigError Tags
  | record entries =>
    (entries.mapM fun e => (readText e.2).map fun v => (e.1, v)).map Tags.ofList
  | _ => .error .wrongType

end Document
end SeriesExec
