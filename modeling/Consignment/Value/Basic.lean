import Consignment.Calendar
import Consignment.Number.Shortest

namespace Consignment

/-!
# Values of documents

Manifests, configurations and invoices arrive as documents whose shape is not
known until it is checked.  A `Value` is what a document holds before that
check: the scalars of both document formats, lists, mappings that keep the order
of their entries, sets and pairs.

A mapping is a list of entries in which no two keys are the same key.  Numbers
and truth values are the same key when they are numerically equal, whatever
their kind.  A later entry for a key replaces the value of the earlier one and
keeps its place.

A value is a tree of any depth whose parts are not shared, and a text in it is made of
characters.  An escape in a document can ask for half of a surrogate pair, which is no
character; what is read for it is the replacement character.
-/

/-- What a document can hold. -/
inductive Value where
  | null
  | bool (b : Bool)
  | int (n : Int)
  | float (x : Float)
  | text (s : String)
  | bytes (b : List UInt8)
  | date (d : Date)
  | moment (t : Moment)
  | list (items : List Value)
  | map (entries : List (Value × Value))
  | set (members : List Value)
  | pair (first second : Value)
  /-- A reference to a list or mapping that is still open at this place. -/
  | enclosing (isMap : Bool)
  deriving Inhabited

namespace Value

/-- The name of the kind of a value, as messages give it. -/
def kindName : Value → String
  | null => "NoneType"
  | bool _ => "bool"
  | int _ => "int"
  | float _ => "float"
  | text _ => "str"
  | bytes _ => "bytes"
  | date _ => "date"
  | moment _ => "datetime"
  | list _ => "list"
  | map _ => "dict"
  | set _ => "set"
  | pair _ _ => "tuple"
  | enclosing isMap => if isMap then "dict" else "list"

/-- The kind's name with the module it belongs to, where it has one. -/
def qualifiedKindName : Value → String
  | date _ => "datetime.date"
  | moment _ => "datetime.datetime"
  | v => v.kindName

/-- A value that counts as absent where a default may take its place: null,
false, a zero, or anything empty. -/
def isVoid : Value → Bool
  | null => true
  | bool b => !b
  | int n => n == 0
  | float x => x == 0.0
  | text s => s.isEmpty
  | bytes b => b.isEmpty
  | list items => items.isEmpty
  | map entries => entries.isEmpty
  | set members => members.isEmpty
  | date _ | moment _ | pair _ _ | enclosing _ => false

def integer? : Value → Option Int
  | bool b => some (if b then 1 else 0)
  | int n => some n
  | _ => none

/-- Whether a floating-point number is exactly the given integer. -/
def floatIsInteger (x : Float) (n : Int) : Bool :=
  match Number.parts x with
  | .nan | .infinite _ => false
  | .zero _ => n == 0
  | .finite negative ⟨m, q, _⟩ =>
    let signed : Int := if negative then -(m : Int) else m
    signed * Number.twoTo q.toNat == n * Number.twoTo (-q).toNat

/-- Whether two values are the same key of a mapping.  Lists, mappings and sets
are no keys. -/
def sameKey : Value → Value → Bool
  | null, null => true
  | text s, text t => s == t
  | bytes s, bytes t => s == t
  | date s, date t => s == t
  | moment s, moment t => s.sameInstant t
  | float x, float y => x == y
  | float x, v => match v.integer? with
    | some n => floatIsInteger x n
    | none => false
  | v, float x => match v.integer? with
    | some n => floatIsInteger x n
    | none => false
  | v, w => match v.integer?, w.integer? with
    | some m, some n => m == n
    | _, _ => false

/-- Put an entry into a mapping: in the place of an entry with the same key, whose
key stays, or at the end. -/
def putEntry (key value : Value) : List (Value × Value) → List (Value × Value)
  | [] => [(key, value)]
  | (k, v) :: rest =>
    if sameKey k key then (k, value) :: rest else (k, v) :: putEntry key value rest

def mapOf (entries : List (Value × Value)) : List (Value × Value) :=
  entries.foldl (fun done entry => putEntry entry.1 entry.2 done) []

def putMember (member : Value) (members : List Value) : List Value :=
  if members.any (sameKey · member) then members else members ++ [member]

def field? (name : String) : List (Value × Value) → Option Value
  | [] => none
  | (text key, value) :: rest => if key == name then some value else field? name rest
  | _ :: rest => field? name rest

/-- The entry for a name, or null when there is none. -/
def entryOrNull (name : String) (entries : List (Value × Value)) : Value :=
  (field? name entries).getD null

def texts (items : List String) : Value :=
  list (items.map text)

def record (fields : List (String × Value)) : Value :=
  map (fields.map fun field => (text field.1, field.2))

def textMap (fields : List (String × String)) : Value :=
  record (fields.map fun field => (field.1, text field.2))

def allTexts : List Value → Option (List String)
  | [] => some []
  | text s :: rest => (allTexts rest).map (s :: ·)
  | _ :: _ => none

def allTextEntries : List (Value × Value) → Option (List (String × String))
  | [] => some []
  | (text key, text value) :: rest => (allTextEntries rest).map ((key, value) :: ·)
  | _ :: _ => none

end Value
end Consignment
