import Consignment.Fault
import Consignment.Path

namespace Consignment

/-!
# Files and directories

A `Disk` is everything that file operations can see and change: which places hold
a directory or a file with which bytes, and the place that relative paths start
from.  A *place* is the list of names from the root; it has no dots and no anchor,
so two paths lead to the same thing exactly when they lead to the same place.

There are no links and no permissions, and there is always room for more bytes.
Following a path needs a directory at every step but the last, and a double dot goes
back to the directory before.
-/

/-- The names from the root to a file or directory. -/
abbrev Place := List String

/-- What a place holds. -/
inductive Node where
  | directory
  | file (bytes : ByteArray)

structure Disk where
  nodes : List (Place × Node)
  /-- The place that relative paths start from. -/
  here : Place := []
  /-- What a temporary file is called while its name is free. -/
  temporaryName : String := "unfinished.tmp"

namespace Disk

/-- What a place holds; the root always is a directory. -/
def node? (d : Disk) (place : Place) : Option Node :=
  if place = [] then some .directory else d.nodes.lookup place

def put (d : Disk) (place : Place) (node : Node) : Disk :=
  { d with nodes := (place, node) :: d.nodes.filter (·.1 ≠ place) }

def erase (d : Disk) (place : Place) : Disk :=
  { d with nodes := d.nodes.filter (·.1 ≠ place) }

@[simp] theorem node?_nil (d : Disk) : d.node? [] = some .directory := by
  simp [node?]

private theorem lookup_filter (nodes : List (Place × Node)) (place other : Place) :
    (nodes.filter (·.1 ≠ place)).lookup other =
      if other = place then none else nodes.lookup other := by
  induction nodes with
  | nil => simp
  | cons entry rest ih =>
    obtain ⟨p, n⟩ := entry
    by_cases here : p = place
    · subst here
      by_cases same : other = p
      · subst same
        simpa using ih
      · have differs : (other == p) = false := by simpa using same
        simp [List.lookup_cons, same, differs] at ih ⊢
        exact ih
    · by_cases same : other = p
      · subst same
        simp [List.filter, here]
      · have differs : (other == p) = false := by simpa using same
        simp only [ne_eq, decide_not] at ih
        simp [List.filter, List.lookup_cons, here, differs, ih]

/-- Writing to a place changes that place only. -/
theorem node?_put (d : Disk) {place : Place} (named : place ≠ []) (node : Node) (other : Place) :
    (d.put place node).node? other = if other = place then some node else d.node? other := by
  by_cases root : other = []
  · subst root
    simp [node?, Ne.symm named]
  · by_cases same : other = place
    · subst same
      simp [node?, put, root]
    · have differs : (other == place) = false := by simpa using same
      have rest := lookup_filter d.nodes place other
      simp only [ne_eq, decide_not, same, if_false] at rest
      simp [node?, put, root, same, List.lookup_cons, differs, rest]

/-- Erasing a place changes that place only. -/
theorem node?_erase (d : Disk) {place : Place} (named : place ≠ []) (other : Place) :
    (d.erase place).node? other = if other = place then none else d.node? other := by
  by_cases root : other = []
  · subst root
    simp [node?, Ne.symm named]
  · have rest := lookup_filter d.nodes place other
    simp only [ne_eq, decide_not] at rest
    simp [node?, erase, root, rest]

/-- The names in a directory, in no particular order. -/
def names (d : Disk) (place : Place) : List String :=
  d.nodes.filterMap fun entry =>
    match entry.1.reverse with
    | [] => none
    | name :: parent => if parent.reverse = place then some name else none

def maxNameBytes : Nat := 255

/-- The bytes of a path from which on it is too long. -/
def pathBytesBound : Nat := 4096

/-- Follow names from a place.  Empty names and single dots stay where they are. -/
def walk (d : Disk) : Place → List String → Except Refusal Place
  | place, [] => .ok place
  | place, name :: rest =>
    match d.node? place with
    | none => .error .missing
    | some (.file _) => .error .notDirectory
    | some .directory =>
      if name = "" ∨ name = "." then walk d place rest
      else if name = ".." then walk d place.dropLast rest
      else if maxNameBytes < name.utf8ByteSize then .error .nameTooLong
      else
        match d.node? (place ++ [name]) with
        | none => .error .missing
        | some _ => walk d (place ++ [name]) rest

def start (d : Disk) : Anchor → Place
  | .relative => d.here
  | .root | .doubleRoot => []

def locate (d : Disk) (p : Path) : Except Refusal Place :=
  if pathBytesBound ≤ p.text.utf8ByteSize then .error .nameTooLong
  else d.walk (d.start p.anchor) p.parts

/-- The place that a text leads to, with its dots, empty pieces and slashes as they
are: a slash at the end asks for a directory. -/
def locateText (d : Disk) (text : String) : Except Refusal Place :=
  let cs := text.toList
  if cs = [] then .error .missing
  else if pathBytesBound ≤ text.utf8ByteSize then .error .nameTooLong
  else d.walk (d.start (Path.anchorOf cs)) ((Text.splitAt '/' cs).map String.ofList)

/-- A refusal of an operation on a path. -/
def refuse {α : Type} (refusal : Refusal) (p : Path) : Except Fault α :=
  .error (.disk ⟨refusal, p.text, none⟩)

/-- What a path leads to. -/
def stat (d : Disk) (p : Path) : Except Fault Node :=
  if p.hasNull then .error .nullInPath
  else
    match d.locate p with
    | .error refusal => refuse refusal p
    | .ok place =>
      match d.node? place with
      | none => refuse .missing p
      | some node => .ok node

/-- Ask something of what a path leads to.  Where the path leads nowhere the answer
is no; a path that is too long to be followed is a fault. -/
def probe (d : Disk) (p : Path) (ask : Node → Bool) : Except Fault Bool :=
  match d.stat p with
  | .ok node => .ok (ask node)
  | .error (.disk fault) =>
    match fault.refusal with
    | .missing | .notDirectory => .ok false
    | _ => .error (.disk fault)
  | .error _ => .ok false

def isFile (d : Disk) (p : Path) : Except Fault Bool :=
  d.probe p fun
    | .file _ => true
    | .directory => false

def isDirectory (d : Disk) (p : Path) : Except Fault Bool :=
  d.probe p fun
    | .file _ => false
    | .directory => true

/-- Whether a path leads anywhere. -/
def holds (d : Disk) (p : Path) : Except Fault Bool :=
  d.probe p fun _ => true

def read (d : Disk) (p : Path) : Except Fault ByteArray := do
  match ← d.stat p with
  | .file bytes => return bytes
  | .directory => refuse .isDirectory p

/-- The place that a path names when every double dot takes back the name before it,
whatever is there. -/
def placeOf (d : Disk) (p : Path) : Place :=
  p.parts.foldl (fun place part => if part = ".." then place.dropLast else place ++ [part])
    (d.start p.anchor)

/-- A working directory and a path as one text without dots, by the text alone. -/
def absoluteText (d : Disk) (p : Path) : String :=
  let anchor := if p.anchor = .doubleRoot then "//" else "/"
  anchor ++ String.intercalate "/" (d.placeOf p)

end Disk
end Consignment
