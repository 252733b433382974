import Consignment.Disk.Basic

namespace Consignment
namespace Disk

/-!
# Changing files

An operation that changes files gives the disk afterwards, whether it succeeds or
not, because one that fails half-way can leave something behind: missing parent
directories that were made before the fault stay.

A document is replaced as a whole: it is written to a temporary file beside its
target first and then renamed, so that the target holds the old bytes or the new
ones and the temporary file is gone in either case.  Making the temporary file can be
refused because its path is too long; the bytes of any file find room on the disk.
-/

/-- The place that an operation would make, when nothing is there yet: its directory
exists and its name is possible.  The refusal is given otherwise. -/
def vacancy (d : Disk) (p : Path) : Except Refusal Place :=
  if pathBytesBound ≤ p.text.utf8ByteSize then .error .nameTooLong
  else
    match p.parts.getLast? with
    | none => .error .occupied
    | some name =>
      match d.walk (d.start p.anchor) p.parts.dropLast with
      | .error refusal => .error refusal
      | .ok place =>
        match d.node? place with
        | none => .error .missing
        | some (.file _) => .error .notDirectory
        | some .directory =>
          if name = ".." then .error .occupied
          else if maxNameBytes < name.utf8ByteSize then .error .nameTooLong
          else if (d.node? (place ++ [name])).isSome then .error .occupied
          else .ok (place ++ [name])

def makeDirectory (d : Disk) (p : Path) : Except Fault Disk :=
  if p.hasNull then .error .nullInPath
  else
    match d.vacancy p with
    | .error refusal => refuse refusal p
    | .ok place => .ok (d.put place .directory)

/-- A refused making of a directory does no harm when the directory exists. -/
def unlessDirectory (d : Disk) (p : Path) (fault : Fault) : Except Fault Unit :=
  match fault with
  | .disk _ => do
    if ← d.isDirectory p then return () else throw fault
  | _ => .error fault

/-- Make a directory whose parent has been made, unless it exists. -/
def makeLast (d : Disk) (p : Path) : Disk × Except Fault Unit :=
  match d.makeDirectory p with
  | .ok made => (made, .ok ())
  | .error (.disk fault) =>
    if fault.refusal = .missing then (d, .error (.disk fault))
    else (d, d.unlessDirectory p (.disk fault))
  | .error fault => (d, .error fault)

/-- Make a directory and the missing ones on the way to it.  Every step up drops a
part, so the number of parts is enough fuel. -/
def makeDirectories (d : Disk) (p : Path) : Nat → Disk × Except Fault Unit
  | 0 => (d, d.makeDirectory p |>.map fun _ => ())
  | fuel + 1 =>
    match d.makeDirectory p with
    | .ok made => (made, .ok ())
    | .error (.disk fault) =>
      if fault.refusal = .missing then
        if p.parent = p then (d, .error (.disk fault))
        else
          match makeDirectories d p.parent fuel with
          | (above, .error fault) => (above, .error fault)
          | (above, .ok ()) => above.makeLast p
      else (d, d.unlessDirectory p (.disk fault))
    | .error fault => (d, .error fault)

/-- A directory at the path exists afterwards, or a fault says why not. -/
def ensureDirectory (d : Disk) (p : Path) : Disk × Except Fault Unit :=
  d.makeDirectories p (p.parts.length + 1)

/-- The place that a file written to a path gets: a new one, or that of a file which
is there already. -/
def fileTarget (d : Disk) (p : Path) : Except Refusal Place :=
  match d.vacancy p with
  | .ok place => .ok place
  | .error .occupied =>
    match d.locate p with
    | .error refusal => .error refusal
    | .ok place =>
      match d.node? place with
      | some (.file _) => .ok place
      | _ => .error .isDirectory
  | .error refusal => .error refusal

def copyFile (d : Disk) (source target : Path) : Disk × Except Fault Unit :=
  if source.hasNull || target.hasNull then (d, .error .nullInPath)
  else
    match d.read source with
    | .error fault => (d, .error fault)
    | .ok bytes =>
      match d.fileTarget target with
      | .error refusal => (d, refuse refusal target)
      | .ok place => (d.put place (.file bytes), .ok ())

/-- A name that is free in a directory: the given one with as many marks before it
as it takes. -/
def freeName (d : Disk) (place : Place) (name : String) : Nat → String
  | 0 => name
  | fuel + 1 =>
    if (d.node? (place ++ [name])).isSome then d.freeName place ("_" ++ name) fuel else name

def rename (d : Disk) (source : Place) (bytes : ByteArray) (p : Path) : Except (Option Refusal) Disk :=
  if p.hasNull then .error none
  else if p.parts.getLast?.all (· = "..") then .error (some .busy)
  else
    match d.fileTarget p with
    | .error refusal => .error (some refusal)
    | .ok place => .ok ((d.erase source).put place (.file bytes))

/-- The bytes of the name that a temporary file gets. -/
def temporaryNameBytes : Nat := 15

/-- Whether a temporary file can be made in a directory: its path, which is written in full, must
not be too long. -/
def fitsTemporary (d : Disk) (directory : Path) : Bool :=
  (d.absoluteText directory).utf8ByteSize + 1 + temporaryNameBytes < pathBytesBound

/-- Replace the bytes of a document, or make it, with its missing directories. -/
def replaceFile (d : Disk) (p : Path) (bytes : ByteArray) : Disk × Except Fault Unit :=
  match d.ensureDirectory p.parent with
  | (d, .error fault) => (d, .error fault)
  | (d, .ok ()) =>
    match d.locate p.parent with
    | .error refusal => (d, refuse refusal p.parent)
    | .ok directory =>
      let name := d.freeName directory d.temporaryName (d.nodes.length + 1)
      let source := (Path.join ⟨.root, []⟩ (d.absoluteText p.parent)).join name
      if d.fitsTemporary p.parent then
        let unfinished := d.put (directory ++ [name]) (.file bytes)
        match unfinished.rename (directory ++ [name]) bytes p with
        | .ok done => (done, .ok ())
        | .error none => (unfinished.erase (directory ++ [name]), .error .nullInPath)
        | .error (some refusal) =>
          (unfinished.erase (directory ++ [name]),
            .error (.disk ⟨refusal, source.text, some p.text⟩))
      else (d, refuse .nameTooLong source)

/-- Let a file be at a place, with the directories on the way to it. -/
def install (d : Disk) (place : Place) (node : Node) : Disk :=
  let parents := (List.range place.length).filterMap fun n =>
    if 0 < n ∧ (d.node? (place.take n)).isNone then some (place.take n) else none
  (parents.foldl (fun d parent => d.put parent .directory) d).put place node

def sameNode : Option Node → Node → Bool
  | some .directory, .directory => true
  | some (.file bytes), .file others => bytes == others
  | _, _ => false

theorem sameNode_directory {found : Option Node} :
    sameNode found .directory = true ↔ found = some .directory := by
  rcases found with _ | _ | bytes <;> simp [sameNode]

/-- What is new or different on a disk since an earlier state of it, the oldest change
first. -/
def changesSince (d earlier : Disk) : List (Place × Node) :=
  (d.nodes.filter fun entry => !sameNode (earlier.node? entry.1) entry.2).reverse

/-- Remove what is at a place and everything below it. -/
def removeTree (d : Disk) (place : Place) : Disk :=
  { d with nodes := d.nodes.filter fun entry => !place.isPrefixOf entry.1 }

end Disk
end Consignment
