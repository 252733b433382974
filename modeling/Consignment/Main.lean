import Std.Time.Format
import Consignment.CommandLine.Run

namespace Consignment
namespace Program

/-!
# The program

The program tells the library what surrounds a command line, runs it, and carries out
what came of it.  Everything that is decided is decided by `CommandLine.run`.

The files and directories that a command may see are named on standard input, a line for
each; the name of a directory ends with a slash.  What is not named is not there as far as
the command can tell, and what the command writes is written to the real files at the
end.  The program has no connection to other servers, so the invoices of other packages
have to be staged.
-/

def environmentNames : List String :=
  ["USER", "USERNAME", "BINDLE_URL", "WAGIPACK_LOG_LEVEL", "WAGIPACK_LOG_JSON"]

/-- The environment with the variables that matter. -/
def readEnvironment : IO (String → Option String) := do
  let known ← environmentNames.mapM fun name => do return (name, ← IO.getEnv name)
  return fun name => (known.lookup name).join

def momentOf (t : Std.Time.DateTime) : Moment :=
  let p := t.toPlainDateTime
  ⟨⟨p.date.year.toInt.toNat, p.date.month.val.toNat, p.date.day.val.toNat⟩,
    p.time.hour.val.toNat, p.time.minute.val.toNat, p.time.second.val.toNat,
    p.time.nanosecond.val.toNat / 1000, none⟩

/-- The files and directories that are named, with what the files hold. -/
def readDisk (here : Place) (names : List String) : IO Disk := do
  let empty : Disk := { nodes := [], here }
  names.foldlM (fun d name => do
    let place := d.placeOf (.ofText name)
    if name.endsWith "/" then return d.install place .directory
    else return d.install place (.file (← IO.FS.readBinFile name)))
    (empty.install here .directory)

def writeChanges (changes : List (Place × Node)) : IO Unit :=
  changes.forM fun (place, node) => do
    let directory (p : Place) : IO Unit := IO.FS.createDirAll ("/" ++ String.intercalate "/" p)
    match node with
    | .directory => directory place
    | .file bytes =>
      directory place.dropLast
      IO.FS.writeBinFile ("/" ++ String.intercalate "/" place) bytes

def run (arguments : List String) : IO UInt32 := do
  let environment ← readEnvironment
  let here := (Path.ofText ((← IO.getEnv "PWD").getD "/")).parts
  let names ← (← IO.getStdin).lines
  let disk ← readDisk here (names.toList.filter (· ≠ ""))
  let now ← Std.Time.DateTime.now
  let clock := momentOf now
  let universal := momentOf (.ofTimestamp now.timestamp .UTC)
  let time := match Journal.ofEnvironment environment with
    | .ok journal => journal.timeText clock universal
    | .error _ => ""
  let surroundings : Surroundings := {
    disk
    network := fun _ => .unreachable "no network"
    stamp := ⟨clock, userOf environment⟩ }
  let result := CommandLine.run environment time surroundings arguments
  writeChanges (result.disk.changesSince disk)
  IO.print result.output
  IO.eprint result.errors
  if let some failure := result.escaped then IO.eprintln failure.message
  return result.exit.toUInt32

end Program
end Consignment

def main (arguments : List String) : IO UInt32 :=
  Consignment.Program.run arguments
