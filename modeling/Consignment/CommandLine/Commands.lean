import Consignment.CommandLine.Options
import Consignment.Journal
import Consignment.Packaging

namespace Consignment
namespace CommandLine

/-!
# Commands

There are four commands: one prepares a package in the staging directory, one shows the
invoice that a package would have, one lists the variables that a manifest mentions, and
one writes the manifest of a new application.

Every command first establishes the configuration.  A command ends in one of a few ways,
which decide its exit code and what it says: a usage fault ends with two, every other
failure with one.  A fault of the layers below that nothing accounts for is passed on as
it is.
-/

inductive Ending where
  | done (output : String)
  | misused (fault : UsageFault)
  /-- The command refuses for a reason of its own. -/
  | refused (reason : String)
  | failed (failure : Failure)

/-- What a command leaves behind. -/
structure Work where
  disk : Disk
  notices : List Notice := []
  requests : List Request := []
  ending : Ending

namespace Work

/-- Work that is reported and then gives an output. -/
def ofReport {α : Type} (disk : Disk) (report : Report α) (output : α → String) : Work :=
  { disk
    notices := report.notices
    requests := report.requests
    ending := match report.outcome with
      | .ok a => .done (output a)
      | .error failure => .failed failure }

end Work

/-! ## Values of variables -/

/-- The values that `key=value` pairs give; blanks around keys and values are ignored, and
a later pair for a key replaces an earlier one. -/
def readPairs (pairs : List String) : Except UsageFault Values :=
  pairs.foldlM (fun values pair =>
    let cs := pair.toList
    if cs.contains '=' then
      let key := cs.takeWhile (· != '=')
      let value := cs.drop (key.length + 1)
      .ok (values.put (String.ofList (Text.trim key)) (String.ofList (Text.trim value)))
    else .error (.notAPair pair)) []

/-! ## The commands -/

def helpOption : Opt := ⟨"--help", none, false, []⟩

/-- The options that say where an order's packages come from. -/
def sourceOptions : List Opt := [
  { name := "--var" }, { name := "--server", letter := some "-s" }, { name := "--import-dir" }]

def versioningOption : Opt :=
  { name := "--versioning", letter := some "-v", choices := ["dev", "production"] }

/-- What an order says apart from its versioning.  A server that is not named is taken
from the environment. -/
def orderOf (environment : String → Option String) (u : Understood) (source : String)
    (versioning : Versioning) : Except UsageFault Order := do
  let serverUrl := (u.value? "--server").getD ((environment "BINDLE_URL").getD "")
  let values ← readPairs (u.values "--var")
  return {
    source, versioning, values, serverUrl
    importDirectory := (u.value? "--import-dir").getD "" }

/-- A text as a value, if it is there and not empty. -/
def givenOr (text : Option String) (default : Value) : Value :=
  match text with
  | none | some "" => default
  | some text => .text text

def prepare (environment : String → Option String) (s : Surroundings) (u : Understood) : Work :=
  let ordered := do
    let source ← onlyArgument u "SOURCE" (some ".")
    let word := givenOr (u.value? "--versioning") s.config.versioning
    orderOf environment u source (Versioning.ofText (match word with
      | .text word => word
      | _ => ""))
  match ordered with
  | .error fault => { disk := s.disk, ending := .misused fault }
  | .ok order =>
    let (disk, report) :=
      s.prepare order (givenOr (u.value? "--dir") s.config.stagingDirectory)
    Work.ofReport disk report fun (packaged, directory) =>
      match (u.value? "--output").getD "message" with
      | "id" => packaged.invoice.id.text ++ "\n"
      | "message" =>
        "id:      " ++ packaged.invoice.id.text ++ "\n暂存于:  " ++ directory.text ++ "\n"
      | _ => ""

/-- Show the invoice that a package would have. -/
def inspect (environment : String → Option String) (s : Surroundings) (u : Understood) : Work :=
  let ordered := do
    let source ← onlyArgument u "SOURCE" (some ".")
    orderOf environment u source
      (Versioning.ofText ((u.value? "--versioning").getD "production"))
  match ordered with
  | .error fault => { disk := s.disk, ending := .misused fault }
  | .ok order =>
    let shown := do
      let packaged ← s.build order
      let v := packaged.invoice.toValue
      let text ← Report.ofOutcome ((Document.textOf v).mapError .escaped)
      return if u.value? "--format" == some "json" then Json.write .block v ++ "\n" else text
    Work.ofReport s.disk shown id

def listVariables (s : Surroundings) (u : Understood) : Work :=
  match onlyArgument u "SOURCE" (some ".") with
  | .error fault => { disk := s.disk, ending := .misused fault }
  | .ok source =>
    Work.ofReport s.disk (s.loadManifest source) fun (manifest, _) =>
      if manifest.variableNames.isEmpty then "清单中的构建条件没有引用任何变量。\n"
      else String.join (manifest.variableNames.map (· ++ "\n"))

def newManifest (name : String) : Value :=
  .record [
    ("package", .textMap [
      ("name", name), ("version", "0.1.0"), ("description", name ++ " WAGI 应用")]),
    ("handler", .list [.record [
      ("name", .text (name ++ ".wasm")), ("route", .text "/"),
      ("files", .texts ["static/**/*"])]])]

/-- Write the manifest of a new application where none is, unless forced. -/
def writeNew (s : Surroundings) (name : String) (path : Path) (force : Bool) : Work :=
  match s.disk.holds path with
  | .error fault => { disk := s.disk, ending := .failed (.escaped fault) }
  | .ok isThere =>
    if isThere && !force then
      { disk := s.disk
        ending := .refused ("清单已存在: " ++ path.text ++ " (使用 --force 覆盖)") }
    else
      let (disk, saved) := Document.save s.disk path (newManifest name)
      { disk
        notices := saved.notices
        ending := match saved.outcome with
          | .ok () => .done ("已生成: " ++ path.text ++ "\n")
          | .error (.escaped (.disk fault)) =>
            .refused ("写入清单失败: " ++ path.text ++ ": " ++ fault.message)
          | .error failure => .failed failure }

/-- Write the manifest of a new application under the first of the configured names. -/
def startNew (s : Surroundings) (u : Understood) : Work :=
  match onlyArgument u "NAME" none with
  | .error fault => { disk := s.disk, ending := .misused fault }
  | .ok name =>
    let directory := Path.ofText ((u.value? "--dest").getD ".")
    match Manifest.candidate directory (s.config.manifestNames.headD .null) with
    | .error fault => { disk := s.disk, ending := .failed (.escaped fault) }
    | .ok path => writeNew s name path (u.has "--force")

structure Command where
  name : String
  options : List Opt
  work : (String → Option String) → Surroundings → Understood → Work

def commands : List Command := [
  ⟨"prepare",
    sourceOptions ++ [{ name := "--dir", letter := some "-d" }, versioningOption,
      { name := "--output", letter := some "-o", choices := ["id", "message", "none"] },
      helpOption],
    prepare⟩,
  ⟨"inspect",
    sourceOptions ++ [versioningOption, { name := "--format", choices := ["yaml", "json"] },
      helpOption],
    inspect⟩,
  ⟨"vars", [helpOption], fun _ => listVariables⟩,
  ⟨"new",
    [{ name := "--dest", letter := some "-d" }, { name := "--force", takesValue := false },
      helpOption],
    fun _ => startNew⟩]

end CommandLine
end Consignment
