import Consignment.Condition.Basic
import Consignment.PackageId
import Consignment.Text.Order

namespace Consignment

/-!
# Manifests

A manifest declares what a package is made of.  Each entry contributes one module
and the files that its patterns match.  There are three kinds of entry: a handler
with a module of the package, a handler that another package exports, and an
export, which other packages can import.

An entry's condition is kept apart from everything else that is said about it,
because the condition decides only whether the entry takes part at all.
-/

/-- A handler of another package. -/
structure ExternalRef where
  package : PackageId
  handlerId : String
  deriving DecidableEq, Repr

namespace ExternalRef

def text (ref : ExternalRef) : String :=
  ref.package.text ++ ":" ++ ref.handlerId

end ExternalRef

/-- What an entry contributes. -/
inductive Role where
  /-- A module of the package, served at a route. -/
  | handler (modulePath route : String)
  /-- A handler of another package, served at a route. -/
  | imported (ref : ExternalRef) (route : String)
  /-- A module of the package that others can import under an id. -/
  | exported (modulePath exportId : String)
  deriving DecidableEq, Repr

namespace Role

/-- How messages name the entry. -/
def describe : Role → String
  | handler modulePath route => "handler " ++ modulePath ++ " (route " ++ route ++ ")"
  | imported ref route => "handler " ++ ref.text ++ " (route " ++ route ++ ")"
  | exported modulePath exportId => "export " ++ exportId ++ " (" ++ modulePath ++ ")"

/-- The group that the entry's module requires and its files belong to. -/
def groupName : Role → String
  | handler modulePath _ => modulePath ++ "-files"
  | imported ref route =>
    "import:" ++ ref.package.text ++ ":" ++ ref.handlerId ++ "-at-" ++ route ++ "-files"
  | exported modulePath exportId => modulePath ++ "-" ++ exportId ++ "-files"

def external? : Role → Option ExternalRef
  | imported ref _ => some ref
  | _ => none

end Role

/-- An entry of a manifest: its role, the patterns of its files and its condition. -/
structure Entry where
  role : Role
  files : Option (List String) := none
  condition : Condition := .always
  deriving DecidableEq, Repr

/-- A declared package: its name and version, what is known of it, and its entries,
handlers before exports. -/
structure Manifest where
  packageName : String
  packageVersion : String
  entries : List Entry
  description : Option String := none
  authors : Option (List String) := none
  annotations : Option (List (String × String)) := none
  deriving DecidableEq, Repr

namespace Manifest

/-- The entries that take part in a build with the given values. -/
def matching (m : Manifest) (values : Values) : List Entry :=
  m.entries.filter (·.condition.holds values)

/-- The entries that do not. -/
def skipped (m : Manifest) (values : Values) : List Entry :=
  m.entries.filter (!·.condition.holds values)

/-- The variables that any condition mentions, in order and without repetition. -/
def variableNames (m : Manifest) : List String :=
  Text.sortedSet (m.entries.flatMap (·.condition.variableNames))

theorem mem_variableNames {m : Manifest} {name : String} :
    name ∈ m.variableNames ↔ ∃ e ∈ m.entries, name ∈ e.condition.variableNames := by
  simp [variableNames, Text.mem_sortedSet, List.mem_flatMap]

/-- The references to other packages among some entries, in order and with
repetitions. -/
def externalRefs (entries : List Entry) : List ExternalRef :=
  entries.filterMap (·.role.external?)

/-- Values that agree on the mentioned variables select the same entries. -/
theorem matching_congr {m : Manifest} {first second : Values}
    (agree : ∀ name ∈ m.variableNames, first.get? name = second.get? name) :
    m.matching first = m.matching second := by
  apply List.filter_congr
  intro e mem
  exact Condition.holds_congr fun name mentioned =>
    agree name (mem_variableNames.2 ⟨e, mem, mentioned⟩)

end Manifest
end Consignment
