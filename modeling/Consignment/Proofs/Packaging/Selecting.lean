import Consignment.Proofs.Expansion.Selecting
import Consignment.Proofs.Packaging.Building

namespace Consignment

/-!
# What is left out of a build

Conditions and values decide which entries take part, and nothing else.  Two builds that
select the same entries are the same build, however the selection came about: the same
invoice or the same failure, and the same packages asked for.  In particular an entry that is
left out could as well not be there, and a value that no condition mentions not be given.
-/

theorem Manifest.matching_of_excluded {m : Manifest} {values : Values} {before after : List Entry}
    {e : Entry} (entries : m.entries = before ++ e :: after)
    (excluded : e.condition.holds values = false) :
    { m with entries := before ++ after }.matching values = m.matching values := by
  unfold matching
  rw [entries, List.filter_append, List.filter_append,
    List.filter_cons_of_neg (by simpa using excluded)]

namespace ExpansionContext

/-- Two expansions in one place and at one time, for one package, that select the same entries
up to conditions and have the same invoices of the packages that these refer to. -/
structure SameSelection (c d : ExpansionContext) (m n : Manifest) : Prop where
  base : c.base = d.base
  disk : c.disk = d.disk
  versioning : c.versioning = d.versioning
  stamp : c.stamp = d.stamp
  package : m.SamePackage n
  entries : (m.matching c.values).map Entry.unconditional =
    (n.matching d.values).map Entry.unconditional
  external : ∀ ref ∈ m.references c.values,
    c.external.lookup ref.package = d.external.lookup ref.package

variable {c d : ExpansionContext} {m n : Manifest}

theorem SameSelection.references (same : SameSelection c d m n) :
    m.references c.values = n.references d.values := by
  unfold Manifest.references
  rw [← Manifest.externalRefs_unconditional, same.entries, Manifest.externalRefs_unconditional]

theorem SameSelection.outcome_expand (same : SameSelection c d m n) :
    (c.expand m).outcome = (d.expand n).outcome := by
  apply outcome_expand_congr (.of_sameDisk same.base same.disk) same.versioning same.stamp
    same.package same.entries
  intro ref mem
  exact same.external ref (same.references ▸ mem)

end ExpansionContext

namespace Surroundings

variable {s : Surroundings} {supply : Supply} {pool : Pool} {order : Order} {path : Path}
  {m n : Manifest}

/-- Manifests of one package from which an order selects the same entries. -/
theorem packageManifest_congr (package : m.SamePackage n)
    (entries : m.matching order.values = n.matching order.values) :
    (s.packageManifest supply pool order m path).outcome =
        (s.packageManifest supply pool order n path).outcome ∧
      (s.packageManifest supply pool order m path).requests =
        (s.packageManifest supply pool order n path).requests := by
  have references : m.references order.values = n.references order.values :=
    congrArg Manifest.externalRefs entries
  constructor
  · have expanded (external : List (PackageId × Invoice)) :
        ((s.contextFor pool order path external).expand m).outcome =
          ((s.contextFor pool order path external).expand n).outcome :=
      ExpansionContext.SameSelection.outcome_expand
        ⟨rfl, rfl, rfl, rfl, package, congrArg _ entries, fun _ _ => rfl⟩
    simp only [outcome_packageManifest, references, expanded]
  · rw [requests_packageManifest, requests_packageManifest, references]

end Surroundings

/-- Of conditions and values, only what they select is seen in a build. -/
structure Manifest.SeenBySelection (m : Manifest) : Prop where
  expansion : ∀ c d n, ExpansionContext.SameSelection c d m n →
    (c.expand m).outcome = (d.expand n).outcome ∧
      m.references c.values = n.references d.values
  /-- Only the values of the variables that conditions mention are looked at. -/
  values : ∀ (c : ExpansionContext) (values : Values),
    (∀ name ∈ m.variableNames, c.values.get? name = values.get? name) →
      (c.expand m).outcome = ({ c with values }.expand m).outcome ∧
        m.references c.values = m.references values
  /-- An entry that is left out causes nothing: no part of the invoice, no failure, and no
  question to a server. -/
  excluded : ∀ (s : Surroundings) (supply : Surroundings.Supply) (pool : Pool) (order : Order)
    (path : Path) (before : List Entry) (e : Entry) (after : List Entry),
    m.entries = before ++ e :: after → e.condition.holds order.values = false →
      (s.packageManifest supply pool order m path).outcome =
          (s.packageManifest supply pool order { m with entries := before ++ after } path).outcome ∧
        (s.packageManifest supply pool order m path).requests =
          (s.packageManifest supply pool order { m with entries := before ++ after } path).requests

theorem Manifest.seenBySelection (m : Manifest) : m.SeenBySelection where
  expansion := fun _ _ _ same => ⟨same.outcome_expand, same.references⟩
  values := by
    intro c values agree
    have entries := matching_congr agree
    have same : ExpansionContext.SameSelection c { c with values } m m :=
      ⟨rfl, rfl, rfl, rfl, .refl m, congrArg _ entries, fun _ _ => rfl⟩
    exact ⟨same.outcome_expand, same.references⟩
  excluded := by
    intro s supply pool order path before e after entries left
    exact Surroundings.packageManifest_congr ⟨rfl, rfl, rfl, rfl, rfl⟩
      (matching_of_excluded entries left).symm

namespace Surroundings

/-- An import for one system, beside an export. -/
def stall : Manifest where
  packageName := "stall"
  packageVersion := "1"
  entries := [⟨.imported ⟨⟨"z", "1"⟩, "h"⟩ "/z", none, .equal (.reference "os") (.literal "mac")⟩,
    ⟨.exported "a" "first", none, .always⟩]

def bareField : Surroundings where
  disk := { nodes := [(["a"], .file ⟨#[1]⟩)] }
  network := fun _ => .unreachable ""
  stamp := ⟨⟨⟨2024, 1, 2⟩, 3, 4, 5, 6, none⟩, none⟩

/-- Elsewhere the package is made without a source for the import. -/
theorem seenBySelection_stall :
    let supply : Supply := fun _ => pure none
    let order : Order := { values := [("os", "linux")] }
    let path : Path := ⟨.root, ["wagipack.yml"]⟩
    let own : Entry := ⟨.exported "a" "first", none, .always⟩
    (bareField.packageManifest supply {} order { stall with entries := [own] } path).outcome =
        (bareField.packageManifest supply {} order stall path).outcome ∧
      (bareField.packageManifest supply {} order stall path).outcome.toBool = true ∧
      stall.references order.values = stall.references [("user", "u"), ("os", "linux")] := by
  intro supply order path own
  have seen := stall.seenBySelection
  have left := seen.excluded bareField supply {} order path [] _ [own] rfl (by decide)
  refine ⟨left.1.symm, by decide +kernel, ?_⟩
  exact (seen.values (bareField.contextFor {} order path []) _ (by decide +kernel)).2

end Surroundings
end Consignment
