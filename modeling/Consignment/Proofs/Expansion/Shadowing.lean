import Consignment.Proofs.Expansion.Integrity

namespace Consignment

/-!
# When the members of a group shadow each other

A handler is given the members of a group, by their names.  Two members of one name and different
contents shadow each other, and it is not said which of them the handler gets.

Local files never do so.  The name of a file leads back to the file, so two patterns that give the
same name give the same content, whichever entries they belong to.  The comparison of names keeps
files apart from dependencies.  Dependencies are not compared with each other: a closure drops a
parcel only for its content, and merging puts parcels together only if content and name are the
same.  So what a foreign package has twice under a name is in the group twice, and the same holds
for two packages whose handlers share the group.  There is no other way for members to shadow each
other.
-/

/-- The members of a group are a function from names to contents. -/
def Invoice.NamesContents (inv : Invoice) (group : String) : Prop :=
  ∀ p ∈ inv.members group, ∀ q ∈ inv.members group,
    p.label.name = q.label.name → p.label.sha256 = q.label.sha256

namespace ExpansionContext

variable {c : ExpansionContext} {manifest : Manifest} {inv : Invoice}

/-- Labels that describe files under the same name have the same content. -/
theorem DescribesFile.sha256_eq {first second : Label} (describes : c.DescribesFile first)
    (other : c.DescribesFile second) (same : first.name = second.name) :
    first.sha256 = second.sha256 := by
  rcases describes.read with ⟨bytes, read, digest, _⟩
  rcases other.read with ⟨others, readOther, digestOther, _⟩
  rw [same, readOther] at read
  rw [digest, digestOther, Except.ok.inj read]

/-- An entry of a group imports a handler whose closure has a content under a name. -/
def Imports (c : ExpansionContext) (manifest : Manifest) (group name digest : String) : Prop :=
  ∃ e ∈ manifest.matching c.values, e.role.groupName = group ∧
    ∃ q, c.DependsOnParcel e.role q ∧ q.label.name = name ∧ q.label.sha256 = digest

namespace Parts

variable (parts : c.Parts manifest) {group : String} {p q : Parcel}

theorem describesFile_of_mem_matchedParcels (file : p ∈ parts.matchedParcels) :
    c.DescribesFile p.label := by
  apply (parts.describesFile_or_isReference (List.mem_append_right _ file)).resolve_right
  rw [parts.isReference_of_mem_matchedParcels file]
  exact Bool.false_ne_true

theorem imports_of_mem_external (dependency : p ∈ parts.external)
    (belongs : group ∈ p.memberGroups) : c.Imports manifest group p.label.name p.label.sha256 :=
  (parts.dependency_member_iff _ _ _).mp ⟨p, dependency, rfl, rfl, belongs⟩

theorem exists_member_of_imports {name digest : String}
    (imports : c.Imports manifest group name digest) :
    ∃ p ∈ parts.invoice.members group, p.label.name = name ∧ p.label.sha256 = digest := by
  rcases imports with ⟨e, kept, rfl, d, depends, rfl, rfl⟩
  rcases parts.exists_member_of_dependsOnParcel kept depends with ⟨p, member, _, named, content⟩
  exact ⟨p, member, named, content⟩

/-- Members that shadow each other are dependencies. -/
theorem external_of_shadowing (member : p ∈ parts.invoice.members group)
    (other : q ∈ parts.invoice.members group) (same : p.label.name = q.label.name)
    (differ : p.label.sha256 ≠ q.label.sha256) : p ∈ parts.external ∧ q ∈ parts.external := by
  rcases List.mem_append.mp (parts.mem_of_mem_members member) with foreign | file
  · rcases List.mem_append.mp (parts.mem_of_mem_members other) with alsoForeign | file
    · exact ⟨foreign, alsoForeign⟩
    · exact absurd same (parts.name_ne_of_mem foreign file)
  · rcases List.mem_append.mp (parts.mem_of_mem_members other) with foreign | alsoFile
    · exact absurd same.symm (parts.name_ne_of_mem foreign file)
    · have describes := parts.describesFile_of_mem_matchedParcels file
      have alsoDescribes := parts.describesFile_of_mem_matchedParcels alsoFile
      exact absurd (describes.sha256_eq alsoDescribes same) differ

theorem namesContents_iff :
    parts.invoice.NamesContents group ↔
      ∀ name first second, c.Imports manifest group name first →
        c.Imports manifest group name second → first = second := by
  constructor
  · intro function name first second imports alsoImports
    rcases parts.exists_member_of_imports imports with ⟨p, member, named, rfl⟩
    rcases parts.exists_member_of_imports alsoImports with ⟨q, other, alsoNamed, rfl⟩
    exact function p member q other (named.trans alsoNamed.symm)
  · intro function p member q other same
    by_contra differ
    rcases parts.external_of_shadowing member other same differ with ⟨foreign, alsoForeign⟩
    apply differ
    apply function q.label.name
    · exact same ▸ parts.imports_of_mem_external foreign (Invoice.mem_members.mp member).2
    · exact parts.imports_of_mem_external alsoForeign (Invoice.mem_members.mp other).2

end Parts

/-- Members of a group that have one name and different contents are references, and entries of
the group import both contents under that name.  So the members of a group are a function from
names to contents exactly if what its entries import is one. -/
theorem namesContents_of_expand (expanded : (c.expand manifest).outcome = .ok inv) :
    (∀ group, ∀ p ∈ inv.members group, ∀ q ∈ inv.members group,
      p.label.name = q.label.name → p.label.sha256 ≠ q.label.sha256 →
        p.isReference = true ∧ q.isReference = true ∧
        c.Imports manifest group p.label.name p.label.sha256 ∧
        c.Imports manifest group q.label.name q.label.sha256) ∧
    ∀ group, inv.NamesContents group ↔
      ∀ name first second, c.Imports manifest group name first →
        c.Imports manifest group name second → first = second := by
  rcases expand_eq_ok.mp expanded with ⟨parts, rfl⟩
  refine ⟨?_, fun group => parts.namesContents_iff⟩
  intro group p member q other same differ
  rcases parts.external_of_shadowing member other same differ with ⟨foreign, alsoForeign⟩
  exact ⟨parts.isReference_of_mem_external foreign, parts.isReference_of_mem_external alsoForeign,
    parts.imports_of_mem_external foreign (Invoice.mem_members.mp member).2,
    parts.imports_of_mem_external alsoForeign (Invoice.mem_members.mp other).2⟩

/-- A package with two style sheets of one name, both required by its handler. -/
def palettes : Invoice where
  id := ⟨"palettes", "1"⟩
  parcels := [
    ⟨⟨"static", "s", "", 0, none, some [(handlerIdKey, "all")]⟩, some ⟨none, some ["a"]⟩⟩,
    ⟨⟨"style.css", "dark", "", 1, none, none⟩, some ⟨some ["a"], none⟩⟩,
    ⟨⟨"style.css", "light", "", 1, none, none⟩, some ⟨some ["a"], none⟩⟩]

/-- An import of the handler, as the only entry. -/
def painted : Manifest where
  packageName := "painted"
  packageVersion := "1"
  entries := [⟨.imported ⟨palettes.id, "all"⟩ "/", none, .always⟩]

def paintedContext : ExpansionContext where
  base := ⟨.root, ["app"]⟩
  disk := { nodes := [(["app"], .directory)] }
  versioning := .production
  stamp := ⟨⟨⟨2024, 1, 2⟩, 3, 4, 5, 6, none⟩, none⟩
  external := [(palettes.id, palettes)]

/-- The group of the import. -/
def paintedGroup : String :=
  (Role.imported ⟨palettes.id, "all"⟩ "/").groupName

theorem exists_shadowing_painted :
    ∃ inv, (paintedContext.expand painted).outcome = .ok inv ∧ paintedGroup ∈ inv.groups ∧
      ∃ p ∈ inv.members paintedGroup, ∃ q ∈ inv.members paintedGroup,
        p.label.name = q.label.name ∧ p.label.sha256 ≠ q.label.sha256 := by
  have evaluated : ((paintedContext.expand painted).outcome.map fun inv =>
      inv.groups.contains paintedGroup && (inv.members paintedGroup).any fun p =>
        (inv.members paintedGroup).any fun q =>
          p.label.name == q.label.name && p.label.sha256 != q.label.sha256).toOption =
      some true := by decide +kernel
  rcases Outcome.exists_of_toOption evaluated with ⟨inv, expanded, facts⟩
  simp only [Bool.and_eq_true, List.contains_eq_mem, decide_eq_true_eq, List.any_eq_true,
    beq_iff_eq, bne_iff_ne] at facts
  exact ⟨inv, expanded, facts⟩

/-- Both style sheets are references, and the entry imports both. -/
theorem namesContents_of_expand_painted :
    ∃ inv, (paintedContext.expand painted).outcome = .ok inv ∧
      ∃ p ∈ inv.members paintedGroup, ∃ q ∈ inv.members paintedGroup,
        p.label.name = q.label.name ∧ p.isReference = true ∧ q.isReference = true ∧
        paintedContext.Imports painted paintedGroup p.label.name p.label.sha256 ∧
        paintedContext.Imports painted paintedGroup q.label.name q.label.sha256 := by
  rcases exists_shadowing_painted with ⟨inv, expanded, _, p, member, q, other, same, differ⟩
  exact ⟨inv, expanded, p, member, q, other, same,
    (namesContents_of_expand expanded).1 _ p member q other same differ⟩

/-- What the handler is given has two contents under one name. -/
theorem not_namesContents_painted :
    ∃ inv, (paintedContext.expand painted).outcome = .ok inv ∧
      ∃ group ∈ inv.groups, ¬ inv.NamesContents group := by
  rcases exists_shadowing_painted with ⟨inv, expanded, declared, p, member, q, other, same, differ⟩
  exact ⟨inv, expanded, paintedGroup, declared, fun function =>
    differ (function p member q other same)⟩

end ExpansionContext
end Consignment
