import Consignment.Proofs.Expansion.Membership
import Consignment.Proofs.Invoice.Sameness
import Mathlib.Data.List.Perm.Basic

namespace Consignment

/-!
# Expanding the same entries in another order

The order of the entries decides the order of what an invoice lists, and nothing else.  The
work for an entry depends on the entry alone, so it can be had in every order or in none, and
its results are rearranged like the entries.

Merging is where the order could matter, because the first parcel of a file gives the label.
Parcels that are the same file have to say the same for this not to be seen.  Matched files
do: the name of a file leads back to the path that it was read from.  Dependencies come from
other packages, where nothing makes them agree, so that they are asked to.
-/

namespace Parcel

variable {first second : List Parcel}

/-- Parcels that are the same file say the same and require the same. -/
def Consistent (parcels : List Parcel) : Prop :=
  ∀ p ∈ parcels, ∀ q ∈ parcels, p.fileKey = q.fileKey → p.label.Same q.label ∧
    p.conditions.bind Membership.requires = q.conditions.bind Membership.requires

/-! ## Merging -/

theorem eraseDups_perm {groups others : List String}
    (same : ∀ group, group ∈ groups ↔ group ∈ others) : groups.eraseDups.Perm others.eraseDups := by
  rw [List.perm_ext_iff_of_nodup (nodup_eraseDups groups) (nodup_eraseDups others)]
  intro group
  rw [List.mem_eraseDups, List.mem_eraseDups, same]

theorem sameUpToOrder_withMembers {p q : Parcel} {groups others : List String}
    (label : p.label.Same q.label)
    (requires : p.conditions.bind Membership.requires = q.conditions.bind Membership.requires)
    (same : ∀ group, group ∈ groups ↔ group ∈ others) :
    (p.withMembers groups).SameUpToOrder (q.withMembers others) := by
  have distinct := eraseDups_perm same
  refine ⟨label, .some ⟨?_, requires⟩⟩
  show Option.Rel List.Perm
    (if groups.eraseDups.isEmpty then none else some groups.eraseDups)
    (if others.eraseDups.isEmpty then none else some others.eraseDups)
  rw [distinct.isEmpty_eq]
  split
  · exact .none
  · exact .some distinct

/-- The groups of a file are those of the same file in another order of the parcels. -/
theorem mem_groupsOf_of_perm (perm : first.Perm second) {p q : Parcel}
    (same : p.fileKey = q.fileKey) (group : String) :
    group ∈ groupsOf first p ↔ group ∈ groupsOf second q := by
  simp only [mem_groupsOf, perm.mem_iff, same]

/-- Merging consistent parcels in another order gives the same parcels in another order. -/
theorem exists_sameUpToOrder_of_mem_merge (perm : first.Perm second) (consistent : Consistent first)
    {p : Parcel} (mem : p ∈ merge first) : ∃ q ∈ merge second, p.SameUpToOrder q := by
  rcases exists_eq_withMembers_of_mem_merge mem with ⟨held, inFirst, rfl⟩
  rcases exists_first_of_mem (perm.mem_iff.mp inFirst) with ⟨other, kept, same⟩
  have inSecond := perm.mem_iff.mpr (mem_of_mem_distinctBy kept)
  rcases consistent held inFirst other inSecond same.symm with ⟨label, requires⟩
  rw [merge_eq]
  exact ⟨_, List.mem_map_of_mem kept,
    sameUpToOrder_withMembers label requires (mem_groupsOf_of_perm perm same.symm)⟩

theorem Consistent.perm (consistent : Consistent first) (perm : first.Perm second) :
    Consistent second :=
  fun p mem q other => consistent p (perm.mem_iff.mpr mem) q (perm.mem_iff.mpr other)

/-- Merging neither loses nor adds a name. -/
theorem exists_named_mem_merge_iff {parcels : List Parcel} {name : String} :
    (∃ p ∈ merge parcels, p.label.name = name) ↔ ∃ p ∈ parcels, p.label.name = name := by
  constructor
  · rintro ⟨p, mem, named⟩
    rcases exists_of_mem_merge mem with ⟨q, held, label, _⟩
    exact ⟨q, held, label ▸ named⟩
  · rintro ⟨p, mem, named⟩
    rcases exists_first_of_mem mem with ⟨q, kept, same⟩
    rw [merge_eq]
    exact ⟨_, List.mem_map_of_mem kept, (congrArg Prod.snd same).trans named⟩

end Parcel

/-- Names clash in every order of the parcels or in none. -/
theorem clashingNames_merge_of_perm {external others files rest : List Parcel}
    (foreign : external.Perm others) (own : files.Perm rest)
    (free : clashingNames (Parcel.merge external) (Parcel.merge files) = []) :
    clashingNames (Parcel.merge others) (Parcel.merge rest) = [] := by
  rw [List.eq_nil_iff_forall_not_mem] at free ⊢
  intro name clashing
  apply free name
  rw [mem_clashingNames] at clashing ⊢
  simpa only [Parcel.exists_named_mem_merge_iff, foreign.mem_iff, own.mem_iff] using clashing

namespace ExpansionContext

variable {c : ExpansionContext} {m n : Manifest}

/-- Dependencies of the entries that are the same file say the same. -/
def ConsistentDependencies (c : ExpansionContext) (manifest : Manifest) : Prop :=
  ∀ e ∈ manifest.matching c.values, ∀ f ∈ manifest.matching c.values, ∀ p q,
    c.DependsOnParcel e.role p → c.DependsOnParcel f.role q →
    p.label.sha256 = q.label.sha256 → p.label.name = q.label.name → p.label.Same q.label

/-- The name of a file leads back to its path. -/
theorem join_of_nameOf {text name : String} (named : c.nameOf (c.base.join text) = .ok name) :
    c.base.join name = c.base.join text := by
  unfold nameOf at named
  split at named
  · rename_i parts below
    rw [← Except.ok.inj named, Path.join_text_of_relativeTo? below]
  · exact absurd named (by simp)

namespace Parts

/-- The parts of an expansion are rearranged like the entries. -/
theorem exists_rearranged (parts : c.Parts m)
    (entries : (n.matching c.values).Perm (m.matching c.values)) :
    ∃ other : c.Parts n, other.primary.Perm parts.primary ∧
      other.dependencies.flatten.Perm parts.dependencies.flatten ∧
      other.files.Perm parts.files := by
  rcases List.perm_comp_forall₂ entries parts.primary_had with ⟨primary, primaryHad, modules⟩
  rcases List.perm_comp_forall₂ entries parts.dependencies_had with
    ⟨dependencies, dependenciesHad, closures⟩
  rcases List.perm_comp_forall₂ entries parts.matched_had with ⟨matched, matchedHad, patterns⟩
  rcases List.perm_comp_forall₂ patterns.flatten parts.files_had with ⟨files, filesHad, read⟩
  have free := clashingNames_merge_of_perm closures.flatten.symm read.symm parts.clash_free
  exact ⟨⟨primary, dependencies, matched, files, primaryHad, dependenciesHad, matchedHad, filesHad,
    free⟩, modules, closures.flatten, read⟩

theorem consistent_dependencies (parts : c.Parts m) (consistent : c.ConsistentDependencies m) :
    Parcel.Consistent parts.dependencies.flatten := by
  intro p mem q other same
  rcases parts.mem_dependencies.mp mem with ⟨e, kept, held, depends, rfl⟩
  rcases parts.mem_dependencies.mp other with ⟨f, alsoKept, alsoHeld, alsoDepends, rfl⟩
  rcases Prod.mk.inj same with ⟨content, named⟩
  have labels := consistent e kept f alsoKept held alsoHeld depends alsoDepends content named
  exact ⟨labels.markedDoNotStage, rfl⟩

/-- Matched files of the same name are read from the same path. -/
theorem consistent_files (parts : c.Parts m) : Parcel.Consistent parts.files := by
  intro p mem q other same
  rcases parts.mem_files.mp mem with ⟨e, _, _, _, _, ⟨_, _, ⟨text, _, rfl⟩, _⟩, had⟩
  rcases parts.mem_files.mp other with ⟨f, _, _, _, _, ⟨_, _, ⟨text', _, rfl⟩, _⟩, had'⟩
  rcases fileParcel_eq_ok.mp had with ⟨label, labelled, rfl⟩
  rcases fileParcel_eq_ok.mp had' with ⟨label', labelled', rfl⟩
  rcases localLabel_eq_ok.mp labelled with ⟨bytes, name, read, named, rfl⟩
  rcases localLabel_eq_ok.mp labelled' with ⟨bytes', name', read', named', rfl⟩
  have sameName : name = name' := congrArg Prod.snd same
  have path : c.base.join text = c.base.join text' := by
    rw [← join_of_nameOf named, sameName, join_of_nameOf named']
  rw [path] at read ⊢
  cases Except.ok.inj (read.symm.trans read')
  rw [sameName]
  exact ⟨Label.Same.refl _, rfl⟩

/-- Behind the primary parcels of rearranged parts stand the same parcels. -/
theorem exists_sameUpToOrder_of_mem {parts : c.Parts m} {other : c.Parts n}
    (closures : parts.dependencies.flatten.Perm other.dependencies.flatten)
    (read : parts.files.Perm other.files)
    (consistent : Parcel.Consistent parts.dependencies.flatten) {p : Parcel}
    (mem : p ∈ parts.external ++ parts.matchedParcels) :
    ∃ q ∈ other.external ++ other.matchedParcels, p.SameUpToOrder q := by
  rcases List.mem_append.mp mem with dependency | file
  · rcases Parcel.exists_sameUpToOrder_of_mem_merge closures consistent dependency with
      ⟨q, held, same⟩
    exact ⟨q, List.mem_append_left _ held, same⟩
  · rcases Parcel.exists_sameUpToOrder_of_mem_merge read parts.consistent_files file with
      ⟨q, held, same⟩
    exact ⟨q, List.mem_append_right _ held, same⟩

end Parts

/-- Two invoices have the same groups and primary parcels, in any order, and behind the primary
parcels, of which there are so many, the same parcels. -/
structure Rearranged (count : Nat) (first second : Invoice) : Prop where
  groups : first.groups.Perm second.groups
  primary : (first.parcels.take count).Perm (second.parcels.take count)
  kept : ∀ p ∈ first.parcels.drop count, ∃ q ∈ second.parcels.drop count, p.SameUpToOrder q
  added : ∀ q ∈ second.parcels.drop count, ∃ p ∈ first.parcels.drop count, q.SameUpToOrder p

theorem ConsistentDependencies.perm (consistent : c.ConsistentDependencies m)
    (selected : (m.matching c.values).Perm (n.matching c.values)) : c.ConsistentDependencies n :=
  fun e kept f alsoKept =>
    consistent e (selected.mem_iff.mpr kept) f (selected.mem_iff.mpr alsoKept)

/-- The invoice of the same entries in another order. -/
theorem exists_rearranged_of_expand
    (selected : (m.matching c.values).Perm (n.matching c.values))
    (consistent : c.ConsistentDependencies m) {inv : Invoice}
    (expanded : (c.expand m).outcome = .ok inv) :
    ∃ other, (c.expand n).outcome = .ok other ∧
      Rearranged (m.matching c.values).length inv other := by
  rcases expand_eq_ok.mp expanded with ⟨parts, rfl⟩
  rcases parts.exists_rearranged selected.symm with ⟨other, modules, closures, read⟩
  have foreign := parts.consistent_dependencies consistent
  refine ⟨_, expand_eq_ok.mpr ⟨other, rfl⟩, selected.map _, ?primary, ?kept, ?added⟩
  case primary =>
    rw [parts.take_primary, selected.length_eq, other.take_primary]
    exact modules.symm
  case kept =>
    rw [parts.drop_primary, selected.length_eq, other.drop_primary]
    exact fun p mem => Parts.exists_sameUpToOrder_of_mem closures.symm read.symm foreign mem
  case added =>
    rw [parts.drop_primary, selected.length_eq, other.drop_primary]
    exact fun q mem =>
      Parts.exists_sameUpToOrder_of_mem closures read (foreign.perm closures.symm) mem

/-- When the dependencies that are the same file say the same, entries in another order can be
expanded exactly when the entries can.  The two invoices have the same groups and the same
primary parcels, as often, and the same parcels behind them, up to the order of their groups. -/
theorem rearranged_of_perm (entries : m.entries.Perm n.entries)
    (consistent : c.ConsistentDependencies m) :
    ((∃ inv, (c.expand m).outcome = .ok inv) ↔ ∃ inv, (c.expand n).outcome = .ok inv) ∧
    ∀ first second, (c.expand m).outcome = .ok first → (c.expand n).outcome = .ok second →
      Rearranged (m.matching c.values).length first second := by
  have selected : (m.matching c.values).Perm (n.matching c.values) := entries.filter _
  refine ⟨⟨?_, ?_⟩, ?_⟩
  · rintro ⟨inv, expanded⟩
    rcases exists_rearranged_of_expand selected consistent expanded with ⟨other, done, _⟩
    exact ⟨other, done⟩
  · rintro ⟨inv, expanded⟩
    have alsoConsistent := consistent.perm selected
    rcases exists_rearranged_of_expand selected.symm alsoConsistent expanded with ⟨other, done, _⟩
    exact ⟨other, done⟩
  · intro first second expanded expandedToo
    rcases exists_rearranged_of_expand selected consistent expanded with ⟨other, done, rearranged⟩
    cases Except.ok.inj (done.symm.trans expandedToo)
    exact rearranged

/-- Two packages with a handler each that needs the same font, annotated in another order. -/
def fontsOf (name : String) (annotations : TextMap) : Invoice where
  id := ⟨name, "1"⟩
  parcels := [
    ⟨⟨name, name, "", 0, none, some [(handlerIdKey, "all")]⟩, some ⟨none, some ["f"]⟩⟩,
    ⟨⟨"a.woff", "w", "font/woff", 1, none, some annotations⟩, some ⟨some ["f"], none⟩⟩]

/-- Entries that import both handlers, and one with files of its own. -/
def gallery : Manifest where
  packageName := "gallery"
  packageVersion := "1"
  entries := [⟨.imported ⟨⟨"serif", "1"⟩, "all"⟩ "/a", none, .always⟩,
    ⟨.handler "m" "/", some ["*"], .always⟩,
    ⟨.imported ⟨⟨"sans", "1"⟩, "all"⟩ "/b", some ["m"], .always⟩]

/-- The same entries, the last one first. -/
def turnedGallery : Manifest :=
  { gallery with entries := gallery.entries.reverse }

def galleryContext : ExpansionContext :=
  { weatherContext with
    external := [(⟨"serif", "1"⟩, fontsOf "serif" [("style", "roman"), ("weight", "400")]),
      (⟨"sans", "1"⟩, fontsOf "sans" [("weight", "400"), ("style", "roman")])] }

theorem rearranged_of_perm_gallery :
    gallery.entries.Perm turnedGallery.entries ∧ galleryContext.ConsistentDependencies gallery ∧
      ∃ first second, (galleryContext.expand gallery).outcome = .ok first ∧
        (galleryContext.expand turnedGallery).outcome = .ok second ∧ Rearranged 3 first second := by
  have entries : gallery.entries.Perm turnedGallery.entries := (List.reverse_perm _).symm
  have dependency : ∀ e ∈ gallery.matching galleryContext.values, ∀ p,
      galleryContext.DependsOnParcel e.role p → ∃ annotations : TextMap,
        p.label = ⟨"a.woff", "w", "font/woff", 1, none, some annotations⟩ ∧
        annotations.Same [("style", "roman"), ("weight", "400")] := by
    have turned : TextMap.Same [("weight", "400"), ("style", "roman")]
        [("style", "roman"), ("weight", "400")] := by
      intro name
      by_cases weight : name = "weight"
      · subst weight
        rfl
      · have unlike : (name == "weight") = false := beq_eq_false_iff_ne.mpr weight
        simp only [List.lookup_cons, List.lookup_nil, unlike]
    rintro e kept p ⟨ref, refers, invoice, handler, found, stored, offered, closed, held⟩
    simp only [gallery, Manifest.matching, List.mem_filter, List.mem_cons, List.not_mem_nil,
      or_false] at kept
    rcases kept.1 with rfl | rfl | rfl
    · cases refers
      cases stored
      cases offered
      cases closed
      cases List.mem_singleton.mp held
      exact ⟨_, rfl, TextMap.Same.refl _⟩
    · cases refers
    · cases refers
      cases stored
      cases offered
      cases closed
      cases List.mem_singleton.mp held
      exact ⟨_, rfl, turned⟩
  have consistent : galleryContext.ConsistentDependencies gallery := by
    intro e kept f alsoKept p q depends alsoDepends _ _
    rcases dependency e kept p depends with ⟨annotations, label, same⟩
    rcases dependency f alsoKept q alsoDepends with ⟨others, otherLabel, otherSame⟩
    rw [label, otherLabel]
    exact ⟨rfl, rfl, rfl, rfl, .none, .some fun name => (same name).trans (otherSame name).symm⟩
  have done : (galleryContext.expand gallery).outcome.toBool = true := by decide +kernel
  rcases Outcome.exists_of_toBool done with ⟨first, expanded⟩
  rcases (rearranged_of_perm entries consistent).1.mp ⟨first, expanded⟩ with ⟨second, turned⟩
  exact ⟨entries, consistent, first, second, expanded, turned,
    (rearranged_of_perm entries consistent).2 first second expanded turned⟩

end ExpansionContext
end Consignment
