import Consignment.Proofs.Expansion.Integrity

namespace Consignment

/-!
# Which entries share a group

The name of a group is put together from texts of its entry.  Two different entries can come
to the same name in two ways.  A text that tells them apart is not part of the name: a
module that is served at two routes has one group.  Or the texts run together: nothing
keeps the marks between them out of the texts themselves, so that the same name can be
divided at another place, or read as that of an entry of another kind.

`SpelledAlike` lists these ways for each pair of kinds, and `groupName_eq_iff` shows that
there are no others.  The files of a group are then those that the patterns of its entries
give, and an entry that is not spelled like another has its own files and no more.
-/

/-! ## Texts on both sides of a mark -/

theorem exists_piece_iff {first second first' second' : String} :
    (∃ piece, first'.toList = first.toList ++ piece ∧ second.toList = piece ++ second'.toList) ↔
      ∃ piece, first' = first ++ piece ∧ second = piece ++ second' := by
  constructor
  · rintro ⟨piece, longer, rest⟩
    refine ⟨String.ofList piece, ?_, ?_⟩ <;> apply String.toList_inj.mp <;> simpa
  · rintro ⟨piece, rfl, rfl⟩
    exact ⟨piece.toList, String.toList_append, String.toList_append⟩

theorem append_eq_append_iff {first second first' second' : String} :
    first ++ second = first' ++ second' ↔
      (∃ piece, first' = first ++ piece ∧ second = piece ++ second') ∨
      ∃ piece, first = first' ++ piece ∧ second' = piece ++ second := by
  -- the same fact of lists of characters
  rw [← String.toList_inj, String.toList_append, String.toList_append, List.append_eq_append_iff,
    exists_piece_iff, exists_piece_iff]

/-- The mark stands further to the right in the second pair: what its first text has more
begins, together with the mark, the rest of the first pair. -/
def Shifted (mark first second first' second' : String) : Prop :=
  ∃ piece, piece ≠ "" ∧ first' = first ++ piece ∧ mark ++ second = piece ++ (mark ++ second')

theorem append_mark_append_eq_iff {mark first second first' second' : String} :
    first ++ mark ++ second = first' ++ mark ++ second' ↔
      (first = first' ∧ second = second') ∨
        Shifted mark first second first' second' ∨ Shifted mark first' second' first second := by
  rw [String.append_assoc, String.append_assoc]
  constructor
  · intro same
    rcases append_eq_append_iff.mp same with ⟨piece, longer, rest⟩ | ⟨piece, longer, rest⟩
    · by_cases none : piece = ""
      · subst none
        exact Or.inl ⟨by simpa using longer.symm, by simpa using rest⟩
      · exact Or.inr (Or.inl ⟨piece, none, longer, rest⟩)
    · by_cases none : piece = ""
      · subst none
        exact Or.inl ⟨by simpa using longer, by simpa using rest.symm⟩
      · exact Or.inr (Or.inr ⟨piece, none, longer, rest⟩)
  · rintro (⟨rfl, rfl⟩ | ⟨piece, _, longer, rest⟩ | ⟨piece, _, longer, rest⟩)
    · rfl
    · exact append_eq_append_iff.mpr (Or.inl ⟨piece, longer, rest⟩)
    · exact append_eq_append_iff.mpr (Or.inr ⟨piece, longer, rest⟩)

/-! ## Names of groups -/

namespace Role

/-- What the name of a group says of its entry. -/
def stem : Role → String
  | handler modulePath _ => modulePath
  | imported ref route => "import:" ++ (ref.text ++ "-at-" ++ route)
  | exported modulePath exportId => modulePath ++ "-" ++ exportId

theorem groupName_eq_stem (role : Role) : role.groupName = role.stem ++ "-files" := by
  cases role with
  | handler modulePath route => rfl
  | imported ref route => simp only [groupName, stem, ExternalRef.text, String.append_assoc]
  | exported modulePath exportId => rfl

/-- The ways in which roles can come to the same name of a group, for each pair of kinds. -/
def SpelledAlike : Role → Role → Prop
  -- the route of a module is not part of the name
  | handler path _, handler other _ => path = other
  -- the path of a module spells an entry of another kind out
  | handler path _, exported other id => path = other ++ "-" ++ id
  | exported other id, handler path _ => path = other ++ "-" ++ id
  | handler path _, imported ref route => path = "import:" ++ (ref.text ++ "-at-" ++ route)
  | imported ref route, handler path _ => path = "import:" ++ (ref.text ++ "-at-" ++ route)
  -- so do the path and the id of an export
  | exported path id, imported ref route =>
    path ++ "-" ++ id = "import:" ++ (ref.text ++ "-at-" ++ route)
  | imported ref route, exported path id =>
    path ++ "-" ++ id = "import:" ++ (ref.text ++ "-at-" ++ route)
  -- the same text is divided at another place
  | exported path id, exported other otherId =>
    Shifted "-" path id other otherId ∨ Shifted "-" other otherId path id
  | imported ref route, imported other otherRoute =>
    (ref.text = other.text ∧ route = otherRoute) ∨
      Shifted "-at-" ref.text route other.text otherRoute ∨
      Shifted "-at-" other.text otherRoute ref.text route

theorem stem_eq_iff {r s : Role} : r.stem = s.stem ↔ r = s ∨ r.SpelledAlike s := by
  cases r with
  | handler path route =>
    cases s with
    | handler other otherRoute => simpa [stem, SpelledAlike] using fun same _ => same
    | imported ref otherRoute => simp [stem, SpelledAlike]
    | exported other id => simp [stem, SpelledAlike]
  | imported ref route =>
    cases s with
    | handler other otherRoute => simp [stem, SpelledAlike, eq_comm]
    | imported other otherRoute =>
      simp only [stem, SpelledAlike, String.append_right_inj, append_mark_append_eq_iff]
      constructor
      · exact Or.inr
      · rintro (same | alike)
        · cases same
          exact Or.inl ⟨rfl, rfl⟩
        · exact alike
    | exported other id => simp [stem, SpelledAlike, eq_comm]
  | exported path id =>
    cases s with
    | handler other otherRoute => simp [stem, SpelledAlike, eq_comm]
    | imported ref route => simp [stem, SpelledAlike]
    | exported other otherId =>
      simp only [stem, SpelledAlike, append_mark_append_eq_iff, exported.injEq]

/-- Roles have the same name of a group exactly when they are the same or spelled alike. -/
theorem groupName_eq_iff {r s : Role} : r.groupName = s.groupName ↔ r = s ∨ r.SpelledAlike s := by
  rw [groupName_eq_stem, groupName_eq_stem, String.append_left_inj, stem_eq_iff]

example : (exported "a-b" "c").groupName = (exported "a" "b-c").groupName := by decide

end Role

/-- A local file of a name and a content is a member of a group. -/
def Invoice.GroupHasFile (inv : Invoice) (group name digest : String) : Prop :=
  ∃ q ∈ inv.members group, q.isReference = false ∧ q.label.name = name ∧ q.label.sha256 = digest

namespace ExpansionContext

variable {c : ExpansionContext}

/-- The local files of a group are those that the patterns of its entries give. -/
theorem Parts.groupHasFile_iff {manifest : Manifest} (parts : c.Parts manifest)
    (group name digest : String) :
    parts.invoice.GroupHasFile group name digest ↔
      ∃ e ∈ manifest.matching c.values, e.role.groupName = group ∧
        ∃ pattern ∈ e.files.getD [], c.PatternGivesFile pattern name digest := by
  rw [← parts.file_member_iff]
  constructor
  · rintro ⟨q, member, own, named, content⟩
    have belongs := (Invoice.mem_members.mp member).2
    rcases List.mem_append.mp (parts.mem_of_mem_members member) with dependency | file
    · rw [parts.isReference_of_mem_external dependency] at own
      exact absurd own (by simp)
    · exact ⟨q, file, named, content, belongs⟩
  · rintro ⟨q, file, named, content, belongs⟩
    have held : q ∈ parts.invoice.parcels := List.mem_append_right _ file
    exact ⟨q, Invoice.mem_members.mpr ⟨held, belongs⟩,
      parts.isReference_of_mem_matchedParcels file, named, content⟩

/-- Entries that differ and are not spelled alike have different groups.  The local files of
the group that an entry's module requires are those of all entries with the group, and those
of the entry alone if no other entry is the same or spelled alike. -/
theorem files_of_groups (c : ExpansionContext) (manifest : Manifest) :
    (∀ e ∈ manifest.matching c.values, ∀ f ∈ manifest.matching c.values,
      e.role ≠ f.role → ¬ e.role.SpelledAlike f.role → e.role.groupName ≠ f.role.groupName) ∧
    ∀ inv, (c.expand manifest).outcome = .ok inv →
      ∀ (i : Nat) (e : Entry) (p : Parcel), (manifest.matching c.values)[i]? = some e →
        inv.parcels[i]? = some p →
        ∀ group ∈ p.requiredGroups, ∀ name digest,
          (inv.GroupHasFile group name digest ↔
            ∃ f ∈ manifest.matching c.values, f.role.groupName = e.role.groupName ∧
              ∃ pattern ∈ f.files.getD [], c.PatternGivesFile pattern name digest) ∧
          ((∀ f ∈ manifest.matching c.values, f ≠ e →
              f.role ≠ e.role ∧ ¬ f.role.SpelledAlike e.role) →
            (inv.GroupHasFile group name digest ↔
              ∃ pattern ∈ e.files.getD [], c.PatternGivesFile pattern name digest)) := by
  constructor
  · intro e _ f _ differ apart same
    exact (Role.groupName_eq_iff.mp same).elim differ apart
  · intro inv expanded i e p entry here group required name digest
    rcases expand_eq_ok.mp expanded with ⟨parts, rfl⟩
    have own : group = e.role.groupName := by
      rcases parts.exists_primary entry with ⟨q, there, had⟩
      cases Option.some.inj (here.symm.trans there)
      simpa [Parcel.requiredGroups, conditions_of_primaryParcel had] using required
    subst own
    have all := parts.groupHasFile_iff e.role.groupName name digest
    refine ⟨all, ?_⟩
    intro alone
    rw [all]
    constructor
    · rintro ⟨f, kept, same, given⟩
      by_cases equal : f = e
      · exact equal ▸ given
      · rcases alone f kept equal with ⟨differ, apart⟩
        exact ((Role.groupName_eq_iff.mp same).elim differ apart).elim
    · intro given
      exact ⟨e, List.mem_of_getElem? entry, rfl, given⟩

theorem files_of_groups_weather :
    (Role.handler "m" "/").groupName ≠ (Role.imported ⟨styles.id, "all"⟩ "/s").groupName ∧
      ∃ inv, (weatherContext.expand weather).outcome = .ok inv ∧
        ∀ name digest, inv.GroupHasFile "m-files" name digest ↔
          ∃ pattern ∈ ["*"], weatherContext.PatternGivesFile pattern name digest := by
  have files := files_of_groups weatherContext weather
  have apart : ¬ (Role.handler "m" "/").SpelledAlike (.imported ⟨styles.id, "all"⟩ "/s") := by
    show "m" ≠ _
    decide
  have own : ⟨.handler "m" "/", some ["*"], .always⟩ ∈ weather.matching weatherContext.values :=
    List.mem_cons_self
  have other : ⟨.imported ⟨styles.id, "all"⟩ "/s", some ["m", "*"], .always⟩ ∈
      weather.matching weatherContext.values :=
    List.mem_cons_of_mem _ List.mem_cons_self
  refine ⟨files.1 _ own _ other (by decide) apart, ?_⟩
  have done : (weatherContext.expand weather).outcome.toBool = true := by decide +kernel
  rcases Outcome.exists_of_toBool done with ⟨inv, expanded⟩
  refine ⟨inv, expanded, ?_⟩
  rcases expand_eq_ok.mp expanded with ⟨parts, rfl⟩
  rcases parts.exists_primary (i := 0) rfl with ⟨p, here, had⟩
  have required : "m-files" ∈ p.requiredGroups := by
    rw [Parcel.requiredGroups, conditions_of_primaryParcel had]
    exact List.mem_singleton_self _
  intro name digest
  apply (files.2 _ expanded 0 _ p rfl here "m-files" required name digest).2
  intro f kept differ
  rcases List.mem_cons.mp kept with same | rest
  · exact absurd same differ
  · rw [List.mem_singleton.mp rest]
    refine ⟨by decide, ?_⟩
    show "m" ≠ _
    decide

/-- A module that is served at two routes, with a file for each. -/
def twoRoutes : Manifest where
  packageName := "weather"
  packageVersion := "1"
  entries := [⟨.handler "m" "/a", some ["a"], .always⟩, ⟨.handler "m" "/b", some ["b"], .always⟩]

def twoRoutesContext : ExpansionContext where
  base := ⟨.root, ["app"]⟩
  disk := { nodes := [(["app"], .directory), (["app", "m"], .file ⟨#[1]⟩),
    (["app", "a"], .file ⟨#[2]⟩), (["app", "b"], .file ⟨#[3]⟩)] }
  versioning := .production
  stamp := ⟨⟨⟨2024, 1, 2⟩, 3, 4, 5, 6, none⟩, none⟩

/-- Two routes of a module differ and have one group: what the second route requires has
the file of the first, which no pattern of the second gives. -/
theorem groupName_twoRoutes :
    ∃ e ∈ twoRoutes.matching [], ∃ f ∈ twoRoutes.matching [],
      e.role ≠ f.role ∧ e.role.groupName = f.role.groupName ∧
      ∃ inv, (twoRoutesContext.expand twoRoutes).outcome = .ok inv ∧
        (∃ q ∈ inv.members f.role.groupName, q.isReference = false ∧ q.label.name = "a") ∧
        ∀ pattern ∈ f.files.getD [], ∀ digest,
          ¬ twoRoutesContext.PatternGivesFile pattern "a" digest := by
  have done : ((twoRoutesContext.expand twoRoutes).outcome.map fun inv =>
      (inv.members "m-files").any fun q => !q.isReference && q.label.name == "a").toOption =
        some true := by
    decide +kernel
  rcases Outcome.exists_of_toOption done with ⟨inv, expanded, held⟩
  refine ⟨_, List.mem_cons_self, _, List.mem_cons_of_mem _ List.mem_cons_self, by decide, rfl,
    inv, expanded, ?_, ?_⟩
  · have served : (Role.handler "m" "/b").groupName = "m-files" := rfl
    rw [served]
    simpa using held
  · rintro pattern asked digest
      ⟨path, bytes, ⟨found, matching, ⟨text, listed, rfl⟩, _⟩, named, _⟩
    have only : pattern = "b" := by simpa using asked
    have given : Glob.matching twoRoutesContext.disk twoRoutesContext.base "b" = .ok ["b"] := by
      rfl
    rw [only, given] at matching
    cases matching
    rw [List.mem_singleton.mp listed] at named
    have own : twoRoutesContext.nameOf (twoRoutesContext.base.join "b") = .ok "b" := by rfl
    rw [own] at named
    exact absurd named (by simp)

end ExpansionContext
end Consignment
