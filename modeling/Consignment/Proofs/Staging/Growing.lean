import Consignment.Proofs.Digest
import Consignment.Proofs.Staging.Writing

namespace Consignment

/-!
# What staging adds to a disk

Staging makes directories, copies contents to where nothing is, and replaces the invoice as a
whole.  So up to the invoice a disk only grows: by directories on the way to the contents of
the package, and by copies of the files that its parcels name, each under the digest of its
parcel.  The places of all these are computed from the path of the staging directory, with
every double dot taking back the name before it.

Nothing here asks whether a digest is that of a content, or what a digest looks like.  It only
has to be without slashes, because a content is filed under it as it stands.
-/

namespace Staging

/-- Strictly inside a directory. -/
def Below (top q : Place) : Prop :=
  ∃ name rest, q = top ++ name :: rest

theorem below_iff_prefix {top q : Place} : Below top q ↔ top <+: q ∧ top.length < q.length := by
  constructor
  · rintro ⟨name, rest, rfl⟩
    exact ⟨List.prefix_append _ _, by simp⟩
  · rintro ⟨⟨rest, rfl⟩, longer⟩
    cases rest with
    | nil => simp at longer
    | cons name others => exact ⟨name, others, rfl⟩

instance (top q : Place) : Decidable (Below top q) :=
  decidable_of_iff _ below_iff_prefix.symm

/-- Where a content of a package is in a staging directory. -/
def contentPlace (top : Place) (directory digest : String) : Place :=
  top ++ [directory, "parcels", digest ++ ".dat"]

/-- Where the invoice of a package is in a staging directory. -/
def invoicePlace (top : Place) (directory : String) : Place :=
  top ++ [directory, "invoice.yml"]

/-! ## Paths in a staging directory -/

variable {d made filled : Disk} {staging : Path}

theorem directoryOf_eq (staging : Path) (id : PackageId) :
    directoryOf staging id = ⟨staging.anchor, staging.parts ++ [Digest.ofText id.text]⟩ :=
  Path.join_of_isName (Digest.isName_ofText id.text).1 staging

theorem contentsOf_eq (staging : Path) (id : PackageId) :
    contentsOf staging id =
      ⟨staging.anchor, staging.parts ++ [Digest.ofText id.text] ++ ["parcels"]⟩ := by
  have parcels : Path.IsName "parcels" := by
    unfold Path.IsName
    decide
  rw [contentsOf, directoryOf_eq, Path.join_of_isName parcels]

theorem invoiceOf_eq (staging : Path) (id : PackageId) :
    invoiceOf staging id =
      ⟨staging.anchor, staging.parts ++ [Digest.ofText id.text] ++ ["invoice.yml"]⟩ := by
  rw [invoiceOf, directoryOf_eq, Path.join_of_isName isName_invoice]

/-- The directory of the invoice is that of the contents. -/
theorem parent_invoiceOf (staging : Path) (id : PackageId) :
    (invoiceOf staging id).parent = (contentsOf staging id).parent := by
  rw [contentsOf_eq, invoiceOf_eq, Path.parent, Path.parent, List.dropLast_concat,
    List.dropLast_concat]

/-- A digest without slashes names, with its ending, one file. -/
theorem isName_content {digest : String} (plain : '/' ∉ digest.toList) :
    Path.IsName (digest ++ ".dat") ∧ digest ++ ".dat" ≠ ".." := by
  apply Path.isName_of_length
  · have ending : ".dat".length = 4 := rfl
    rw [String.length_append]
    omega
  · rw [String.toList_append, List.mem_append, not_or]
    exact ⟨plain, by decide⟩

theorem contentFile_eq (contents : Path) {label : Label} (plain : '/' ∉ label.sha256.toList) :
    contentFile contents label = ⟨contents.anchor, contents.parts ++ [label.sha256 ++ ".dat"]⟩ :=
  Path.join_of_isName (isName_content plain).1 contents

theorem proper_append {parts : List String} {name : String} (proper : Disk.Proper parts)
    (named : Path.IsName name) : Disk.Proper (parts ++ [name]) := by
  intro part mem
  rcases List.mem_append.mp mem with front | last
  · exact proper part front
  · rw [List.mem_singleton.mp last]
    exact ⟨named.1, named.2.1⟩

theorem proper_ofText (text : String) : Disk.Proper (Path.ofText text).parts := by
  intro part mem
  have named := Path.isName_of_mem_ofText mem
  exact ⟨named.1, named.2.1⟩

/-- A name at the end of a path leads down from the place of the path. -/
theorem placeOf_append (d : Disk) (p : Path) {name : String} (down : name ≠ "..") :
    d.placeOf ⟨p.anchor, p.parts ++ [name]⟩ = d.placeOf p ++ [name] := by
  have last : ".." ∉ [name] := List.mem_singleton.not.mpr (Ne.symm down)
  rw [Disk.placeOf_eq_follow, Disk.follow_append, Disk.follow_eq_append last]
  rfl

theorem proper_contentsOf (proper : Disk.Proper staging.parts) (id : PackageId) :
    Disk.Proper (contentsOf staging id).parts := by
  have directory := (Digest.isName_ofText id.text).1
  rw [contentsOf_eq]
  apply proper_append (proper_append proper directory)
  unfold Path.IsName
  decide

theorem proper_invoiceOf (proper : Disk.Proper staging.parts) (id : PackageId) :
    Disk.Proper (invoiceOf staging id).parts := by
  have directory := (Digest.isName_ofText id.text).1
  rw [invoiceOf_eq]
  exact proper_append (proper_append proper directory) isName_invoice

theorem placeOf_directoryOf (d : Disk) (staging : Path) (id : PackageId) :
    d.placeOf (directoryOf staging id) = d.placeOf staging ++ [Digest.ofText id.text] := by
  rw [directoryOf_eq, placeOf_append d staging (Digest.isName_ofText id.text).2]

theorem placeOf_contentsOf (d : Disk) (staging : Path) (id : PackageId) :
    d.placeOf (contentsOf staging id) =
      d.placeOf staging ++ [Digest.ofText id.text, "parcels"] := by
  have inside := placeOf_append d (directoryOf staging id) (show "parcels" ≠ ".." by decide)
  rw [placeOf_directoryOf, List.append_assoc, directoryOf_eq] at inside
  rw [contentsOf_eq]
  exact inside

theorem placeOf_invoiceOf (d : Disk) (staging : Path) (id : PackageId) :
    d.placeOf (invoiceOf staging id) =
      invoicePlace (d.placeOf staging) (Digest.ofText id.text) := by
  have inside := placeOf_append d (directoryOf staging id) (show "invoice.yml" ≠ ".." by decide)
  rw [placeOf_directoryOf, List.append_assoc, directoryOf_eq] at inside
  rw [invoiceOf_eq]
  exact inside

/-- On the way to the contents of a package are the contents' directory and what is on the
way to the package's. -/
theorem cases_of_onTheWay {id : PackageId} {q : Place} {node : Node}
    (way : d.OnTheWay (contentsOf staging id) q node) :
    (node = .directory ∧ q = d.placeOf staging ++ [Digest.ofText id.text, "parcels"]) ∨
      d.OnTheWay (directoryOf staging id) q node := by
  rcases way with ⟨directory, parts, front, rfl⟩
  have whole := placeOf_contentsOf d staging id
  rw [contentsOf_eq] at front whole ⊢
  rw [directoryOf_eq]
  rcases List.prefix_concat_iff.mp front with rfl | shorter
  · exact Or.inl ⟨directory, whole⟩
  · exact Or.inr ⟨directory, parts, shorter, rfl⟩

/-- On the way to the directory of a package are the directory and what is on the way to the
staging directory. -/
theorem cases_of_onTheWay_directoryOf {id : PackageId} {q : Place} {node : Node}
    (way : d.OnTheWay (directoryOf staging id) q node) :
    (node = .directory ∧ q = d.placeOf staging ++ [Digest.ofText id.text]) ∨
      d.OnTheWay staging q node := by
  rcases way with ⟨directory, parts, front, rfl⟩
  have whole := placeOf_directoryOf d staging id
  rw [directoryOf_eq] at front whole ⊢
  rcases List.prefix_concat_iff.mp front with rfl | outer
  · exact Or.inl ⟨directory, whole⟩
  · exact Or.inr ⟨directory, parts, outer, rfl⟩

/-- A path without double dots leads to no place below the one that it names. -/
theorem not_below_of_onTheWay {q : Place} {node : Node} (down : ".." ∉ staging.parts)
    (way : d.OnTheWay staging q node) : ¬ Below (d.placeOf staging) q := by
  rcases way with ⟨_, parts, ⟨rest, whole⟩, rfl⟩
  rintro ⟨name, others, inside⟩
  have front : ".." ∉ parts := fun mem => down (whole ▸ List.mem_append_left rest mem)
  rw [Disk.placeOf_eq_follow, Disk.follow_eq_append down, Disk.follow_eq_append front,
    ← whole] at inside
  have lengths := congrArg List.length inside
  simp only [List.length_append, List.length_cons] at lengths
  omega

/-! ## Contents -/

/-- What writing the content of a parcel may add: the file of its name, under its digest. -/
def Copied (d : Disk) (source : Path) (place : Place) (label : Label) (q : Place) (node : Node) :
    Prop :=
  q = place ++ [label.sha256 ++ ".dat"] ∧
    ∃ bytes, node = .file bytes ∧ d.read (source.join label.name) = .ok bytes

variable {allowed : Place → Node → Prop} {source contents : Path} {place : Place} {label : Label}

theorem proper_contentFile (plain : '/' ∉ label.sha256.toList)
    (proper : Disk.Proper contents.parts) : Disk.Proper (contentFile contents label).parts := by
  rw [contentFile_eq contents plain]
  exact proper_append proper (isName_content plain).1

theorem placeOf_contentFile (plain : '/' ∉ label.sha256.toList)
    (leads : d.placeOf contents = place) :
    d.placeOf (contentFile contents label) = place ++ [label.sha256 ++ ".dat"] := by
  rw [contentFile_eq contents plain, placeOf_append d contents (isName_content plain).2, leads]

/-- A copy for a parcel is put where nothing was. -/
theorem grown_of_copied {after : Disk} (proper : Disk.Proper contents.parts)
    (leads : d.placeOf contents = place) (plain : '/' ∉ label.sha256.toList)
    (missing : d.holds (contentFile contents label) = .ok false)
    (copied : d.copyFile (source.join label.name) (contentFile contents label) =
      (after, .ok ())) :
    Disk.Grown (Copied d source place label) d after ∧
      (after.node? (place ++ [label.sha256 ++ ".dat"])).isSome := by
  rcases Disk.copyFile_of_missing missing copied with ⟨bytes, parent, name, found, vacant, rfl⟩
  have here : parent ++ [name] = place ++ [label.sha256 ++ ".dat"] := by
    rw [← vacant.placeOf_eq (proper_contentFile plain proper), placeOf_contentFile plain leads]
  refine ⟨.put vacant.free ⟨here, bytes, rfl, found⟩, ?_⟩
  rw [Disk.node?_put d (by simp), if_pos here.symm]
  rfl

/-- Writing the content of a parcel copies the file of its name, unless there is something
under its digest. -/
theorem writeContent_copies (source : Path) (proper : Disk.Proper contents.parts)
    (leads : d.placeOf contents = place) (plain : '/' ∉ label.sha256.toList) :
    Disk.Grown (Copied d source place label) d (writeContent d source contents label).1 ∧
      ∀ count, (writeContent d source contents label).2 = .ok count →
        ((writeContent d source contents label).1.node?
          (place ++ [label.sha256 ++ ".dat"])).isSome := by
  unfold writeContent
  simp only
  split
  · exact ⟨.refl d, fun count done => absurd done (by simp)⟩
  · rename_i held
    refine ⟨.refl d, fun count done => ?_⟩
    rcases Disk.holds_eq_ok_true.mp held with ⟨node, found⟩
    rcases Disk.stat_eq_ok.mp found with ⟨_, q, located, there⟩
    rw [Disk.locate_eq_placeOf (proper_contentFile plain proper) located,
      placeOf_contentFile plain leads] at there
    exact Option.isSome_iff_exists.mpr ⟨node, there⟩
  · rename_i missing
    split
    · rename_i after copied
      have grown := grown_of_copied proper leads plain missing copied
      exact ⟨grown.1, fun count done => grown.2⟩
    · rename_i failed
      rw [Disk.copyFile_eq_error failed]
      exact ⟨.refl d, fun count done => absurd done (by simp)⟩
    · rename_i failed
      rw [Disk.copyFile_eq_error failed]
      exact ⟨.refl d, fun count done => absurd done (by simp)⟩

/-- Writing contents lets a disk grow if every copy on the way is allowed, and when it
succeeds there is something under the digest of every parcel that is no reference. -/
theorem writeContents_copies {parcels : List Parcel} (proper : Disk.Proper contents.parts)
    (leads : d.placeOf contents = place)
    (plain : ∀ p ∈ parcels, p.isReference = false → '/' ∉ p.label.sha256.toList)
    (allows : ∀ p ∈ parcels, p.isReference = false → ∀ since, Disk.Grown allowed d since →
      ∀ q node, Copied since source place p.label q node → allowed q node) :
    Disk.Grown allowed d (writeContents d source contents parcels).1 ∧
      ∀ count, (writeContents d source contents parcels).2 = .ok count →
        ∀ p ∈ parcels, p.isReference = false →
          ((writeContents d source contents parcels).1.node?
            (place ++ [p.label.sha256 ++ ".dat"])).isSome := by
  induction parcels generalizing d with
  | nil => exact ⟨.refl d, fun count done p mem => absurd mem List.not_mem_nil⟩
  | cons first rest ih =>
    have plainLater : ∀ p ∈ rest, p.isReference = false → '/' ∉ p.label.sha256.toList :=
      fun p mem => plain p (List.mem_cons_of_mem _ mem)
    rw [writeContents]
    split
    · rename_i reference
      rcases ih leads plainLater fun p mem => allows p (List.mem_cons_of_mem _ mem) with
        ⟨grown, present⟩
      refine ⟨grown, fun count done p mem own => ?_⟩
      rcases List.mem_cons.mp mem with rfl | behind
      · rw [reference] at own
        exact absurd own (by simp)
      · exact present count done p behind own
    · rename_i own
      rw [Bool.not_eq_true] at own
      have copies := writeContent_copies source proper leads (plain first List.mem_cons_self own)
      have one : Disk.Grown allowed d (writeContent d source contents first.label).1 :=
        copies.1.mono (allows first List.mem_cons_self own d (.refl d))
      rcases written : writeContent d source contents first.label with ⟨middle, failure | count⟩
      · rw [written] at one
        exact ⟨one, fun count done => absurd done (by simp)⟩
      · rw [written] at one copies
        have later : ∀ p ∈ rest, p.isReference = false → ∀ since, Disk.Grown allowed middle since →
            ∀ q node, Copied since source place p.label q node → allowed q node :=
          fun p mem own since grown =>
            allows p (List.mem_cons_of_mem _ mem) own since (one.trans grown)
        rcases ih ((one.placeOf contents).trans leads) plainLater later with ⟨grown, present⟩
        rcases others : writeContents middle source contents rest with ⟨after, failure | more⟩
        · rw [others] at grown
          simp only [others]
          exact ⟨one.trans grown, fun count done => absurd done (by simp)⟩
        · rw [others] at grown present
          simp only [others]
          refine ⟨one.trans grown, fun _ _ p mem here => ?_⟩
          rcases List.mem_cons.mp mem with rfl | behind
          · exact grown.isSome (copies.2 count rfl)
          · exact present more rfl p behind here

/-! ## A package -/

/-- What staging adds to a disk, apart from the invoice: directories on the way to the contents
of the package, and copies of the files that its parcels name when it comes to them. -/
def Remnant (d : Disk) (source staging : Path) (inv : Invoice) (q : Place) (node : Node) : Prop :=
  d.OnTheWay (contentsOf staging inv.id) q node ∨
    ∃ p ∈ inv.parcels, p.isReference = false ∧ ∃ since, Disk.Grown (fun _ _ => True) d since ∧
      Copied since source (d.placeOf (contentsOf staging inv.id)) p.label q node

/-- What staging does to a disk, by its outcome: up to the invoice the disk grows, and the
invoice is replaced when there is something under the digest of every parcel that is no
reference. -/
inductive Wrote (d : Disk) (source staging : Path) (inv : Invoice) (after : Disk) :
    Except Failure Path → Prop
  | failed {failure : Failure} (grown : Disk.Grown (Remnant d source staging inv) d after) :
      Wrote d source staging inv after (.error failure)
  | published {filled : Disk} {directory : Path}
      (grown : Disk.Grown (Remnant d source staging inv) d filled)
      (present : ∀ p ∈ inv.parcels, p.isReference = false →
        (filled.node? (contentPlace (d.placeOf staging) (Digest.ofText inv.id.text)
          p.label.sha256)).isSome)
      (invoice : ∀ q, after.node? q =
        if q = invoicePlace (d.placeOf staging) (Digest.ofText inv.id.text) then
          some (.file (Yaml.dump inv.toValue).toUTF8)
        else filled.node? q) : Wrote d source staging inv after (.ok directory)

section package

variable {inv : Invoice} (source : Path) (proper : Disk.Proper staging.parts)

include proper

theorem grown_contents
    (plain : ∀ p ∈ inv.parcels, p.isReference = false → '/' ∉ p.label.sha256.toList)
    (grown : Disk.Grown (Remnant d source staging inv) d made) :
    Disk.Grown (Remnant d source staging inv) d
        (writeContents made source (contentsOf staging inv.id) inv.parcels).1 ∧
      ∀ count, (writeContents made source (contentsOf staging inv.id) inv.parcels).2 = .ok count →
        ∀ p ∈ inv.parcels, p.isReference = false →
          ((writeContents made source (contentsOf staging inv.id) inv.parcels).1.node?
            (contentPlace (d.placeOf staging) (Digest.ofText inv.id.text)
              p.label.sha256)).isSome := by
  have leads : made.placeOf (contentsOf staging inv.id) = d.placeOf (contentsOf staging inv.id) :=
    grown.placeOf _
  have allows : ∀ p ∈ inv.parcels, p.isReference = false →
      ∀ since, Disk.Grown (Remnant d source staging inv) made since → ∀ q node,
        Copied since source (d.placeOf (contentsOf staging inv.id)) p.label q node →
          Remnant d source staging inv q node := by
    intro p mem own since later q node copied
    have whole : Disk.Grown (fun _ _ => True) d since :=
      (grown.trans later).mono fun _ _ _ => trivial
    exact Or.inr ⟨p, mem, own, since, whole, copied⟩
  rcases writeContents_copies (proper_contentsOf proper inv.id) leads plain allows with
    ⟨copies, present⟩
  refine ⟨grown.trans copies, ?_⟩
  intro count done p mem own
  have there := present count done p mem own
  rwa [placeOf_contentsOf, List.append_assoc] at there

theorem grown_ensureDirectory_parent (grown : Disk.Grown (Remnant d source staging inv) d filled) :
    Disk.Grown (Remnant d source staging inv) d
      (filled.ensureDirectory (invoiceOf staging inv.id).parent).1 := by
  rw [parent_invoiceOf]
  apply grown.trans
  apply (Disk.grown_ensureDirectory (proper_contentsOf proper inv.id).parent).mono
  intro q node way
  exact Or.inl (grown.onTheWay way.of_parent)

/-- An invoice that cannot be written leaves what is there before it. -/
theorem wrote_of_error {after : Disk} {fault : Fault} (failure : Failure)
    (grown : Disk.Grown (Remnant d source staging inv) d filled)
    (failed : filled.replaceFile (invoiceOf staging inv.id) (Yaml.dump inv.toValue).toUTF8 =
      (after, .error fault)) : Wrote d source staging inv after (.error failure) := by
  rcases Disk.replaceFile_eq_error failed with ⟨here, same⟩
  exact .failed ((grown_ensureDirectory_parent source proper grown).of_same here same)

/-- An invoice that is written is at its place, behind the contents. -/
theorem wrote_of_ok {after : Disk} (directory : Path)
    (grown : Disk.Grown (Remnant d source staging inv) d filled)
    (present : ∀ p ∈ inv.parcels, p.isReference = false →
      (filled.node? (contentPlace (d.placeOf staging) (Digest.ofText inv.id.text)
        p.label.sha256)).isSome)
    (replaced : filled.replaceFile (invoiceOf staging inv.id) (Yaml.dump inv.toValue).toUTF8 =
      (after, .ok ())) : Wrote d source staging inv after (.ok directory) := by
  have made := grown_ensureDirectory_parent source proper grown
  have since : Disk.Grown _ filled (filled.ensureDirectory (invoiceOf staging inv.id).parent).1 :=
    Disk.grown_ensureDirectory (proper_invoiceOf proper inv.id).parent
  rcases Disk.replaceFile_eq_ok replaced with ⟨place, document⟩
  have here : place = invoicePlace (d.placeOf staging) (Digest.ofText inv.id.text) := by
    rw [document.place_eq (proper_invoiceOf proper inv.id), made.placeOf, placeOf_invoiceOf]
  refine .published made ?_ (here ▸ document.node)
  intro p mem own
  exact since.isSome (present p mem own)

theorem wrote_write
    (plain : ∀ p ∈ inv.parcels, p.isReference = false → '/' ∉ p.label.sha256.toList) :
    Wrote d source staging inv (write d source staging inv).1
      (write d source staging inv).2.outcome := by
  have ensured : Disk.Grown (Remnant d source staging inv) d
      (d.ensureDirectory (contentsOf staging inv.id)).1 :=
    (Disk.grown_ensureDirectory (proper_contentsOf proper inv.id)).mono fun q node => Or.inl
  rcases write_cases d source staging inv with ⟨made, fault, first, failed⟩ |
    ⟨made, failure, first, failed⟩ | ⟨made, filled, count, first, second, disk, succeeds⟩
  · rw [first] at ensured
    rw [failed]
    exact .failed ensured
  · rw [first] at ensured
    rw [failed]
    exact .failed (grown_contents source proper plain ensured).1
  · rw [first] at ensured
    have contents := grown_contents source proper plain ensured
    rw [second] at contents
    rw [disk]
    rcases replaced : filled.replaceFile (invoiceOf staging inv.id) (Yaml.dump inv.toValue).toUTF8
      with ⟨after, fault | done⟩
    · rw [replaced] at succeeds
      rcases outcome : (write d source staging inv).2.outcome with failure | directory
      · exact wrote_of_error source proper failure contents.1 replaced
      · exact absurd (succeeds.mp ⟨directory, outcome⟩) (by simp)
    · rw [replaced] at succeeds
      rcases succeeds.mpr rfl with ⟨directory, outcome⟩
      rw [outcome]
      exact wrote_of_ok source proper directory contents.1 (contents.2 count rfl) replaced

end package

end Staging
end Consignment
