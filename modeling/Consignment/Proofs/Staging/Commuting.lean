import Consignment.Proofs.Staging.Repeating

namespace Consignment

/-!
# Staging packages in either order

What stands where after a package was staged is computed from the disk before: the invoice at its
place; everywhere else what was there, or else a directory on the way to the contents, or else the
file that the first parcel with the digest of the place names.  The file is the one of the disk
before, unless it lies in the staging directory itself and came to be while the package was staged.

Two packages with directories of their own meet in nothing but the way to the staging directory.
Where one of them adds a content or an invoice the other adds nothing, and both make the same
directories on the way.  So it does not matter which of them is staged first.

Nothing is said of writes that fail, which leave some of the contents behind and no invoice.
-/

/-- Two values in either order are the same when they are not different. -/
theorem or_comm_of_unique {α : Type} {one other : Option α}
    (unique : ∀ x y, one = some x → other = some y → x = y) : one.or other = other.or one := by
  cases one with
  | none => rw [Option.none_or, Option.or_none]
  | some x =>
    cases other with
    | none => rw [Option.none_or, Option.or_none]
    | some y => rw [Option.some_or, Option.some_or, unique x y rfl rfl]

namespace Disk

variable {d d' : Disk}

/-- The content of a place that holds a file. -/
def file? (d : Disk) (q : Place) : Option ByteArray :=
  match d.node? q with
  | some (.file bytes) => some bytes
  | _ => none

theorem file?_congr {q : Place} (same : d'.node? q = d.node? q) : d'.file? q = d.file? q := by
  rw [file?, file?, same]

theorem ne_directory_of_file? {q : Place} (held : (d.file? q).isSome = true) :
    d.node? q ≠ some .directory := by
  intro directory
  rw [file?, directory] at held
  cases held

/-- A directory that is new at a place is no file there. -/
theorem file?_of_directory {q : Place} {made : Prop} [Decidable made]
    (node : d'.node? q = (d.node? q).or (if made then some .directory else none)) :
    d'.file? q = d.file? q := by
  rw [file?, file?, node]
  cases d.node? q with
  | some node => rw [Option.some_or]
  | none => by_cases new : made <;> simp [new]

theorem file?_of_read {p : Path} {bytes : ByteArray} (proper : Proper p.parts)
    (read : d.read p = .ok bytes) : d.file? (d.placeOf p) = some bytes := by
  rcases stat_eq_ok.mp (read_eq_ok.mp read) with ⟨-, place, located, held⟩
  rw [← locate_eq_placeOf proper located, file?, held]

end Disk

namespace Staging

variable {d after : Disk} {source staging contents directory : Path} {inv : Invoice}

theorem proper_join {base : Path} (proper : Disk.Proper base.parts) (text : String) :
    Disk.Proper (base.join text).parts := by
  unfold Path.join Path.append
  split
  · intro part mem
    rcases List.mem_append.mp mem with front | back
    · exact proper part front
    · exact proper_ofText text part back
  · exact proper_ofText text

/-! ## Contents -/

/-- The content that the parcels put at a place: that of the first one which has a digest of this
place. -/
def contentAt (d : Disk) (source : Path) (place : Place) (parcels : List Parcel) (q : Place) :
    Option Node :=
  (parcels.find? fun p => !p.isReference && decide (q = place ++ [p.label.sha256 ++ ".dat"])).bind
    fun p => (d.file? (d.placeOf (source.join p.label.name))).map Node.file

/-- Contents are put in the directory of the contents. -/
theorem exists_of_contentAt {place : Place} {parcels : List Parcel} {q : Place} {node : Node}
    (content : contentAt d source place parcels q = some node) :
    ∃ digest, q = place ++ [digest ++ ".dat"] := by
  rcases Option.bind_eq_some_iff.mp content with ⟨p, found, -⟩
  have here := List.find?_some found
  simp only [Bool.and_eq_true, decide_eq_true_eq] at here
  exact ⟨p.label.sha256, here.2⟩

theorem contentAt_cons {place : Place} {first : Parcel} {rest : List Parcel} {q : Place} :
    contentAt d source place (first :: rest) q =
      if first.isReference = false ∧ q = place ++ [first.label.sha256 ++ ".dat"] then
        (d.file? (d.placeOf (source.join first.label.name))).map Node.file
      else contentAt d source place rest q := by
  simp only [contentAt, List.find?_cons]
  cases reference : first.isReference <;>
    by_cases here : q = place ++ [first.label.sha256 ++ ".dat"] <;> simp [here]

/-- Contents come from the files of the parcels alone. -/
theorem contentAt_congr {d' : Disk} {place : Place} {parcels : List Parcel}
    (here : d'.here = d.here)
    (files : ∀ p ∈ parcels, p.isReference = false →
      d'.file? (d.placeOf (source.join p.label.name)) =
        d.file? (d.placeOf (source.join p.label.name))) (q : Place) :
    contentAt d' source place parcels q = contentAt d source place parcels q := by
  unfold contentAt
  cases found : parcels.find? fun p =>
      !p.isReference && decide (q = place ++ [p.label.sha256 ++ ".dat"]) with
  | none => rfl
  | some p =>
    have own := List.find?_some found
    simp only [Bool.and_eq_true, Bool.not_eq_true'] at own
    rw [Option.bind_some, Option.bind_some, Disk.placeOf_congr here,
      files p (List.mem_of_find?_eq_some found) own.1]

section contents

variable {place : Place} (properSource : Disk.Proper source.parts)
  (proper : Disk.Proper contents.parts)

include properSource proper

/-- Writing a content changes its own place at most, and only when that is free. -/
theorem node?_writeContent {label : Label} {count : Nat} (leads : d.placeOf contents = place)
    (plain : '/' ∉ label.sha256.toList)
    (written : writeContent d source contents label = (after, .ok count)) (q : Place) :
    after.node? q = (d.node? q).or
      (if q = place ++ [label.sha256 ++ ".dat"] then
        (d.file? (d.placeOf (source.join label.name))).map Node.file else none) := by
  have target : d.placeOf (contentFile contents label) = place ++ [label.sha256 ++ ".dat"] :=
    placeOf_contentFile plain leads
  have properTarget := proper_contentFile plain proper
  rcases writeContent_eq_ok.mp written with ⟨held, rfl, -⟩ | ⟨missing, copied, -⟩
  · rcases Disk.holds_eq_ok_true.mp held with ⟨node, found⟩
    rcases Disk.stat_eq_ok.mp found with ⟨-, r, located, there⟩
    rw [Disk.locate_eq_placeOf properTarget located, target] at there
    split
    · rename_i same
      rw [same, there, Option.some_or]
    · rw [Option.or_none]
  · rcases Disk.copyFile_of_missing missing copied with ⟨bytes, parent, name, found, vacant, rfl⟩
    have here : parent ++ [name] = place ++ [label.sha256 ++ ".dat"] := by
      rw [← vacant.placeOf_eq properTarget, target]
    have free := vacant.free
    rw [Disk.node?_put d (by simp)]
    rw [here] at free ⊢
    split
    · rename_i same
      rw [same, free, Option.none_or,
        Disk.file?_of_read (proper_join properSource label.name) found, Option.map_some]
    · rw [Option.or_none]

/-- Writing contents fills the places that are free, each from the first parcel that it is for.  The
sources are not among these places, so every parcel finds its source as it was. -/
theorem node?_writeContents {parcels : List Parcel} {count : Nat}
    (leads : d.placeOf contents = place)
    (plain : ∀ p ∈ parcels, p.isReference = false → '/' ∉ p.label.sha256.toList)
    (apart : ∀ p ∈ parcels, p.isReference = false → ∀ name,
      d.placeOf (source.join p.label.name) ≠ place ++ [name])
    (written : writeContents d source contents parcels = (after, .ok count)) (q : Place) :
    after.node? q = (d.node? q).or (contentAt d source place parcels q) := by
  induction parcels generalizing d count with
  | nil =>
    cases written
    exact (Option.or_none).symm
  | cons first rest ih =>
    have plainLater : ∀ p ∈ rest, p.isReference = false → '/' ∉ p.label.sha256.toList :=
      fun p mem => plain p (List.mem_cons_of_mem _ mem)
    have apartLater : ∀ p ∈ rest, p.isReference = false → ∀ name,
        d.placeOf (source.join p.label.name) ≠ place ++ [name] :=
      fun p mem => apart p (List.mem_cons_of_mem _ mem)
    rcases writeContents_cons_eq_ok.mp written with
      ⟨reference, others⟩ | ⟨own, middle, one, more, firstWritten, restWritten, -⟩
    · rw [contentAt_cons, if_neg (by simp [reference])]
      exact ih leads plainLater apartLater others
    · have digest := plain first List.mem_cons_self own
      have nodes := node?_writeContent properSource proper leads digest firstWritten
      have copies := writeContent_copies source proper leads digest
      rw [firstWritten] at copies
      have here : middle.here = d.here := copies.1.here
      have files : ∀ p ∈ rest, p.isReference = false →
          middle.file? (d.placeOf (source.join p.label.name)) =
            d.file? (d.placeOf (source.join p.label.name)) := by
        intro p mem later
        refine Disk.file?_congr ?_
        rw [nodes, if_neg (apartLater p mem later _), Option.or_none]
      have others := ih ((Disk.placeOf_congr here contents).trans leads) plainLater
        (fun p mem later => Disk.placeOf_congr here _ ▸ apartLater p mem later) restWritten
      rw [others, contentAt_congr here files, contentAt_cons]
      by_cases target : q = place ++ [first.label.sha256 ++ ".dat"]
      · -- the place of the first content is taken, so that no later one is copied there
        rcases Option.isSome_iff_exists.mp (copies.2 one rfl) with ⟨node, taken⟩
        have copied := nodes q
        rw [if_pos target] at copied
        rw [if_pos ⟨own, target⟩, ← copied, target, taken, Option.some_or]
      · rw [if_neg (fun both => target both.2), nodes, if_neg target, Option.or_none]

end contents

/-! ## A package -/

/-- What staging a package puts at a place that is free: a directory on the way to the contents,
or a content. -/
def addedAt (d : Disk) (source staging : Path) (inv : Invoice) (q : Place) : Option Node :=
  (if q ∈ d.placesTo (contentsOf staging inv.id) then some .directory else none).or
    (contentAt d source (d.placeOf (contentsOf staging inv.id)) inv.parcels q)

/-- The files that a package is staged from are not in the staging directory. -/
def SourcesOutside (d : Disk) (source staging : Path) (inv : Invoice) : Prop :=
  ∀ p ∈ inv.parcels, p.isReference = false →
    ¬ Below (d.placeOf staging) (d.placeOf (source.join p.label.name))

instance (d : Disk) (source staging : Path) (inv : Invoice) :
    Decidable (SourcesOutside d source staging inv) :=
  inferInstanceAs (Decidable (∀ p ∈ inv.parcels, p.isReference = false →
    ¬ Below (d.placeOf staging) (d.placeOf (source.join p.label.name))))

theorem below_contentsOf (d : Disk) (staging : Path) (id : PackageId) (name : String) :
    Below (d.placeOf staging) (d.placeOf (contentsOf staging id) ++ [name]) := by
  refine ⟨Digest.ofText id.text, ["parcels", name], ?_⟩
  rw [placeOf_contentsOf, List.append_assoc]
  rfl

theorem SourcesOutside.apart (outside : SourcesOutside d source staging inv) {p : Parcel}
    (mem : p ∈ inv.parcels) (own : p.isReference = false) (name : String) :
    d.placeOf (source.join p.label.name) ≠ d.placeOf (contentsOf staging inv.id) ++ [name] := by
  intro same
  exact outside p mem own (same ▸ below_contentsOf d staging inv.id name)

section package

variable (properSource : Disk.Proper source.parts) (proper : Disk.Proper staging.parts)
  (plain : ∀ p ∈ inv.parcels, p.isReference = false → '/' ∉ p.label.sha256.toList)
  (outside : SourcesOutside d source staging inv)
  (written : (write d source staging inv).2.outcome = .ok directory)

include properSource proper plain outside written

/-- The disk after staging, from the disk before. -/
theorem node?_write (q : Place) :
    (write d source staging inv).1.node? q =
      if q = invoicePlace (d.placeOf staging) (Digest.ofText inv.id.text) then
        some (.file (Yaml.dump inv.toValue).toUTF8)
      else (d.node? q).or (addedAt d source staging inv q) := by
  rcases write_eq_ok.mp ⟨rfl, written⟩ with ⟨-, -, made, filled, count, ensured, contents, replaced⟩
  generalize (write d source staging inv).1 = after at replaced ⊢
  have properContents := proper_contentsOf proper inv.id
  have properInvoice := proper_invoiceOf proper inv.id
  have first := Disk.node?_ensureDirectory properContents ensured
  have hereMade : made.here = d.here := by
    have grown := Disk.grown_ensureDirectory (d := d) properContents
    rw [ensured] at grown
    exact grown.here
  have later : Disk.Grown (fun _ _ => True) made filled := by
    have grown := grown_writeContents (d := made) source properContents plain
    rwa [contents] at grown
  have leads := Disk.placeOf_congr hereMade (contentsOf staging inv.id)
  have apart : ∀ p ∈ inv.parcels, p.isReference = false → ∀ name,
      made.placeOf (source.join p.label.name) ≠
        d.placeOf (contentsOf staging inv.id) ++ [name] := by
    intro p mem own name
    rw [Disk.placeOf_congr hereMade]
    exact outside.apart mem own name
  have second : filled.node? q = (d.node? q).or (addedAt d source staging inv q) := by
    rw [node?_writeContents properSource properContents leads plain apart contents, first,
      contentAt_congr hereMade fun p _ _ => Disk.file?_of_directory (first _), Option.or_assoc,
      addedAt]
  -- the directory of the invoice is there, so that nothing is made for it
  have ready := Disk.grown_ensureDirectory (d := filled) properInvoice.parent
  have third : (filled.ensureDirectory (invoiceOf staging inv.id).parent).1.node? q =
      filled.node? q := by
    refine Disk.node?_ensureDirectory_of_held properInvoice.parent (fun r way => ?_) q
    rw [parent_invoiceOf] at way
    exact Disk.directory_of_stat properContents
      (later.stat (Disk.stat_of_ensureDirectory (.of_proper properContents) ensured))
      (Disk.placesTo_parent_subset filled (contentsOf staging inv.id) way)
  rcases Disk.replaceFile_eq_ok replaced with ⟨place, document⟩
  have here : place = invoicePlace (d.placeOf staging) (Digest.ofText inv.id.text) := by
    rw [document.place_eq properInvoice, ready.placeOf, later.placeOf,
      Disk.placeOf_congr hereMade, placeOf_invoiceOf]
  rw [document.node, here, third, second]

omit properSource outside in
theorem here_write : (write d source staging inv).1.here = d.here := by
  rcases write_eq_ok.mp ⟨rfl, written⟩ with ⟨-, -, made, filled, count, ensured, contents, replaced⟩
  generalize (write d source staging inv).1 = after at replaced ⊢
  have properContents := proper_contentsOf proper inv.id
  have first := Disk.grown_ensureDirectory (d := d) properContents
  have second := grown_writeContents (d := made) source properContents plain
  have third := Disk.grown_ensureDirectory (d := filled) (proper_invoiceOf proper inv.id).parent
  rw [ensured] at first
  rw [contents] at second
  rcases Disk.replaceFile_eq_ok replaced with ⟨place, document⟩
  rw [document.here, third.here, second.here, first.here]

/-- No file outside of the staging directory is different. -/
theorem file?_write {q : Place} (apart : ¬ Below (d.placeOf staging) q) :
    (write d source staging inv).1.file? q = d.file? q := by
  have free : contentAt d source (d.placeOf (contentsOf staging inv.id)) inv.parcels q = none := by
    rw [Option.eq_none_iff_forall_ne_some]
    intro node content
    rcases exists_of_contentAt content with ⟨digest, here⟩
    exact apart (here ▸ below_contentsOf d staging inv.id (digest ++ ".dat"))
  have elsewhere : q ≠ invoicePlace (d.placeOf staging) (Digest.ofText inv.id.text) := by
    intro same
    rw [same] at apart
    exact apart (below_invoicePlace (d.placeOf staging) (Digest.ofText inv.id.text))
  have node := node?_write properSource proper plain outside written q
  rw [if_neg elsewhere, addedAt, free, Option.or_none] at node
  exact Disk.file?_of_directory node

end package

/-! ## Two packages -/

section packages

variable {sourceA sourceB : Path} {a b : Invoice}

/-- On the way to the contents of one package there is no content of another one, but where
the ways are the same. -/
theorem contentAt_of_placesTo {q : Place} (way : q ∈ d.placesTo (contentsOf staging a.id))
    (apart : q ∉ d.placesTo (contentsOf staging b.id)) :
    contentAt d sourceB (d.placeOf (contentsOf staging b.id)) b.parcels q = none := by
  rw [Option.eq_none_iff_forall_ne_some]
  intro node content
  rcases exists_of_contentAt content with ⟨digest, here⟩
  rw [placeOf_contentsOf, List.append_assoc] at here
  rcases cases_of_onTheWay (Disk.mem_placesTo_iff_onTheWay.mp way) with ⟨-, same⟩ | upper
  · rw [here] at same
    have names := List.append_cancel_left same
    exact absurd names (by simp)
  rcases cases_of_onTheWay_directoryOf upper with ⟨-, same⟩ | outer
  · rw [here] at same
    have names := List.append_cancel_left same
    exact absurd names (by simp)
  · have parent : (directoryOf staging b.id).parent = staging := by
      rw [directoryOf_eq, Path.parent, List.dropLast_concat]
    have inner : q ∈ d.placesTo (directoryOf staging b.id) := by
      apply Disk.placesTo_parent_subset
      rw [parent]
      exact Disk.mem_placesTo_iff_onTheWay.mpr outer
    refine apart (Disk.placesTo_parent_subset d (contentsOf staging b.id) ?_)
    rw [parent_contentsOf_eq]
    exact inner

/-- Where two packages would both add something they add the same. -/
theorem addedAt_unique (differ : Digest.ofText a.id.text ≠ Digest.ofText b.id.text) {q : Place}
    {first second : Node} (one : addedAt d sourceA staging a q = some first)
    (other : addedAt d sourceB staging b q = some second) : first = second := by
  unfold addedAt at one other
  by_cases wayA : q ∈ d.placesTo (contentsOf staging a.id) <;>
    by_cases wayB : q ∈ d.placesTo (contentsOf staging b.id)
  · rw [if_pos wayA, Option.some_or] at one
    rw [if_pos wayB, Option.some_or] at other
    exact Option.some.inj (one.symm.trans other)
  · rw [if_neg wayB, Option.none_or, contentAt_of_placesTo wayA wayB] at other
    cases other
  · rw [if_neg wayA, Option.none_or, contentAt_of_placesTo wayB wayA] at one
    cases one
  · rw [if_neg wayA, Option.none_or] at one
    rw [if_neg wayB, Option.none_or] at other
    rcases exists_of_contentAt one with ⟨digest, here⟩
    rcases exists_of_contentAt other with ⟨digest', there⟩
    rw [here, placeOf_contentsOf, placeOf_contentsOf, List.append_assoc, List.append_assoc] at there
    have names := List.append_cancel_left there
    simp only [List.cons_append, List.nil_append, List.cons.injEq] at names
    exact absurd names.1 differ

/-- What one package adds does not depend on whether the other has been staged. -/
theorem addedAt_write {directoryA : Path} (properA : Disk.Proper sourceA.parts)
    (proper : Disk.Proper staging.parts) (hexA : a.HasHexDigests)
    (outsideA : SourcesOutside d sourceA staging a) (outsideB : SourcesOutside d sourceB staging b)
    (written : (write d sourceA staging a).2.outcome = .ok directoryA) (q : Place) :
    addedAt (write d sourceA staging a).1 sourceB staging b q = addedAt d sourceB staging b q := by
  have here := here_write proper hexA.plain written
  have files : ∀ p ∈ b.parcels, p.isReference = false →
      (write d sourceA staging a).1.file? (d.placeOf (sourceB.join p.label.name)) =
        d.file? (d.placeOf (sourceB.join p.label.name)) :=
    fun p mem own => file?_write properA proper hexA.plain outsideA written (outsideB p mem own)
  unfold addedAt
  rw [Disk.placesTo_congr here, Disk.placeOf_congr here, contentAt_congr here files]

variable {directoryA directoryB : Path}

/-- The disk after two packages were staged, from the disk before. -/
theorem node?_write_write (properA : Disk.Proper sourceA.parts)
    (properB : Disk.Proper sourceB.parts) (proper : Disk.Proper staging.parts)
    (hexA : a.HasHexDigests) (hexB : b.HasHexDigests)
    (outsideA : SourcesOutside d sourceA staging a) (outsideB : SourcesOutside d sourceB staging b)
    (first : (write d sourceA staging a).2.outcome = .ok directoryA)
    (second : (write (write d sourceA staging a).1 sourceB staging b).2.outcome = .ok directoryB)
    (q : Place) :
    (write (write d sourceA staging a).1 sourceB staging b).1.node? q =
      if q = invoicePlace (d.placeOf staging) (Digest.ofText b.id.text) then
        some (.file (Yaml.dump b.toValue).toUTF8)
      else if q = invoicePlace (d.placeOf staging) (Digest.ofText a.id.text) then
        some (.file (Yaml.dump a.toValue).toUTF8)
      else ((d.node? q).or (addedAt d sourceA staging a q)).or (addedAt d sourceB staging b q) := by
  have here := here_write proper hexA.plain first
  have outside : SourcesOutside (write d sourceA staging a).1 sourceB staging b := by
    intro p mem own
    rw [Disk.placeOf_congr here, Disk.placeOf_congr here]
    exact outsideB p mem own
  rw [node?_write properB proper hexB.plain outside second, Disk.placeOf_congr here,
    addedAt_write properA proper hexA outsideA outsideB first,
    node?_write properA proper hexA.plain outsideA first]
  by_cases invoiceA : q = invoicePlace (d.placeOf staging) (Digest.ofText a.id.text)
  · rw [if_pos invoiceA, if_pos invoiceA, Option.some_or]
  · rw [if_neg invoiceA, if_neg invoiceA]

/-- Two packages are staged in either order. -/
theorem sameTree_write_write (properA : Disk.Proper sourceA.parts)
    (properB : Disk.Proper sourceB.parts) (proper : Disk.Proper staging.parts)
    (hexA : a.HasHexDigests) (hexB : b.HasHexDigests)
    (differ : Digest.ofText a.id.text ≠ Digest.ofText b.id.text)
    (outsideA : SourcesOutside d sourceA staging a) (outsideB : SourcesOutside d sourceB staging b)
    {again againB : Path}
    (firstA : (write d sourceA staging a).2.outcome = .ok directoryA)
    (thenB : (write (write d sourceA staging a).1 sourceB staging b).2.outcome = .ok directoryB)
    (firstB : (write d sourceB staging b).2.outcome = .ok againB)
    (thenA : (write (write d sourceB staging b).1 sourceA staging a).2.outcome = .ok again) :
    (write (write d sourceB staging b).1 sourceA staging a).1.SameTree
      (write (write d sourceA staging a).1 sourceB staging b).1 := by
  constructor
  · rw [here_write proper hexB.plain thenB, here_write proper hexA.plain firstA,
      here_write proper hexA.plain thenA, here_write proper hexB.plain firstB]
  · intro q
    rw [node?_write_write properA properB proper hexA hexB outsideA outsideB firstA thenB,
      node?_write_write properB properA proper hexB hexA outsideB outsideA firstB thenA]
    by_cases invoiceA : q = invoicePlace (d.placeOf staging) (Digest.ofText a.id.text)
    · have invoiceB : q ≠ invoicePlace (d.placeOf staging) (Digest.ofText b.id.text) := by
        intro same
        exact differ (invoicePlace_inj.mp (invoiceA.symm.trans same))
      rw [if_neg invoiceB, if_pos invoiceA, if_pos invoiceA]
    · rw [if_neg invoiceA, if_neg invoiceA, Option.or_assoc, Option.or_assoc,
        or_comm_of_unique fun _ _ => addedAt_unique differ]

end packages

/-- **Staging again changes nothing, and different packages are staged in either order.**  A package
that was staged is staged again with success and without any change, and that does not depend on
what has happened outside of the staging directory in between, as long as the directories on the
way there are left: the sources may be gone.  Two packages with different directories, whose
sources are outside of the staging directory, give the same tree in both orders. -/
theorem idempotent_and_commuting (d : Disk) (dest : String) :
    (∀ (source later : String) (inv : Invoice) (directory : Path), inv.HasHexDigests →
      (write d (.ofText source) (.ofText dest) inv).2.outcome = .ok directory →
      ∀ d', ChangedOutside (.ofText dest) (write d (.ofText source) (.ofText dest) inv).1 d' →
        (write d' (.ofText later) (.ofText dest) inv).2.outcome = .ok directory ∧
          d'.SameTree (write d' (.ofText later) (.ofText dest) inv).1) ∧
    ∀ (sourceA sourceB : String) (a b : Invoice) (firstA thenB firstB thenA : Path),
      a.HasHexDigests → b.HasHexDigests →
      directoryOf (.ofText dest) a.id ≠ directoryOf (.ofText dest) b.id →
      SourcesOutside d (.ofText sourceA) (.ofText dest) a →
      SourcesOutside d (.ofText sourceB) (.ofText dest) b →
      (write d (.ofText sourceA) (.ofText dest) a).2.outcome = .ok firstA →
      (write (write d (.ofText sourceA) (.ofText dest) a).1 (.ofText sourceB) (.ofText dest)
        b).2.outcome = .ok thenB →
      (write d (.ofText sourceB) (.ofText dest) b).2.outcome = .ok firstB →
      (write (write d (.ofText sourceB) (.ofText dest) b).1 (.ofText sourceA) (.ofText dest)
        a).2.outcome = .ok thenA →
      (write (write d (.ofText sourceB) (.ofText dest) b).1 (.ofText sourceA) (.ofText dest)
        a).1.SameTree
      (write (write d (.ofText sourceA) (.ofText dest) a).1 (.ofText sourceB) (.ofText dest)
        b).1 := by
  have proper := proper_ofText dest
  refine ⟨?_, ?_⟩
  · intro source later inv directory hex written d' changed
    have named := (write_eq_ok.mp ⟨rfl, written⟩).1
    have complete := (complete_of_write proper hex.plain written).changed proper hex.plain changed
    rw [named]
    exact complete.write proper (.ofText later)
  · intro sourceA sourceB a b firstA thenB firstB thenA hexA hexB apart outsideA outsideB
      writtenA writtenB writtenB' writtenA'
    have differ : Digest.ofText a.id.text ≠ Digest.ofText b.id.text := by
      intro same
      rw [directoryOf_eq, directoryOf_eq, same] at apart
      exact apart (Eq.refl _)
    exact sameTree_write_write (proper_ofText sourceA) (proper_ofText sourceB) proper hexA hexB
      differ outsideA outsideB writtenA writtenB writtenB' writtenA'

/-- A package of two files which claim to be the same, though they are not. -/
def squall : Invoice where
  id := ⟨"squall", "1"⟩
  parcels := [⟨⟨"m.wasm", "ab", "application/wasm", 1, none, none⟩, none⟩,
    ⟨⟨"n.wasm", "ab", "application/wasm", 1, none, none⟩, none⟩]

def drizzle : Invoice where
  id := ⟨"drizzle", "1"⟩
  parcels := [⟨⟨"n.wasm", "ab", "application/wasm", 1, none, none⟩, none⟩]

def sky : Disk where
  nodes := [(["app"], .directory), (["app", "m.wasm"], .file ⟨#[1]⟩),
    (["app", "n.wasm"], .file ⟨#[2]⟩)]

/-- Staging one package from the application, behind what was staged before. -/
def skyward (d : Disk) (inv : Invoice) : Disk × Report Path :=
  write d (.ofText "app") (.ofText "st") inv

/-- Both packages are staged in either order, and the first one again when its module is gone. -/
theorem idempotent_and_commuting_sky :
    squall.HasHexDigests ∧ drizzle.HasHexDigests ∧
      directoryOf (.ofText "st") squall.id ≠ directoryOf (.ofText "st") drizzle.id ∧
      SourcesOutside sky (.ofText "app") (.ofText "st") squall ∧
      SourcesOutside sky (.ofText "app") (.ofText "st") drizzle ∧
      (∃ directory, (skyward sky squall).2.outcome = .ok directory ∧
        ∃ d', ChangedOutside (.ofText "st") (skyward sky squall).1 d' ∧
          d'.node? ["app", "m.wasm"] = none ∧ (skyward d' squall).2.outcome = .ok directory ∧
          d'.SameTree (skyward d' squall).1) ∧
      (∃ directory, (skyward (skyward sky squall).1 drizzle).2.outcome = .ok directory) ∧
      (skyward (skyward sky drizzle).1 squall).1.SameTree
        (skyward (skyward sky squall).1 drizzle).1 := by
  have evaluated : squall.HasHexDigests ∧ drizzle.HasHexDigests ∧
      directoryOf (.ofText "st") squall.id ≠ directoryOf (.ofText "st") drizzle.id ∧
      SourcesOutside sky (.ofText "app") (.ofText "st") squall ∧
      SourcesOutside sky (.ofText "app") (.ofText "st") drizzle ∧
      (skyward sky squall).2.outcome.toBool = true ∧
      (skyward (skyward sky squall).1 drizzle).2.outcome.toBool = true ∧
      (skyward sky drizzle).2.outcome.toBool = true ∧
      (skyward (skyward sky drizzle).1 squall).2.outcome.toBool = true ∧
      ((skyward sky squall).1.file? ["app", "m.wasm"]).isSome = true ∧
      ¬ Below ((skyward sky squall).1.placeOf (.ofText "st")) ["app", "m.wasm"] := by
    decide +kernel
  rcases evaluated with
    ⟨hexA, hexB, apart, outsideA, outsideB, firstA, thenB, firstB, thenA, held, outside⟩
  rcases Outcome.exists_of_toBool firstA with ⟨directory, writtenA⟩
  rcases Outcome.exists_of_toBool thenB with ⟨second, writtenB⟩
  rcases Outcome.exists_of_toBool firstB with ⟨third, writtenB'⟩
  rcases Outcome.exists_of_toBool thenA with ⟨fourth, writtenA'⟩
  have facts := idempotent_and_commuting sky "st"
  have module : ["app", "m.wasm"] ≠ ([] : Place) := by simp
  have changed := ChangedOutside.erase module outside (Disk.ne_directory_of_file? held)
  unfold skyward at *
  have again := facts.1 "app" "app" squall directory hexA writtenA _ changed
  exact ⟨hexA, hexB, apart, outsideA, outsideB, ⟨directory, writtenA, _, changed,
    by rw [Disk.node?_erase _ module, if_pos rfl], again⟩, ⟨second, writtenB⟩,
    facts.2 "app" "app" squall drizzle directory second third fourth hexA hexB apart outsideA
      outsideB writtenA writtenB writtenB' writtenA'⟩

end Staging
end Consignment
