import Consignment.Proofs.Staging.Contents

namespace Consignment

/-!
# What is left when staging fails

Whatever ends staging before the invoice is in its place, the disk has only grown: by
directories on the way to the contents of the package and by contents of its parcels.  No
file that was there is different, and the temporary file that an invoice is written to is
gone.

In particular the invoice of the package is what it was, so a package is published as a whole or
not at all.  One staging directory is apart: one whose path leads through the place of that
invoice and back.  When nothing is there, the directories made on the way to it include that
place.
-/

/-- The digests of the parcels that are staged are written in hexadecimal. -/
def Invoice.HasHexDigests (inv : Invoice) : Prop :=
  ∀ p ∈ inv.parcels, p.isReference = false →
    ∀ c ∈ p.label.sha256.toList, (Text.hexDigit? c).isSome

instance (inv : Invoice) : Decidable inv.HasHexDigests :=
  decidable_of_iff (∀ p ∈ inv.parcels, p.isReference = false →
      p.label.sha256.toList.all fun c => (Text.hexDigit? c).isSome) (by
    simp only [Invoice.HasHexDigests, List.all_eq_true])

theorem Invoice.HasHexDigests.plain {inv : Invoice} (hex : inv.HasHexDigests) :
    ∀ p ∈ inv.parcels, p.isReference = false → '/' ∉ p.label.sha256.toList := by
  intro p mem own slash
  exact absurd (hex p mem own '/' slash) (by decide)

/-- What an expansion gives to be staged has the digests of its contents. -/
theorem ExpansionContext.hasHexDigests_of_expand {c : ExpansionContext} {manifest : Manifest}
    {inv : Invoice} (expanded : (c.expand manifest).outcome = .ok inv) : inv.HasHexDigests := by
  intro p mem own digit held
  rcases (describesFile_of_expand expanded mem own).read with ⟨bytes, _, digest, _⟩
  rw [digest] at held
  exact Digest.isSome_of_mem_ofList held

namespace Staging

variable {d filled : Disk} {source staging : Path} {inv : Invoice}

/-- A new directory, which is on the way to a path. -/
def MadeOnTheWay (before after : Disk) (p : Path) (q : Place) : Prop :=
  before.node? q = none ∧ after.node? q = some .directory ∧ before.OnTheWay p q .directory

/-! ## The invoice -/

/-- Where the invoice is looked for nothing is added but a directory, and that only when it is
on the way to the staging directory. -/
theorem Remnant.at_invoiceOf {node : Node}
    (remnant : Remnant d source staging inv (d.placeOf (invoiceOf staging inv.id)) node) :
    d.OnTheWay staging (d.placeOf (invoiceOf staging inv.id)) node := by
  rw [placeOf_invoiceOf] at remnant ⊢
  rcases remnant with way | ⟨p, _, _, since, _, same, _⟩
  · rcases cases_of_onTheWay way with ⟨_, same⟩ | upper
    · exact absurd (List.append_cancel_left same) (by simp)
    rcases cases_of_onTheWay_directoryOf upper with ⟨_, same⟩ | outer
    · exact absurd (List.append_cancel_left same) (by simp)
    · exact outer
  · rw [placeOf_contentsOf, List.append_assoc] at same
    exact absurd (List.append_cancel_left same) (by simp)

/-- Nothing of a package was published between two states of a disk. -/
structure Unpublished (before after : Disk) (source staging : Path) (inv : Invoice) : Prop where
  /-- What was there is there as it was, and what is new are directories on the way to the
  contents of the package, and contents of its parcels. -/
  grown : Disk.Grown (Remnant before source staging inv) before after
  /-- The invoice is what it was, unless the path of the staging directory goes up and leads
  through its place: where nothing was, a directory is made then. -/
  invoice :
    after.node? (before.placeOf (invoiceOf staging inv.id)) =
        before.node? (before.placeOf (invoiceOf staging inv.id)) ∨
      ".." ∈ staging.parts ∧
        MadeOnTheWay before after staging (before.placeOf (invoiceOf staging inv.id))

theorem Unpublished.of_grown {before after : Disk}
    (grown : Disk.Grown (Remnant before source staging inv) before after) :
    Unpublished before after source staging inv := by
  refine ⟨grown, ?_⟩
  rcases grown.same_or_allowed (before.placeOf (invoiceOf staging inv.id)) with
    same | ⟨missing, node, new, remnant⟩
  · exact Or.inl same
  · have way := remnant.at_invoiceOf
    cases way.1
    refine Or.inr ⟨?_, missing, new, way⟩
    by_contra down
    apply not_below_of_onTheWay down way
    rw [placeOf_invoiceOf]
    exact below_invoicePlace _ _

/-- A package was published between two states of a disk: its invoice is written, and there is
something under the digest of every parcel that is no reference. -/
structure Published (before after : Disk) (staging : Path) (inv : Invoice) : Prop where
  invoice : after.node? (before.placeOf (invoiceOf staging inv.id)) =
    some (.file (Yaml.dump inv.toValue).toUTF8)
  contents : ∀ p ∈ inv.parcels, p.isReference = false →
    (after.node? (before.placeOf (contentsOf staging inv.id) ++ [p.label.sha256 ++ ".dat"])).isSome

/-- Staging publishes a package, or nothing of it. -/
theorem Wrote.all_or_nothing {after : Disk} {outcome : Except Failure Path}
    (wrote : Wrote d source staging inv after outcome) :
    (∀ failure, outcome = .error failure → Unpublished d after source staging inv) ∧
      ∀ directory, outcome = .ok directory → Published d after staging inv := by
  cases wrote with
  | failed grown =>
    exact ⟨fun failure _ => .of_grown grown, fun directory done => absurd done (by simp)⟩
  | published grown present invoice =>
    refine ⟨fun failure failed => absurd failed (by simp), fun directory _ => ⟨?_, ?_⟩⟩
    · rw [placeOf_invoiceOf, invoice, if_pos rfl]
    · intro p mem own
      have same := invoice
        (contentPlace (d.placeOf staging) (Digest.ofText inv.id.text) p.label.sha256)
      rw [if_neg contentPlace_ne_invoicePlace] at same
      rw [placeOf_contentsOf, List.append_assoc]
      exact same ▸ present p mem own

/-! ## Outside of the package -/

/-- A place is as it was, or in the directory of a package, or a new directory on the way to
it. -/
def Framed (before after : Disk) (directory : Path) (q : Place) : Prop :=
  after.node? q = before.node? q ∨ Below (before.placeOf directory) q ∨
    MadeOnTheWay before after directory q

theorem Remnant.below_or_onTheWay {q : Place} {node : Node}
    (remnant : Remnant d source staging inv q node) :
    Below (d.placeOf (directoryOf staging inv.id)) q ∨
      d.OnTheWay (directoryOf staging inv.id) q node := by
  rw [placeOf_directoryOf]
  rcases remnant with way | ⟨p, _, _, since, _, here, _⟩
  · rcases cases_of_onTheWay way with ⟨_, here⟩ | upper
    · refine Or.inl ⟨"parcels", [], ?_⟩
      rw [here, List.append_assoc]
      rfl
    · exact Or.inr upper
  · refine Or.inl ⟨"parcels", [p.label.sha256 ++ ".dat"], ?_⟩
    rw [here, placeOf_contentsOf, List.append_assoc, List.append_assoc]
    rfl

theorem framed_of_grown (grown : Disk.Grown (Remnant d source staging inv) d filled) (q : Place) :
    Framed d filled (directoryOf staging inv.id) q := by
  rcases grown.same_or_allowed q with same | ⟨missing, node, new, remnant⟩
  · exact Or.inl same
  rcases remnant.below_or_onTheWay with inside | way
  · exact Or.inr (Or.inl inside)
  · cases way.1
    exact Or.inr (Or.inr ⟨missing, new, way⟩)

theorem Wrote.framed {after : Disk} {outcome : Except Failure Path}
    (wrote : Wrote d source staging inv after outcome) (q : Place) :
    Framed d after (directoryOf staging inv.id) q := by
  cases wrote with
  | failed grown => exact framed_of_grown grown q
  | published grown present invoice =>
    by_cases here : q = invoicePlace (d.placeOf staging) (Digest.ofText inv.id.text)
    · refine Or.inr (Or.inl ⟨"invoice.yml", [], ?_⟩)
      rw [placeOf_directoryOf, here, invoicePlace, List.append_assoc]
      rfl
    · have same := invoice q
      rw [if_neg here] at same
      have framed := framed_of_grown grown q
      rwa [Framed, MadeOnTheWay, ← same] at framed

/-- Staging publishes a package, or nothing of it.  When it fails, the files are what they were,
the invoice included, and there are new directories and contents of the package at most.
Whether it fails or not, nothing is different outside of the package's directory but for new
directories on the way to it.  What the digests have to be like they are in every invoice of an
expansion.

Staging fails where a directory cannot be made, a content cannot be copied, the invoice has no text,
the path of its temporary file is too long, or the temporary file cannot be renamed.  The bytes of a
temporary file that was made are always written, because a disk has room for them. -/
theorem unpublished_of_failed (d : Disk) (source : Path) (dest : String) {inv : Invoice}
    (hex : inv.HasHexDigests) :
    (∀ failure, (write d source (.ofText dest) inv).2.outcome = .error failure →
      Unpublished d (write d source (.ofText dest) inv).1 source (.ofText dest) inv) ∧
    (∀ directory, (write d source (.ofText dest) inv).2.outcome = .ok directory →
      Published d (write d source (.ofText dest) inv).1 (.ofText dest) inv) ∧
    (∀ q, Framed d (write d source (.ofText dest) inv).1 (directoryOf (.ofText dest) inv.id) q) ∧
    ∀ (c : ExpansionContext) (manifest : Manifest) (expanded : Invoice),
      (c.expand manifest).outcome = .ok expanded → expanded.HasHexDigests := by
  have proper : Disk.Proper (Path.ofText dest).parts := by
    intro part mem
    have named := Path.isName_of_mem_ofText mem
    exact ⟨named.1, named.2.1⟩
  have wrote := wrote_write (d := d) source proper hex.plain
  refine ⟨wrote.all_or_nothing.1, wrote.all_or_nothing.2, wrote.framed, ?_⟩
  intro c manifest expanded done
  exact ExpansionContext.hasHexDigests_of_expand done

/-- A package whose only content is not in the source directory. -/
def hollow : Invoice where
  id := ⟨"weather", "1"⟩
  parcels := [⟨⟨"gone.wasm", "ab", "application/wasm", 2, none, none⟩, none⟩]

theorem hasHexDigests_hollow : hollow.HasHexDigests := by
  decide

/-- The content that is missing ends the staging behind the new directories. -/
theorem unpublished_of_failed_hollow :
    hollow.HasHexDigests ∧
      ∃ failure, (write { nodes := [] } (.ofText "app") (.ofText "st") hollow).2.outcome =
          .error failure ∧
        Unpublished { nodes := [] } (write { nodes := [] } (.ofText "app") (.ofText "st") hollow).1
          (.ofText "app") (.ofText "st") hollow := by
  have evaluated : (write { nodes := [] } (.ofText "app") (.ofText "st") hollow).2.outcome.toBool =
      false := by
    decide +kernel
  rcases Outcome.exists_error_of_toBool evaluated with ⟨failure, failed⟩
  have facts := unpublished_of_failed { nodes := [] } (.ofText "app") "st" hasHexDigests_hollow
  exact ⟨hasHexDigests_hollow, failure, failed, facts.1 failure failed⟩

/-- Where the invoice of the package belongs in a staging directory `x`. -/
def hollowPlace : Place :=
  invoicePlace ["x"] (Digest.ofText hollow.id.text)

/-- A path to the staging directory that leads through the place of the invoice and back. -/
def winding : Path :=
  .ofText ("x/" ++ Digest.ofText hollow.id.text ++ "/invoice.yml/../..")

/-- On such a path a directory is made where the invoice belongs, also when staging fails. -/
theorem directory_at_hollowPlace :
    hollow.HasHexDigests ∧
      Disk.placeOf { nodes := [] } (invoiceOf winding hollow.id) = hollowPlace ∧
      Disk.node? { nodes := [] } hollowPlace = none ∧
      (∃ failure, (write { nodes := [] } (.ofText "app") winding hollow).2.outcome =
        .error failure) ∧
      (write { nodes := [] } (.ofText "app") winding hollow).1.node? hollowPlace =
        some .directory := by
  have places : Disk.placeOf { nodes := [] } (invoiceOf winding hollow.id) = hollowPlace ∧
      Disk.node? { nodes := [] } hollowPlace = none := by
    decide +kernel
  have evaluated :
      (write { nodes := [] } (.ofText "app") winding hollow).2.outcome.toBool = false ∧
        Disk.sameNode ((write { nodes := [] } (.ofText "app") winding hollow).1.node? hollowPlace)
          .directory = true := by
    decide +kernel
  exact ⟨hasHexDigests_hollow, places.1, places.2, Outcome.exists_error_of_toBool evaluated.1,
    Disk.sameNode_directory.mp evaluated.2⟩

end Staging
end Consignment
