import Consignment.Path

namespace Consignment

/-!
# Paths and their texts

The parts that a text gives are not empty, are no single dots and hold no slash.  A
relative path with such parts is read back from its written form, so that joining a base
with the written form of what leads from it to a path gives the path.
-/

namespace Text

/-- Up to the first separator there is one piece. -/
theorem splitAt_append {separator : Char} {piece : List Char} (plain : separator ∉ piece)
    (rest : List Char) :
    splitAt separator (piece ++ separator :: rest) = piece :: splitAt separator rest := by
  induction piece with
  | nil => rw [List.nil_append, splitAt, if_pos rfl]
  | cons c others ih =>
    rw [List.mem_cons, not_or] at plain
    rw [List.cons_append, splitAt, if_neg (Ne.symm plain.1), ih plain.2]

theorem splitAt_of_plain {separator : Char} {piece : List Char} (plain : separator ∉ piece) :
    splitAt separator piece = [piece] := by
  induction piece with
  | nil => rfl
  | cons c others ih =>
    rw [List.mem_cons, not_or] at plain
    rw [splitAt, if_neg (Ne.symm plain.1), ih plain.2]

/-- Pieces without separators are split again after they were joined. -/
theorem splitAt_joinWith {separator : Char} {pieces : List (List Char)} (some : pieces ≠ [])
    (plain : ∀ piece ∈ pieces, separator ∉ piece) :
    splitAt separator (joinWith separator pieces) = pieces := by
  induction pieces with
  | nil => exact absurd rfl some
  | cons piece rest ih =>
    have first := plain piece List.mem_cons_self
    cases rest with
    | nil => exact splitAt_of_plain first
    | cons next others =>
      have joined : joinWith separator (piece :: next :: others) =
          piece ++ separator :: joinWith separator (next :: others) := rfl
      rw [joined, splitAt_append first, ih (by simp)]
      exact fun other mem => plain other (List.mem_cons_of_mem _ mem)

theorem head?_joinWith {separator : Char} {piece : List Char} (some : piece ≠ [])
    (rest : List (List Char)) : (joinWith separator (piece :: rest)).head? = piece.head? := by
  cases piece with
  | nil => exact absurd rfl some
  | cons c others => cases rest <;> rfl

theorem not_mem_of_mem_splitAt {separator : Char} {cs piece : List Char}
    (mem : piece ∈ splitAt separator cs) : separator ∉ piece := by
  induction cs generalizing piece with
  | nil =>
    cases List.mem_singleton.mp mem
    exact List.not_mem_nil
  | cons c rest ih =>
    rw [splitAt] at mem
    split at mem
    · rcases List.mem_cons.mp mem with rfl | later
      · exact List.not_mem_nil
      · exact ih later
    · rename_i differs
      cases pieces : splitAt separator rest with
      | nil => exact absurd pieces (splitAt_ne_nil separator rest)
      | cons first others =>
        rw [pieces] at mem ih
        rcases List.mem_cons.mp mem with rfl | later
        · rw [List.mem_cons, not_or]
          exact ⟨Ne.symm differs, ih List.mem_cons_self⟩
        · exact ih (List.mem_cons_of_mem _ later)

/-- Texts joined by a separator, as characters. -/
theorem toList_intercalate (separator : Char) (pieces : List String) :
    (String.intercalate (String.singleton separator) pieces).toList =
      joinWith separator (pieces.map String.toList) := by
  induction pieces with
  | nil => simp [joinWith]
  | cons piece rest ih =>
    cases rest with
    | nil => simp [joinWith]
    | cons next others =>
      rw [String.intercalate_cons_cons, String.toList_append, String.toList_append, ih]
      simp [joinWith]

end Text

namespace Path

/-- A part that a text gives: not empty, no single dot, and without a slash. -/
def IsName (part : String) : Prop :=
  part ≠ "" ∧ part ≠ "." ∧ '/' ∉ part.toList

theorem isPart_iff {part : String} : isPart part.toList = true ↔ part ≠ "" ∧ part ≠ "." := by
  have dot : part.toList = ['.'] ↔ part = "." := by
    constructor
    · intro same
      rw [← String.ofList_toList (s := part), same]
    · rintro rfl
      rfl
  rw [isPart, Bool.and_eq_true, decide_eq_true_eq, decide_eq_true_eq, ne_eq, ne_eq, ne_eq, ne_eq,
    String.toList_eq_nil_iff, dot]

theorem isName_of_mem_ofText {text part : String} (mem : part ∈ (ofText text).parts) :
    IsName part := by
  rcases List.mem_map.mp mem with ⟨piece, held, rfl⟩
  rcases List.mem_filter.mp held with ⟨split, counts⟩
  rw [← String.toList_ofList (l := piece), isPart_iff] at counts
  refine ⟨counts.1, counts.2, ?_⟩
  rw [String.toList_ofList]
  exact Text.not_mem_of_mem_splitAt split

/-- A text of more than two characters is a name that leads down, unless it has a slash. -/
theorem isName_of_length {name : String} (long : 2 < name.length) (plain : '/' ∉ name.toList) :
    IsName name ∧ name ≠ ".." := by
  have other (text : String) (few : text.length ≤ 2) : name ≠ text := by
    rintro rfl
    exact absurd long (Nat.not_lt.mpr few)
  exact ⟨⟨other "" (by decide), other "." (by decide), plain⟩, other ".." (by decide)⟩

theorem anchorOf_of_head {cs : List Char} (front : cs.head? ≠ some '/') :
    anchorOf cs = .relative := by
  unfold anchorOf
  split <;> first | rfl | exact absurd rfl front

/-- A name denotes the path with itself as the only part. -/
theorem ofText_of_isName {name : String} (named : IsName name) :
    ofText name = ⟨.relative, [name]⟩ := by
  have front : name.toList.head? ≠ some '/' := by
    intro slash
    exact named.2.2 (List.mem_of_mem_head? slash)
  have counts : isPart name.toList = true := isPart_iff.mpr ⟨named.1, named.2.1⟩
  rw [ofText]
  simp only [anchorOf_of_head front, Text.splitAt_of_plain named.2.2]
  rw [List.filter_cons_of_pos counts]
  simp

theorem join_of_isName {name : String} (named : IsName name) (base : Path) :
    base.join name = ⟨base.anchor, base.parts ++ [name]⟩ := by
  rw [join, ofText_of_isName named, append, if_pos rfl]

/-- A relative path is read back from its written form. -/
theorem ofText_text {parts : List String} (names : ∀ part ∈ parts, IsName part) :
    ofText (text ⟨.relative, parts⟩) = ⟨.relative, parts⟩ := by
  cases parts with
  | nil => rfl
  | cons first rest =>
    have joined : (text ⟨.relative, first :: rest⟩).toList =
        Text.joinWith '/' ((first :: rest).map String.toList) := by
      rw [text, if_neg (by simp)]
      exact Text.toList_intercalate '/' (first :: rest)
    have split : Text.splitAt '/' (text ⟨.relative, first :: rest⟩).toList =
        (first :: rest).map String.toList := by
      rw [joined]
      apply Text.splitAt_joinWith (by simp)
      intro piece mem
      rcases List.mem_map.mp mem with ⟨part, held, rfl⟩
      exact (names part held).2.2
    have counts : ∀ piece ∈ (first :: rest).map String.toList, isPart piece = true := by
      intro piece mem
      rcases List.mem_map.mp mem with ⟨part, held, rfl⟩
      exact isPart_iff.mpr ⟨(names part held).1, (names part held).2.1⟩
    have front : (text ⟨.relative, first :: rest⟩).toList.head? ≠ some '/' := by
      have named := names first List.mem_cons_self
      have some : first.toList ≠ [] := by simpa using named.1
      rw [joined, List.map_cons, Text.head?_joinWith some]
      intro slash
      exact named.2.2 (List.mem_of_mem_head? slash)
    rw [ofText]
    simp only [anchorOf_of_head front, split]
    rw [List.filter_eq_self.mpr counts, List.map_map]
    simp

/-- A path always has a written form. -/
theorem text_ne_empty {parts : List String} (names : ∀ part ∈ parts, IsName part) :
    text ⟨.relative, parts⟩ ≠ "" := by
  intro empty
  have read := ofText_text names
  rw [empty] at read
  have nothing : ofText "" = ⟨.relative, []⟩ := rfl
  rw [nothing, Path.mk.injEq] at read
  rw [← read.2] at empty
  exact absurd empty (by decide)

/-- What leads from a base to a path below it has the parts of a text. -/
theorem isName_of_mem_relativeTo? {base : Path} {text : String} {way : List String}
    (below : (base.join text).relativeTo? base = some way) : ∀ part ∈ way, IsName part := by
  unfold relativeTo? at below
  split at below
  · cases below
    intro part mem
    unfold join append at mem
    split at mem
    · rw [List.drop_left] at mem
      exact isName_of_mem_ofText mem
    · exact isName_of_mem_ofText (List.mem_of_mem_drop mem)
  · exact absurd below (by simp)

/-- What leads from a base to a path below it leads back to the path. -/
theorem join_text_of_relativeTo? {base : Path} {text : String} {parts : List String}
    (below : (base.join text).relativeTo? base = some parts) :
    base.join (Path.text ⟨.relative, parts⟩) = base.join text := by
  have names := isName_of_mem_relativeTo? below
  unfold relativeTo? at below
  split at below
  · rename_i front
    cases below
    have whole : base.parts ++ (base.join text).parts.drop base.parts.length =
        (base.join text).parts := List.prefix_iff_eq_append.mp (List.isPrefixOf_iff_prefix.mp front.2)
    rw [join, ofText_text names, append, if_pos rfl]
    simp only [whole, ← front.1]
  · exact absurd below (by simp)

end Path
end Consignment
