import Consignment.PackageId
import Mathlib.Data.List.Basic
import Mathlib.Data.List.TakeWhile

namespace Consignment

/-!
# Package ids and their texts

Reading a text gives an id exactly when the text without the blanks around it is the
written form of the id, neither half is empty, and the version has no slash of its own.
An id is therefore read back from its written form under a condition on the id alone:
what is written must not be trimmed, and the last slash must be the one in the middle.

Nothing makes ids satisfy it when they are put together; a manifest may declare a version
that ends in a line feed, and the name of a user may hold a slash.
-/

namespace Text

/-- A text does not begin with a blank. -/
def FrontVisible (cs : List Char) : Prop :=
  ∀ c, cs.head? = some c → isBlank c = false

/-- A text does not end with a blank. -/
def BackVisible (cs : List Char) : Prop :=
  ∀ c, cs.getLast? = some c → isBlank c = false

theorem trimStart_eq_self {cs : List Char} : trimStart cs = cs ↔ FrontVisible cs := by
  unfold trimStart FrontVisible
  cases cs with
  | nil => simp
  | cons c rest =>
    simp only [List.head?_cons, Option.some.injEq, forall_eq']
    constructor
    · intro kept
      rw [← Bool.not_eq_true]
      intro blank
      rw [List.dropWhile_cons_of_pos blank] at kept
      have shorter := (List.dropWhile_suffix isBlank (l := rest)).length_le
      rw [kept, List.length_cons] at shorter
      omega
    · intro visible
      exact List.dropWhile_cons_of_neg (by simp [visible])

theorem trimEnd_eq_self {cs : List Char} : trimEnd cs = cs ↔ BackVisible cs := by
  unfold BackVisible
  rw [← List.head?_reverse]
  have front : trimStart cs.reverse = cs.reverse ↔ FrontVisible cs.reverse := trimStart_eq_self
  unfold FrontVisible trimStart at front
  rw [← front]
  exact List.reverse_eq_iff

theorem trim_eq_self {cs : List Char} : trim cs = cs ↔ FrontVisible cs ∧ BackVisible cs := by
  constructor
  · intro kept
    have back := congrArg List.length (trimEnd_append_reverse_takeWhile (trimStart cs))
    have front := congrArg List.length (takeWhile_append_trimStart cs)
    have whole := congrArg List.length kept
    rw [trim] at whole
    simp only [List.length_append] at back front
    have started : trimStart cs = cs := by
      have none : cs.takeWhile isBlank = [] := List.eq_nil_of_length_eq_zero (by omega)
      have split := takeWhile_append_trimStart cs
      rwa [none, List.nil_append] at split
    rw [trim, started] at kept
    exact ⟨trimStart_eq_self.mp started, trimEnd_eq_self.mp kept⟩
  · rintro ⟨front, back⟩
    rw [trim, trimStart_eq_self.mpr front, trimEnd_eq_self.mpr back]

theorem frontVisible_trimStart (cs : List Char) : FrontVisible (trimStart cs) := by
  intro c first
  have stopped := List.head?_dropWhile_not isBlank cs
  rw [trimStart] at first
  rw [first] at stopped
  exact stopped

theorem backVisible_trimEnd (cs : List Char) : BackVisible (trimEnd cs) := by
  intro c last
  rw [trimEnd, List.getLast?_reverse] at last
  exact frontVisible_trimStart cs.reverse c last

/-- What is dropped at the back leaves the front as it is. -/
theorem FrontVisible.trimEnd {cs : List Char} (front : FrontVisible cs) :
    FrontVisible (trimEnd cs) := by
  intro c first
  apply front c
  rw [← trimEnd_append_reverse_takeWhile cs, List.head?_append, first]
  rfl

/-- A text that was trimmed has no blanks around it. -/
theorem trim_trim (cs : List Char) : trim (trim cs) = trim cs :=
  trim_eq_self.mpr ⟨(frontVisible_trimStart cs).trimEnd, backVisible_trimEnd (trimStart cs)⟩

end Text

namespace PackageId

/-- Splitting at the last slash. -/
theorem splitLast_eq_some {cs before after : List Char} :
    splitLast cs = some (before, after) ↔ cs = before ++ '/' :: after ∧ '/' ∉ after := by
  have beside (c : Char) : (c != '/') = true ↔ c ≠ '/' := bne_iff_ne
  unfold splitLast
  constructor
  · intro split
    have whole := List.takeWhile_append_dropWhile (p := (· != '/')) (l := cs.reverse)
    cases rest : cs.reverse.dropWhile (· != '/') with
    | nil => simp [rest] at split
    | cons c front =>
      rw [rest] at split whole
      simp only [Option.some.injEq, Prod.mk.injEq] at split
      have slash : c = '/' := by
        have stopped := List.head?_dropWhile_not (· != '/') cs.reverse
        rw [rest] at stopped
        simpa using stopped
      rcases split with ⟨rfl, rfl⟩
      constructor
      · have reversed := congrArg List.reverse whole
        rw [List.reverse_reverse, slash] at reversed
        rw [List.reverse_append, List.reverse_cons, List.append_assoc] at reversed
        exact reversed.symm
      · intro mem
        have other := List.mem_takeWhile_imp (List.mem_reverse.mp mem)
        exact (beside '/').mp other rfl
  · rintro ⟨rfl, plain⟩
    have none : ∀ c ∈ after.reverse, (c != '/') = true := by
      intro c mem
      exact (beside c).mpr fun same => plain (same ▸ List.mem_reverse.mp mem)
    have reversed : (before ++ '/' :: after).reverse = after.reverse ++ '/' :: before.reverse := by
      simp
    rw [reversed, List.dropWhile_append_of_pos none, List.takeWhile_append_of_pos none]
    simp

theorem toList_text (id : PackageId) :
    id.text.toList = id.name.toList ++ '/' :: id.version.toList := by
  simp [text]

/-- A text denotes an id when what stands between its blanks is the written form of the
id, with something in both halves and no slash in the second. -/
theorem ofText?_eq_some {text : String} {id : PackageId} :
    ofText? text = some id ↔
      Text.trim text.toList = id.text.toList ∧
        id.name ≠ "" ∧ id.version ≠ "" ∧ '/' ∉ id.version.toList := by
  have empty (s : String) : s.toList.isEmpty = false ↔ s ≠ "" := by
    simp
  unfold ofText?
  rw [toList_text]
  constructor
  · intro read
    cases split : splitLast (Text.trim text.toList) with
    | none => simp [split] at read
    | some halves =>
      rcases halves with ⟨name, version⟩
      simp only [split] at read
      split at read
      · exact absurd read (by simp)
      · rename_i full
        cases Option.some.inj read
        rcases splitLast_eq_some.mp split with ⟨whole, plain⟩
        simp only [Bool.or_eq_true, not_or, Bool.not_eq_true] at full
        simp only [String.toList_ofList]
        refine ⟨whole, ?_, ?_, plain⟩
        · rw [← empty, String.toList_ofList]
          exact full.1
        · rw [← empty, String.toList_ofList]
          exact full.2
  · rintro ⟨whole, named, versioned, plain⟩
    rw [splitLast_eq_some.mpr ⟨whole, plain⟩]
    simp only [(empty _).mpr named, (empty _).mpr versioned, String.ofList_toList]
    rfl

/-- An id that is read back from its written form. -/
def Rereadable (id : PackageId) : Prop :=
  id.name ≠ "" ∧ Text.FrontVisible id.name.toList ∧
    id.version ≠ "" ∧ '/' ∉ id.version.toList ∧ Text.BackVisible id.version.toList

theorem ofText?_text {id : PackageId} : ofText? id.text = some id ↔ id.Rereadable := by
  have ends (named : id.name ≠ "") (versioned : id.version ≠ "") :
      (Text.FrontVisible id.text.toList ↔ Text.FrontVisible id.name.toList) ∧
        (Text.BackVisible id.text.toList ↔ Text.BackVisible id.version.toList) := by
    have front : id.name.toList ≠ [] := by simpa using named
    have back : id.version.toList ≠ [] := by simpa using versioned
    unfold Text.FrontVisible Text.BackVisible
    rw [toList_text, List.head?_append_of_ne_nil _ front,
      List.getLast?_append_of_ne_nil _ (List.cons_ne_nil _ _), List.getLast?_cons_of_ne_nil back]
    exact ⟨Iff.rfl, Iff.rfl⟩
  rw [ofText?_eq_some, Text.trim_eq_self]
  constructor
  · rintro ⟨⟨front, back⟩, named, versioned, plain⟩
    rcases ends named versioned with ⟨first, last⟩
    exact ⟨named, first.mp front, versioned, plain, last.mp back⟩
  · rintro ⟨named, front, versioned, plain, back⟩
    rcases ends named versioned with ⟨first, last⟩
    exact ⟨⟨first.mpr front, last.mpr back⟩, named, versioned, plain⟩

/-- An id that was read from a text is read back from its written form. -/
theorem rereadable_of_ofText? {text : String} {id : PackageId} (read : ofText? text = some id) :
    id.Rereadable := by
  rcases ofText?_eq_some.mp read with ⟨whole, named, versioned, plain⟩
  rw [← ofText?_text, ofText?_eq_some]
  exact ⟨by rw [← whole, Text.trim_trim], named, versioned, plain⟩

end PackageId
end Consignment
