import Consignment.Disk.Basic
import Consignment.Proofs.Outcome

namespace Consignment
namespace Disk

/-!
# Following paths on a disk that grows

What a path leads to depends on the directories on the way and on what is at its end, so
it stays the same when a disk keeps its directories and what is there.  A path without
empty parts and single dots that leads anywhere leads to the place that its parts name,
every double dot taking back the name before it.

A disk *grows* when everything on it stays and everything new is allowed.  The operations
that stage a package are shown to let the disk grow, each by what it may add, and what
they leave alone follows from that.
-/

/-! ## Names on the way -/

/-- Parts that lead somewhere: not empty and no single dot. -/
def Proper (parts : List String) : Prop :=
  ∀ part ∈ parts, part ≠ "" ∧ part ≠ "."

theorem Proper.dropLast {parts : List String} (proper : Proper parts) : Proper parts.dropLast :=
  fun part mem => proper part ((List.dropLast_prefix parts).subset mem)

theorem Proper.parent {p : Path} (proper : Proper p.parts) : Proper p.parent.parts :=
  proper.dropLast

/-- The place that parts lead to from a place, whatever is there. -/
def follow (place : Place) (parts : List String) : Place :=
  parts.foldl (fun place part => if part = ".." then place.dropLast else place ++ [part]) place

theorem placeOf_eq_follow (d : Disk) (p : Path) :
    d.placeOf p = follow (d.start p.anchor) p.parts := rfl

theorem follow_append (place : Place) (first second : List String) :
    follow place (first ++ second) = follow (follow place first) second :=
  List.foldl_append

/-- Without double dots the parts lead down. -/
theorem follow_eq_append {place : Place} {parts : List String} (down : ".." ∉ parts) :
    follow place parts = place ++ parts := by
  induction parts generalizing place with
  | nil => exact (List.append_nil place).symm
  | cons name rest ih =>
    rw [List.mem_cons, not_or] at down
    have first : follow place [name] = place ++ [name] := if_neg (Ne.symm down.1)
    have split : follow place (name :: rest) = follow (follow place [name]) rest :=
      follow_append place [name] rest
    rw [split, first, ih down.2, List.append_assoc, List.singleton_append]

variable {d d' : Disk}

theorem start_congr (here : d'.here = d.here) (anchor : Anchor) :
    d'.start anchor = d.start anchor := by
  cases anchor with
  | relative => exact here
  | root => rfl
  | doubleRoot => rfl

theorem placeOf_congr (here : d'.here = d.here) (p : Path) : d'.placeOf p = d.placeOf p := by
  rw [placeOf_eq_follow, placeOf_eq_follow, start_congr here]

/-! ## One step -/

/-- A part of a path leads from a directory to a place. -/
inductive Leads (d : Disk) (place : Place) : String → Place → Prop
  | stay {name : String} (still : name = "" ∨ name = ".") : Leads d place name place
  | up : Leads d place ".." place.dropLast
  | down {name : String} (moves : ¬ (name = "" ∨ name = ".")) (down : name ≠ "..")
      (short : ¬ maxNameBytes < name.utf8ByteSize) (held : (d.node? (place ++ [name])).isSome) :
      Leads d place name (place ++ [name])

theorem walk_cons_eq_ok {place target : Place} {name : String} {rest : List String} :
    d.walk place (name :: rest) = .ok target ↔
      d.node? place = some .directory ∧
        ∃ next, d.Leads place name next ∧ d.walk next rest = .ok target := by
  rw [walk]
  cases here : d.node? place with
  | none => simp
  | some node =>
    cases node with
    | file bytes => simp
    | directory =>
      simp only [true_and]
      constructor
      · intro walked
        split at walked
        · rename_i still
          exact ⟨place, .stay still, walked⟩
        · rename_i moves
          split at walked
          · rename_i up
            exact ⟨place.dropLast, up ▸ .up, walked⟩
          · rename_i down
            split at walked
            · exact absurd walked (by simp)
            · rename_i short
              cases held : d.node? (place ++ [name]) with
              | none => simp [held] at walked
              | some node =>
                rw [held] at walked
                exact ⟨place ++ [name], .down moves down short (by simp [held]), walked⟩
      · rintro ⟨next, leads, walked⟩
        cases leads with
        | stay still => rwa [if_pos still]
        | up => rwa [if_neg (by decide), if_pos rfl]
        | down moves down short held =>
          rcases Option.isSome_iff_exists.mp held with ⟨node, there⟩
          rw [if_neg moves, if_neg down, if_neg short, there]
          exact walked

theorem walk_append_eq_ok {place target : Place} {first second : List String} :
    d.walk place (first ++ second) = .ok target ↔
      ∃ middle, d.walk place first = .ok middle ∧ d.walk middle second = .ok target := by
  induction first generalizing place with
  | nil => simp [walk]
  | cons name rest ih =>
    simp only [List.cons_append, walk_cons_eq_ok, ih]
    constructor
    · rintro ⟨here, next, leads, middle, first, second⟩
      exact ⟨middle, ⟨here, next, leads, first⟩, second⟩
    · rintro ⟨middle, ⟨here, next, leads, first⟩, second⟩
      exact ⟨here, next, leads, middle, first, second⟩

/-- Where the parts lead, read off the parts alone. -/
theorem walk_eq_follow {place target : Place} {parts : List String} (proper : Proper parts)
    (walked : d.walk place parts = .ok target) : target = follow place parts := by
  induction parts generalizing place with
  | nil =>
    cases walked
    rfl
  | cons name rest ih =>
    rcases walk_cons_eq_ok.mp walked with ⟨_, next, leads, further⟩
    have later : Proper rest := fun part mem => proper part (List.mem_cons_of_mem _ mem)
    have named := proper name List.mem_cons_self
    rw [ih later further]
    cases leads with
    | stay still => exact absurd still (by simp [named.1, named.2])
    | up => rfl
    | down _ down _ _ => rw [follow, follow, List.foldl_cons, if_neg down]

/-- A disk that keeps its directories and what is at the end is followed in the same
way. -/
theorem walk_of_kept {place target : Place} {parts : List String}
    (directories : ∀ q, d.node? q = some .directory → d'.node? q = some .directory)
    (held : (d'.node? target).isSome) (walked : d.walk place parts = .ok target) :
    d'.walk place parts = .ok target := by
  induction parts generalizing place with
  | nil => exact walked
  | cons name rest ih =>
    rcases walk_cons_eq_ok.mp walked with ⟨here, next, leads, further⟩
    refine walk_cons_eq_ok.mpr ⟨directories place here, next, ?_, ih further⟩
    cases leads with
    | stay still => exact .stay still
    | up => exact .up
    | down moves down short there =>
      refine .down moves down short ?_
      -- what follows goes through the directory, unless nothing follows
      cases rest with
      | nil =>
        cases further
        exact held
      | cons other others =>
        rw [directories _ (walk_cons_eq_ok.mp further).1]
        rfl

/-! ## Paths -/

theorem stat_eq_ok {p : Path} {node : Node} :
    d.stat p = .ok node ↔
      p.hasNull = false ∧ ∃ place, d.locate p = .ok place ∧ d.node? place = some node := by
  unfold stat
  cases p.hasNull with
  | true => simp
  | false =>
    simp only [Bool.false_eq_true, if_false, true_and]
    cases d.locate p with
    | error refusal => simp [refuse]
    | ok place => cases held : d.node? place <;> simp [refuse, held]

theorem read_eq_ok {p : Path} {bytes : ByteArray} :
    d.read p = .ok bytes ↔ d.stat p = .ok (.file bytes) := by
  unfold read
  simp only [Outcome.bind_eq_ok]
  constructor
  · rintro ⟨node, found, content⟩
    cases node with
    | directory => simp [refuse] at content
    | file held =>
      cases Outcome.pure_eq_ok.mp content
      exact found
  · intro found
    exact ⟨_, found, rfl⟩

theorem locate_eq_ok {p : Path} {place : Place} :
    d.locate p = .ok place ↔
      ¬ pathBytesBound ≤ p.text.utf8ByteSize ∧ d.walk (d.start p.anchor) p.parts = .ok place := by
  unfold locate
  split
  · rename_i long
    simp [long]
  · rename_i short
    simp [short]

theorem locate_eq_placeOf {p : Path} {place : Place} (proper : Proper p.parts)
    (located : d.locate p = .ok place) : place = d.placeOf p :=
  walk_eq_follow proper (locate_eq_ok.mp located).2

/-! ## Growing -/

/-- Everything stays, and everything new is allowed. -/
structure Grown (allowed : Place → Node → Prop) (d d' : Disk) : Prop where
  here : d'.here = d.here
  kept : ∀ q node, d.node? q = some node → d'.node? q = some node
  added : ∀ q node, d'.node? q = some node → d.node? q = some node ∨ allowed q node

namespace Grown

variable {allowed : Place → Node → Prop}

theorem refl (d : Disk) : Grown allowed d d where
  here := rfl
  kept := fun _ _ held => held
  added := fun _ _ held => Or.inl held

theorem trans {d'' : Disk} (first : Grown allowed d d') (second : Grown allowed d' d'') :
    Grown allowed d d'' where
  here := second.here.trans first.here
  kept := fun q node held => second.kept q node (first.kept q node held)
  added := by
    intro q node held
    rcases second.added q node held with before | new
    · exact first.added q node before
    · exact Or.inr new

/-- What is allowed can be restated, and what was there already need not be allowed. -/
theorem restate {wider : Place → Node → Prop} (grown : Grown allowed d d')
    (more : ∀ q node, allowed q node → d.node? q = some node ∨ wider q node) :
    Grown wider d d' where
  here := grown.here
  kept := grown.kept
  added := fun q node held => (grown.added q node held).elim Or.inl (more q node)

theorem mono {wider : Place → Node → Prop} (grown : Grown allowed d d')
    (more : ∀ q node, allowed q node → wider q node) : Grown wider d d' :=
  grown.restate fun q node fits => Or.inr (more q node fits)

/-- Only where a disk starts and what it holds matter. -/
theorem of_same {d'' : Disk} (grown : Grown allowed d d') (here : d''.here = d'.here)
    (same : ∀ q, d''.node? q = d'.node? q) : Grown allowed d d'' where
  here := here.trans grown.here
  kept := fun q node held => (same q).trans (grown.kept q node held)
  added := fun q node held => grown.added q node ((same q).symm.trans held)

/-- A disk grows when something is put where nothing was. -/
theorem put {place : Place} {node : Node} (vacant : d.node? place = none)
    (fits : allowed place node) : Grown allowed d (d.put place node) := by
  have named : place ≠ [] := by
    rintro rfl
    simp at vacant
  refine ⟨rfl, ?_, ?_⟩
  · intro q other held
    have differs : q ≠ place := by
      rintro rfl
      simp [vacant] at held
    rwa [node?_put d named, if_neg differs]
  · intro q other held
    rw [node?_put d named] at held
    split at held
    · rename_i same
      cases Option.some.inj held
      exact Or.inr (same ▸ fits)
    · exact Or.inl held

/-- A place is as it was, or nothing was there and what is there now is allowed. -/
theorem same_or_allowed (grown : Grown allowed d d') (q : Place) :
    d'.node? q = d.node? q ∨
      d.node? q = none ∧ ∃ node, d'.node? q = some node ∧ allowed q node := by
  cases old : d.node? q with
  | some node => exact Or.inl (grown.kept q node old)
  | none =>
    cases new : d'.node? q with
    | none => exact Or.inl rfl
    | some node =>
      rcases grown.added q node new with same | fits
      · exact absurd (old.symm.trans same) (by simp)
      · exact Or.inr ⟨rfl, node, rfl, fits⟩

theorem isSome (grown : Grown allowed d d') {q : Place} (held : (d.node? q).isSome) :
    (d'.node? q).isSome := by
  rcases Option.isSome_iff_exists.mp held with ⟨node, there⟩
  exact Option.isSome_iff_exists.mpr ⟨node, grown.kept q node there⟩

theorem start (grown : Grown allowed d d') (anchor : Anchor) :
    d'.start anchor = d.start anchor :=
  start_congr grown.here anchor

theorem placeOf (grown : Grown allowed d d') (p : Path) : d'.placeOf p = d.placeOf p :=
  placeOf_congr grown.here p

theorem stat (grown : Grown allowed d d') {p : Path} {node : Node}
    (found : d.stat p = .ok node) : d'.stat p = .ok node := by
  rcases stat_eq_ok.mp found with ⟨clean, place, located, held⟩
  rcases locate_eq_ok.mp located with ⟨short, walked⟩
  have there : d'.node? place = some node := grown.kept place node held
  refine stat_eq_ok.mpr ⟨clean, place, locate_eq_ok.mpr ⟨short, ?_⟩, there⟩
  rw [grown.start]
  exact walk_of_kept (fun q => grown.kept q _) (by simp [there]) walked

theorem read (grown : Grown allowed d d') {p : Path} {bytes : ByteArray}
    (found : d.read p = .ok bytes) : d'.read p = .ok bytes :=
  read_eq_ok.mpr (grown.stat (read_eq_ok.mp found))

end Grown
end Disk
end Consignment
