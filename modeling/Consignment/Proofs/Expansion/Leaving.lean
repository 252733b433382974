import Consignment.Proofs.Disk.Following
import Consignment.Proofs.Expansion.Integrity
import Consignment.Proofs.Expansion.Rearranging
import Consignment.Proofs.Expansion.Refusing

namespace Consignment

/-!
# Where the names of local files lead

A local file is named by what leads to it from the base.  Whether anything does is judged by the
parts of the two paths alone: the parts of the base have to come first.  So a path with other
parts is refused, and with it every absolute path of another directory.  A path that has the parts
of the base in front and then goes up is not: its double dots stay in the name, and the name leads
out of the base just as the path did.

So the names of an expanded invoice stay inside of the base exactly if the module paths and the
matches that they are made from do, and nothing makes these stay there.
-/

namespace Path

/-- Whether parts that are followed one by one never lead out, so many levels below where they
started.  A double dot takes back the part before it. -/
def stays : Nat → List String → Bool
  | _, [] => true
  | depth, part :: rest =>
    if part = ".." then
      match depth with
      | 0 => false
      | depth + 1 => stays depth rest
    else stays (depth + 1) rest

/-- After one part that leads to a place, the fronts of the parts after it are followed from there. -/
theorem fronts_follow_cons {top inside next : Place} {part : String} {rest : List String}
    (here : Disk.follow (top ++ inside) [part] = top ++ next) :
    (∀ front, front <+: part :: rest → top <+: Disk.follow (top ++ inside) front) ↔
      ∀ front, front <+: rest → top <+: Disk.follow (top ++ next) front := by
  have step (front : List String) : Disk.follow (top ++ inside) (part :: front) =
      Disk.follow (top ++ next) front := by
    rw [← here]
    exact Disk.follow_append _ [part] front
  constructor
  · intro each front leads
    rw [← step]
    exact each _ (List.cons_prefix_cons.mpr ⟨rfl, leads⟩)
  · rintro each (_ | ⟨first, front⟩) leads
    · exact List.prefix_append top inside
    · rcases List.cons_prefix_cons.mp leads with ⟨rfl, later⟩
      rw [step]
      exact each front later

/-- A double dot at the top leads out. -/
theorem not_prefix_follow_up {top : Place} (named : top ≠ []) : ¬ top <+: Disk.follow top [".."] := by
  intro out
  have shorter : Disk.follow top [".."] = top.dropLast := rfl
  rw [shorter] at out
  have lengths := out.length_le
  have some := List.length_pos_of_ne_nil named
  rw [List.length_dropLast] at lengths
  omega

/-- Parts stay exactly if every front of them leads to a place that is still inside. -/
theorem stays_iff {top : Place} (named : top ≠ []) (inside parts : List String) :
    stays inside.length parts = true ↔
      ∀ front, front <+: parts → top <+: Disk.follow (top ++ inside) front := by
  induction parts generalizing inside with
  | nil =>
    simp only [stays, List.prefix_nil, true_iff]
    rintro front rfl
    exact List.prefix_append top inside
  | cons part rest ih =>
    by_cases up : part = ".."
    · subst up
      rcases List.eq_nil_or_concat inside with rfl | ⟨before, last, rfl⟩
      · simp only [stays, List.length_nil, if_true, Bool.false_eq_true, false_iff, List.append_nil]
        intro each
        exact not_prefix_follow_up named
          (each [".."] (List.cons_prefix_cons.mpr ⟨rfl, List.nil_prefix⟩))
      · have back : Disk.follow (top ++ before.concat last) [".."] = top ++ before := by
          have joined : top ++ before.concat last = (top ++ before) ++ [last] := by simp
          rw [joined]
          exact List.dropLast_concat
        rw [fronts_follow_cons back, ← ih before]
        simp [stays]
    · have down : Disk.follow (top ++ inside) [part] = top ++ (inside ++ [part]) := by
        rw [← List.append_assoc]
        exact if_neg up
      rw [fronts_follow_cons down, ← ih (inside ++ [part])]
      simp [stays, up]

end Path

namespace ExpansionContext

open Outcome

variable {c : ExpansionContext} {manifest : Manifest} {inv : Invoice}

/-- What leads from the base to what a text names, by the parts alone. -/
def wayTo? (c : ExpansionContext) (text : String) : Option (List String) :=
  (c.base.join text).relativeTo? c.base

/-- The texts that an entry takes local files by: the path of its module, and what its patterns
match and is a file. -/
inductive Takes (c : ExpansionContext) (e : Entry) : String → Prop
  | module {text : String} (named : e.role.modulePath? = some text) : Takes c e text
  | file {pattern text : String} {found : List String} (asked : pattern ∈ e.files.getD [])
      (matching : Glob.matching c.disk c.base pattern = .ok found) (mem : text ∈ found)
      (isFile : c.disk.isFile (c.base.join text) = .ok true) : Takes c e text

/-- A name is the way to what a text names. -/
structure NamedBy (c : ExpansionContext) (text name : String) (way : List String) : Prop where
  leads : c.wayTo? text = some way
  written : name = Path.text ⟨.relative, way⟩
  nonempty : name ≠ ""
  read : Path.ofText name = ⟨.relative, way⟩

theorem nameOf_eq_ok {text name : String} :
    c.nameOf (c.base.join text) = .ok name ↔
      ∃ way, c.wayTo? text = some way ∧ Path.text ⟨.relative, way⟩ = name := by
  unfold nameOf wayTo?
  cases (c.base.join text).relativeTo? c.base <;> simp

/-- A name that a local file has is the way to it. -/
theorem namedBy_of_nameOf {text name : String} (named : c.nameOf (c.base.join text) = .ok name) :
    ∃ way, c.NamedBy text name way := by
  rcases nameOf_eq_ok.mp named with ⟨way, leads, rfl⟩
  have names := Path.isName_of_mem_relativeTo? leads
  exact ⟨way, leads, rfl, Path.text_ne_empty names, Path.ofText_text names⟩

/-! ## The local parcels of an invoice -/

/-- The module of an entry has the label of a local file. -/
theorem localLabel_of_primaryParcel {role : Role} {text : String} {p : Parcel}
    (named : role.modulePath? = some text) (had : c.primaryParcel role = .ok p) :
    ∃ feature annotations,
      c.localLabel role (c.base.join text) feature annotations = .ok p.label := by
  rcases primaryParcel_eq_ok.mp had with ⟨label, labelled, rfl⟩
  cases role with
  | handler modulePath route =>
    cases named
    exact ⟨_, _, labelled⟩
  | imported ref route => cases named
  | exported modulePath exportId =>
    cases named
    exact ⟨_, _, labelled⟩

theorem exists_modulePath {role : Role} (own : ¬ ∃ ref, role.external? = some ref) :
    ∃ text, role.modulePath? = some text := by
  cases role with
  | handler modulePath route => exact ⟨modulePath, rfl⟩
  | imported ref route => exact absurd ⟨ref, rfl⟩ own
  | exported modulePath exportId => exact ⟨modulePath, rfl⟩

theorem nameOf_of_localLabel {role : Role} {path : Path} {feature : FeatureMap}
    {annotations : Option TextMap} {label : Label}
    (labelled : c.localLabel role path feature annotations = .ok label) :
    c.nameOf path = .ok label.name := by
  rcases localLabel_eq_ok.mp labelled with ⟨_, _, _, named, rfl⟩
  exact named

namespace Parts

variable (parts : c.Parts manifest)

/-- A parcel that is no reference is named by a text that an entry takes. -/
theorem exists_takes_of_mem {p : Parcel} (mem : p ∈ parts.invoice.parcels)
    (own : p.isReference = false) :
    ∃ e ∈ manifest.matching c.values, ∃ text, c.Takes e text ∧
      c.nameOf (c.base.join text) = .ok p.label.name := by
  rcases List.mem_append.mp mem with front | file
  · rcases List.mem_append.mp front with primary | dependency
    · rcases Outcome.mem_of_forall₂ parts.primary_had primary with ⟨e, kept, had⟩
      have module := (isReference_of_primaryParcel had).not.mp (by simp [own])
      rcases exists_modulePath module with ⟨text, named⟩
      rcases localLabel_of_primaryParcel named had with ⟨_, _, labelled⟩
      exact ⟨e, kept, text, .module named, nameOf_of_localLabel labelled⟩
    · rw [parts.isReference_of_mem_external dependency] at own
      cases own
  · rcases parts.exists_of_mem_matchedParcels file with
      ⟨e, kept, pattern, asked, _, ⟨found, matching, ⟨text, listed, rfl⟩, isFile⟩, labelled, -⟩
    exact ⟨e, kept, text, .file asked matching listed isFile, nameOf_of_localLabel labelled⟩

/-- Every text that an entry takes names a parcel that is no reference. -/
theorem exists_mem_of_takes {e : Entry} (kept : e ∈ manifest.matching c.values) {text : String}
    (takes : c.Takes e text) :
    ∃ p ∈ parts.invoice.parcels, p.isReference = false ∧
      c.nameOf (c.base.join text) = .ok p.label.name := by
  cases takes with
  | module named =>
    rcases Outcome.exists_mem_of_forall₂ parts.primary_had kept with ⟨p, mem, had⟩
    rcases localLabel_of_primaryParcel named had with ⟨_, _, labelled⟩
    have foreign : ¬ ∃ ref, e.role.external? = some ref := by
      rintro ⟨ref, refers⟩
      cases held : e.role <;> simp [held, Role.external?, Role.modulePath?] at refers named
    have own : p.isReference = false := by
      rw [← Bool.not_eq_true]
      exact (isReference_of_primaryParcel had).not.mpr foreign
    exact ⟨p, List.mem_append_left _ (List.mem_append_left _ mem), own,
      nameOf_of_localLabel labelled⟩
  | @file pattern _ found asked matching mem isFile =>
    have gives : c.PatternGives pattern (c.base.join text) :=
      ⟨found, matching, ⟨text, mem, rfl⟩, isFile⟩
    have matched := (mem_flatten_entryFiles parts.matched_had).mpr
      ⟨e, kept, pattern, asked, _, gives, rfl⟩
    rcases Outcome.exists_mem_of_forall₂ parts.files_had matched with ⟨q, held, had⟩
    rcases fileParcel_eq_ok.mp had with ⟨label, labelled, rfl⟩
    rcases Parcel.exists_named_mem_merge_iff.mpr ⟨_, held, rfl⟩ with ⟨p, merged, named⟩
    refine ⟨p, List.mem_append_right _ merged, parts.isReference_of_mem_matchedParcels merged, ?_⟩
    rw [named]
    exact nameOf_of_localLabel labelled

end Parts

/-! ## Paths that are refused -/

/-- A local file whose path has not the parts of the base in front cannot be had. -/
theorem localLabel_of_outside (role : Role) {path : Path} (feature : FeatureMap)
    (annotations : Option TextMap) (outside : path.relativeTo? c.base = none)
    (clean : path.hasNull = false) :
    ∃ cause, c.localLabel role path feature annotations = .error (.files cause) := by
  have ends := Disk.ends_read c.disk path
  unfold localLabel
  cases read : c.disk.read path with
  | ok bytes => exact ⟨.outside path.text c.base.text, by simp [nameOf, outside]⟩
  | error fault =>
    rcases ends.of_error read with ⟨null, -⟩ | ⟨-, refused⟩
    · rw [clean] at null
      cases null
    · cases fault with
      | disk refusal => exact ⟨_, rfl⟩
      | _ => simp [Fault.isDisk] at refused

theorem primaryParcel_of_outside {role : Role} {text : String}
    (named : role.modulePath? = some text) (outside : c.wayTo? text = none)
    (clean : (c.base.join text).hasNull = false) :
    ∃ cause, c.primaryParcel role = .error (.files cause) := by
  cases role with
  | handler modulePath route =>
    cases named
    obtain ⟨cause, refused⟩ := localLabel_of_outside (.handler text route)
      (servingFeature (some route) false) none outside clean
    exact ⟨cause, by simp [primaryParcel, refused]⟩
  | imported ref route => cases named
  | exported modulePath exportId =>
    cases named
    obtain ⟨cause, refused⟩ := localLabel_of_outside (.exported text exportId)
      (servingFeature none false) (some [(handlerIdKey, exportId)]) outside clean
    exact ⟨cause, by simp [primaryParcel, refused]⟩

theorem fileParcel_of_outside (role : Role) {path : Path}
    (outside : path.relativeTo? c.base = none) (clean : path.hasNull = false) :
    ∃ cause, c.fileParcel role path = .error (.files cause) := by
  rcases localLabel_of_outside role (servingFeature none true) none outside clean with
    ⟨cause, refused⟩
  exact ⟨cause, by simp [fileParcel, refused]⟩

/-- An entry whose module cannot have the parts of the base in front. -/
def NamesOutside (c : ExpansionContext) (e : Entry) : Prop :=
  ∃ text, e.role.modulePath? = some text ∧ c.wayTo? text = none ∧
    (c.base.join text).hasNull = false

/-- The expansion fails with a failure of files if that is the first module that cannot be had. -/
theorem expand_of_module_outside
    (first : First (fun e => ∃ p, c.primaryParcel e.role = .ok p) c.NamesOutside
      (manifest.matching c.values)) :
    ∃ cause, (c.expand manifest).outcome = .error (.files cause) := by
  rcases first with ⟨before, e, after, divided, fine, text, named, outside, clean⟩
  rcases primaryParcel_of_outside named outside clean with ⟨cause, refused⟩
  exact ⟨cause, expand_eq_error.mpr (.module ⟨before, e, after, divided, fine, refused⟩)⟩

/-- The same of a matched file, behind the modules, the dependencies and the patterns. -/
theorem expand_of_match_outside {primary : List Parcel} {dependencies : List (List Parcel)}
    {matched : List (List (Role × Path))} (modules : c.modules manifest = .ok primary)
    (closures : c.closures manifest = .ok dependencies)
    (patterns : c.patterns manifest = .ok matched)
    (first : First (fun m => ∃ p, c.fileParcel m.1 m.2 = .ok p)
      (fun m => m.2.relativeTo? c.base = none) matched.flatten) :
    ∃ cause, (c.expand manifest).outcome = .error (.files cause) := by
  rcases first with ⟨before, m, after, divided, fine, outside⟩
  have clean := clean_of_mem_matched patterns (m := m) (by rw [divided]; simp)
  rcases fileParcel_of_outside m.1 outside clean with ⟨cause, refused⟩
  exact ⟨cause, expand_eq_error.mpr
    (.file modules closures patterns ⟨before, m, after, divided, fine, refused⟩)⟩

/-! ## The whole expansion -/

/-- **Local names stay inside of the base exactly if the paths that they are made from do.**  In an
expanded invoice every parcel that is no reference is named by the way from the base to a module or
a matched file of an entry that takes part, a relative path that is not empty, and every such
module and file names one.  No name leads out of the base if and only if none of these ways does;
that a name stays means that wherever the base is, unless it is the root, every front of the name
leads to the base or below it.  A module path or a match that has not even the parts of the base in
front is a failure of files, if it is the first thing that cannot be had. -/
theorem localNames_of_expand (c : ExpansionContext) (manifest : Manifest) :
    (∀ inv, (c.expand manifest).outcome = .ok inv →
      (∀ p ∈ inv.parcels, p.isReference = false → ∃ e ∈ manifest.matching c.values, ∃ text,
        c.Takes e text ∧ ∃ way, c.NamedBy text p.label.name way) ∧
      (∀ e ∈ manifest.matching c.values, ∀ text, c.Takes e text →
        ∃ p ∈ inv.parcels, p.isReference = false ∧ ∃ way, c.NamedBy text p.label.name way) ∧
      ((∀ p ∈ inv.parcels, p.isReference = false →
          Path.stays 0 (Path.ofText p.label.name).parts = true) ↔
        ∀ e ∈ manifest.matching c.values, ∀ text, c.Takes e text →
          ∃ way, c.wayTo? text = some way ∧ Path.stays 0 way = true) ∧
      ∀ top : Place, top ≠ [] → ∀ p ∈ inv.parcels,
        (Path.stays 0 (Path.ofText p.label.name).parts = true ↔
          ∀ front, front <+: (Path.ofText p.label.name).parts → top <+: Disk.follow top front)) ∧
    (First (fun e => ∃ p, c.primaryParcel e.role = .ok p) c.NamesOutside
        (manifest.matching c.values) →
      ∃ cause, (c.expand manifest).outcome = .error (.files cause)) ∧
    ∀ {primary dependencies matched}, c.modules manifest = .ok primary →
      c.closures manifest = .ok dependencies → c.patterns manifest = .ok matched →
      First (fun m => ∃ p, c.fileParcel m.1 m.2 = .ok p)
        (fun m => m.2.relativeTo? c.base = none) matched.flatten →
      ∃ cause, (c.expand manifest).outcome = .error (.files cause) := by
  refine ⟨fun inv expanded => ?_, expand_of_module_outside, expand_of_match_outside⟩
  rcases expand_eq_ok.mp expanded with ⟨parts, rfl⟩
  have taken : ∀ p ∈ parts.invoice.parcels, p.isReference = false →
      ∃ e ∈ manifest.matching c.values, ∃ text, c.Takes e text ∧
        ∃ way, c.NamedBy text p.label.name way := by
    intro p mem own
    rcases parts.exists_takes_of_mem mem own with ⟨e, kept, text, takes, named⟩
    exact ⟨e, kept, text, takes, namedBy_of_nameOf named⟩
  have naming : ∀ e ∈ manifest.matching c.values, ∀ text, c.Takes e text →
      ∃ p ∈ parts.invoice.parcels, p.isReference = false ∧
        ∃ way, c.NamedBy text p.label.name way := by
    intro e kept text takes
    rcases parts.exists_mem_of_takes kept takes with ⟨p, mem, own, named⟩
    exact ⟨p, mem, own, namedBy_of_nameOf named⟩
  have places (top : Place) (named : top ≠ []) (parts : List String) :
      Path.stays 0 parts = true ↔
        ∀ front, front <+: parts → top <+: Disk.follow top front := by
    simpa using Path.stays_iff named [] parts
  refine ⟨taken, naming, ⟨fun inside e kept text takes => ?_, fun inside p mem own => ?_⟩,
    fun top named p _ => places top named _⟩
  · rcases naming e kept text takes with ⟨p, mem, own, way, named⟩
    have stays := inside p mem own
    rw [named.read] at stays
    exact ⟨way, named.leads, stays⟩
  · rcases taken p mem own with ⟨e, kept, text, takes, way, named⟩
    rcases inside e kept text takes with ⟨way', leads, stays⟩
    cases Option.some.inj (named.leads.symm.trans leads)
    rw [named.read]
    exact stays

/-- An application beside other files. -/
def porchContext : ExpansionContext where
  base := .ofText "/app"
  disk := { nodes := [
    (["app"], .directory), (["app", "m"], .file ⟨#[1]⟩), (["app", "a.txt"], .file ⟨#[2]⟩),
    (["app", "sub"], .directory), (["m"], .file ⟨#[3]⟩), (["b.txt"], .file ⟨#[4]⟩)] }
  versioning := .production
  stamp := ⟨⟨⟨2024, 1, 2⟩, 3, 4, 5, 6, none⟩, none⟩

/-- One handler, whose module and files are given. -/
def porch (modulePath : String) (patterns : List String) : Manifest where
  packageName := "porch"
  packageVersion := "1"
  entries := [⟨.handler modulePath "/", some patterns, .always⟩]

theorem localNames_of_expand_porch :
    (∃ inv, (porchContext.expand (porch "sub/../m" ["*.txt"])).outcome = .ok inv ∧
      inv.parcels.length = 2 ∧
      (∀ e ∈ (porch "sub/../m" ["*.txt"]).matching porchContext.values, ∀ text,
        porchContext.Takes e text →
          ∃ way, porchContext.wayTo? text = some way ∧ Path.stays 0 way = true) ∧
      ∀ p ∈ inv.parcels, p.isReference = false → ∀ front,
        front <+: (Path.ofText p.label.name).parts → ["app"] <+: Disk.follow ["app"] front) ∧
    (∃ cause, (porchContext.expand (porch "/m" [])).outcome = .error (.files cause)) ∧
    ∃ cause, (porchContext.expand (porch "m" ["/*.txt"])).outcome = .error (.files cause) := by
  have inside : ((porchContext.expand (porch "sub/../m" ["*.txt"])).outcome.map fun inv =>
      inv.parcels.length == 2 && inv.parcels.all fun p =>
        p.isReference || Path.stays 0 (Path.ofText p.label.name).parts).toOption = some true := by
    decide +kernel
  rcases Outcome.exists_of_toOption inside with ⟨inv, expanded, holds⟩
  simp only [Bool.and_eq_true, beq_iff_eq, List.all_eq_true, Bool.or_eq_true] at holds
  have matched : ((porchContext.patterns (porch "m" ["/*.txt"])).map fun matched =>
      decide (matched.flatten.map Prod.snd = [⟨.root, ["b.txt"]⟩])).toOption = some true := by
    decide +kernel
  rcases Outcome.exists_of_toOption matched with ⟨matched, patterns, listed⟩
  rcases List.map_eq_singleton_iff.mp (of_decide_eq_true listed) with ⟨⟨role, _⟩, same, rfl⟩
  have outside : Path.relativeTo? ⟨.root, ["b.txt"]⟩ porchContext.base = none := by decide
  have before : (porchContext.modules (porch "m" ["/*.txt"])).toBool = true ∧
      (porchContext.closures (porch "m" ["/*.txt"])).toBool = true := by
    decide +kernel
  rcases Outcome.exists_of_toBool before.1 with ⟨primary, modules⟩
  rcases Outcome.exists_of_toBool before.2 with ⟨dependencies, closures⟩
  have stays : ∀ p ∈ inv.parcels, p.isReference = false →
      Path.stays 0 (Path.ofText p.label.name).parts = true :=
    fun p mem own => (holds.2 p mem).resolve_left (by simp [own])
  have names := (localNames_of_expand porchContext _).1 inv expanded
  refine ⟨⟨inv, expanded, holds.1, names.2.2.1.mp stays, fun p mem own => ?_⟩, ?_, ?_⟩
  · exact (names.2.2.2 ["app"] (by simp) p mem).mp (stays p mem own)
  · exact (localNames_of_expand porchContext (porch "/m" [])).2.1
      ⟨[], _, [], rfl, by simp, "/m", rfl, by decide, by decide⟩
  · exact (localNames_of_expand porchContext _).2.2 modules closures patterns
      ⟨[], _, [], same, by simp, outside⟩

/-- A module and a match one level above the base are taken, and their names lead out. -/
theorem not_stays_of_expand_porch :
    ∃ inv, (porchContext.expand (porch "../m" ["../*.txt"])).outcome = .ok inv ∧
      inv.parcels.map (·.label.name) = ["../m", "../b.txt"] ∧
      ∀ p ∈ inv.parcels, p.isReference = false ∧
        Path.stays 0 (Path.ofText p.label.name).parts = false := by
  have evaluated : ((porchContext.expand (porch "../m" ["../*.txt"])).outcome.map fun inv =>
      decide (inv.parcels.map (·.label.name) = ["../m", "../b.txt"]) && inv.parcels.all fun p =>
        !p.isReference && !Path.stays 0 (Path.ofText p.label.name).parts).toOption = some true := by
    decide +kernel
  rcases Outcome.exists_of_toOption evaluated with ⟨inv, expanded, holds⟩
  simp only [Bool.and_eq_true, decide_eq_true_eq, List.all_eq_true, Bool.not_eq_true'] at holds
  exact ⟨inv, expanded, holds.1, holds.2⟩

end ExpansionContext
end Consignment
