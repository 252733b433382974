import Consignment.Proofs.Invoice.Identity
import Consignment.Proofs.Requests
import Consignment.Proofs.Url.Escaping
import Consignment.Source

namespace Consignment

/-!
# Addresses of packages

The address of a package on a server is the server's own address without the slashes at its end,
a slash, and a path that holds the written form of the package's id.  The id decides no more
than the path: whatever characters it has, the path has none that would end it, and the id can be
read back from it, but for the slashes at the front of a name.

At its end the written form of an id loses nothing, because the version of an id that was read
from a text is not empty and has no slash.
-/

namespace Url

def dropFrontSlashes (cs : List Char) : List Char :=
  cs.dropWhile (· == '/')

/-- Only slashes are lost at the end of a text, and all of them. -/
theorem dropEndSlashes_spec (cs : List Char) :
    (∃ n, cs = dropEndSlashes cs ++ List.replicate n '/') ∧
      (dropEndSlashes cs).getLast? ≠ some '/' := by
  have whole := List.takeWhile_append_dropWhile (p := (· == '/')) (l := cs.reverse)
  have slashes : cs.reverse.takeWhile (· == '/') =
      List.replicate (cs.reverse.takeWhile (· == '/')).length '/' :=
    List.eq_replicate_of_mem fun c mem => by simpa using List.mem_takeWhile_imp mem
  constructor
  · refine ⟨(cs.reverse.takeWhile (· == '/')).length, ?_⟩
    have reversed := congrArg List.reverse whole
    rw [slashes, List.reverse_append, List.reverse_reverse, List.reverse_replicate] at reversed
    exact reversed.symm
  · rw [dropEndSlashes, List.getLast?_reverse]
    intro first
    have stopped := List.head?_dropWhile_not (· == '/') cs.reverse
    rw [first] at stopped
    simp at stopped

/-- A text that ends in something other than a slash stays as it is. -/
theorem dropEndSlashes_eq_self {cs : List Char} (plain : cs.getLast? ≠ some '/') :
    dropEndSlashes cs = cs := by
  have first : cs.reverse.dropWhile (· == '/') = cs.reverse := by
    rw [← List.head?_reverse] at plain
    cases held : cs.reverse with
    | nil => rfl
    | cons c rest =>
      have other : c ≠ '/' := fun same => plain (by rw [held, same]; rfl)
      simp [other]
  rw [dropEndSlashes, first, List.reverse_reverse]

theorem getLast?_dropFrontSlashes {cs : List Char} (plain : cs.getLast? ≠ some '/') :
    (dropFrontSlashes cs).getLast? ≠ some '/' := by
  have whole := List.takeWhile_append_dropWhile (p := (· == '/')) (l := cs)
  rw [← whole] at plain
  cases rest : dropFrontSlashes cs with
  | nil => simp
  | cons c others =>
    have kept : cs.dropWhile (· == '/') = c :: others := rest
    rwa [kept, List.getLast?_append_of_ne_nil _ (List.cons_ne_nil c others)] at plain

end Url

namespace Source

open Url

/-- What is written in the path to a package. -/
def pathText (id : PackageId) : List Char :=
  "_i/".toList ++ dropFrontSlashes id.text.toList

/-- The base without slashes at its end, a slash, and the path in its written form. -/
theorem toList_addressOf (server : String) {text : String} {id : PackageId}
    (known : PackageId.ofText? text = some id) :
    (addressOf server id).toList =
      dropEndSlashes server.toList ++ '/' :: encode (pathText id) := by
  have plain : id.text.toList.getLast? ≠ some '/' := by
    rcases PackageId.ofText?_eq_some.mp known with ⟨-, -, versioned, slashless⟩
    have some : id.version.toList ≠ [] := by simpa using versioned
    rw [PackageId.toList_text, List.getLast?_append_of_ne_nil _ (List.cons_ne_nil _ _),
      List.getLast?_cons_of_ne_nil some]
    exact fun last => slashless (List.mem_of_getLast? last)
  have kept : trimSlashes id.text.toList = dropFrontSlashes id.text.toList :=
    dropEndSlashes_eq_self (getLast?_dropFrontSlashes plain)
  have index : encode (trimSlashes "_i".toList) ++ ['/'] = encode "_i/".toList := by decide
  simp only [addressOf, join, List.map_cons, List.map_nil, Text.joinWith, kept, pathText,
    encode_append, ← index, String.toList_ofList, List.append_assoc, List.singleton_append]

/-- What is asked for differs from the address at its front only. -/
theorem toList_requested_addressOf (server : String) {text : String} {id : PackageId}
    (known : PackageId.ofText? text = some id) :
    (requested (addressOf server id)).toList =
      Text.trimStart (dropEndSlashes server.toList) ++ '/' :: encode (pathText id) := by
  have front (rest : List Char) : Text.trimStart (dropEndSlashes server.toList ++ '/' :: rest) =
      Text.trimStart (dropEndSlashes server.toList) ++ '/' :: rest := by
    have slash : Text.trimStart ('/' :: rest) = '/' :: rest := by
      simp [Text.trimStart, show Text.isBlank '/' = false by decide]
    rw [Text.trimStart] at slash
    rw [Text.trimStart, List.dropWhile_append]
    split
    · rename_i empty
      rw [slash, Text.trimStart, List.isEmpty_iff.mp empty, List.nil_append]
    · rfl
  have back (start : List Char) : Text.trimEnd (start ++ '/' :: encode (pathText id)) =
      start ++ '/' :: encode (pathText id) := by
    refine Text.trimEnd_eq_self.mpr fun c last => ?_
    rw [List.getLast?_append_of_ne_nil _ (List.cons_ne_nil _ _)] at last
    have visible : ∀ c ∈ '/' :: encode (pathText id), IsVisible c :=
      List.forall_mem_cons.mpr ⟨by decide, (escapedPath_encode _).isVisible⟩
    exact (visible c (List.mem_of_getLast? last)).isBlank_eq_false
  rw [requested, Text.toList_trimmed, toList_addressOf server known, Text.trim, front, back]

/-- Fetching asks for the address of the package, and for nothing else. -/
theorem requests_fetch (network : String → Answer) (d : Disk) (server : String) (timeout : Value)
    (id : PackageId) : (fetch network d (.server server timeout) id).requests =
      [⟨requested (addressOf server id), timeout⟩] := by
  have rest : (Report.ofOutcome (valueOfAnswer id (network (requested (addressOf server id)))) >>=
      fun v => Report.ofOutcome (invoiceOfValue id v)).Quiet :=
    .bind (.ofOutcome _) fun v => .ofOutcome _
  rw [fetch, Report.requests_bind_of_ok (Report.outcome_note _), Report.requests_note,
    List.nil_append, Report.requests_bind_of_ok rfl, rest]
  rfl

/-- **An id cannot alter the address that is asked for.**  Fetching a package from a server asks
for one address.  The address of a package whose id was read from a text is the base without the
slashes at its end, a slash, and a path of ASCII letters, digits, seven marks and escapes, which
has no character that would end it.  Reading the escapes of the path as UTF-8 gives the text of
the id below the index, without slashes at its front.  So two such ids have one address, and
are asked for at one address, only if their texts are the same but for slashes at the front. -/
theorem address_faithful (server : String) {text : String} {id : PackageId}
    (known : PackageId.ofText? text = some id) :
    (∃ stem path : List Char,
      (∃ n, server.toList = stem ++ List.replicate n '/') ∧ stem.getLast? ≠ some '/' ∧
      (addressOf server id).toList = stem ++ '/' :: path ∧
      EscapedPath path ∧ (∀ c ∈ path, IsVisible c) ∧
      Text.decodeUtf8 (unescape path) =
        .ok ("_i/".toList ++ dropFrontSlashes id.text.toList)) ∧
    (∀ (network : String → Answer) (d : Disk) (timeout : Value),
      (fetch network d (.server server timeout) id).requests =
        [⟨requested (addressOf server id), timeout⟩]) ∧
    ∀ {text' : String} {id' : PackageId}, PackageId.ofText? text' = some id' →
      (addressOf server id = addressOf server id' ↔
        dropFrontSlashes id.text.toList = dropFrontSlashes id'.text.toList) ∧
      (requested (addressOf server id) = requested (addressOf server id') ↔
        dropFrontSlashes id.text.toList = dropFrontSlashes id'.text.toList) := by
  rcases dropEndSlashes_spec server.toList with ⟨slashes, stem⟩
  refine ⟨⟨dropEndSlashes server.toList, encode (pathText id), slashes, stem,
    toList_addressOf server known, escapedPath_encode _, (escapedPath_encode _).isVisible,
    decodeUtf8_unescape_encode _⟩, fun network d timeout => requests_fetch network d server timeout id,
    fun known' => ?_⟩
  rw [← String.toList_inj, ← String.toList_inj, toList_addressOf server known,
    toList_addressOf server known', toList_requested_addressOf server known,
    toList_requested_addressOf server known']
  simp only [List.append_cancel_left_eq, List.cons.injEq, true_and, encode_inj, pathText, and_self]

/-- An id that looks like the end of a path. -/
def evasiveId : PackageId :=
  ⟨"/a b?x=%2F#/été", "1"⟩

theorem address_faithful_evasive :
    PackageId.ofText? " /a b?x=%2F#/été/1" = some evasiveId ∧
      PackageId.ofText? "a b?x=//#/été/1" = some ⟨"a b?x=//#/été", "1"⟩ ∧
      addressOf "https://bindle.example/v1//" evasiveId =
        "https://bindle.example/v1/_i/a%20b%3Fx%3D%252F%23/%C3%A9t%C3%A9/1" ∧
      addressOf "https://bindle.example/v1//" evasiveId ≠
        addressOf "https://bindle.example/v1//" ⟨"a b?x=//#/été", "1"⟩ := by
  have known : PackageId.ofText? " /a b?x=%2F#/été/1" = some evasiveId := by decide +kernel
  have known' : PackageId.ofText? "a b?x=//#/été/1" = some ⟨"a b?x=//#/été", "1"⟩ := by
    decide +kernel
  refine ⟨known, known', by decide +kernel, fun same => ?_⟩
  have faithful := address_faithful "https://bindle.example/v1//" known
  exact absurd ((faithful.2.2 known').1.mp same) (by decide +kernel)

end Source
end Consignment
