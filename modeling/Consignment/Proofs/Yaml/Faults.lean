import Consignment.Proofs.Ending
import Consignment.Yaml.Load

namespace Consignment
namespace Yaml

open Outcome

/-!
# What can be wrong with a document

A text that is no tree of nodes has one of a few faults, whatever the text.  The stages of reading
are followed in their order, each with the faults that it can add.

* Dividing a text into tokens finds it malformed, or meets an escape beyond the last character
  or a version of too many digits.  A token can itself be such a fault, which then comes up when
  the token is read.  So what the division keeps is that its tokens are proper, step by step.
* Putting tokens together to nodes adds no fault.  The functions that read nodes call one another,
  and are followed together by induction on the fuel.

Giving nodes values is another matter, which has its own module.
-/

/-- The faults of a text that cannot be divided into tokens. -/
@[grind]
inductive Indivisible : Fault → Prop
  | malformed : Indivisible .malformedDocument
  /-- A version of too many digits. -/
  | version {digits : Nat} (long : Number.maxDecimalDigits < digits) :
    Indivisible (.integer (.tooLong digits) "")
  /-- An escape beyond the last character. -/
  | character {code : Nat} (beyond : 0x110000 ≤ code) : Indivisible (.character code)

@[grind .]
theorem ends_malformed {α : Type} {Q : α → Prop} : Ends Q Indivisible (malformed : Except Fault α) :=
  .malformed

@[simp, grind =]
theorem malformed_bind {α β : Type} (next : α → Except Fault β) :
    (malformed >>= next) = malformed := rfl

/-- A token that is a fault is one of a text that cannot be divided. -/
@[grind]
def Token.Proper : Token → Prop
  | .broken fault => Indivisible fault
  | _ => True

/-! ## Tokens -/

theorem ends_scanNumber (c : Cursor) : Ends (fun _ => True) Indivisible (scanNumber c) := by
  unfold scanNumber
  grind

theorem ends_scanHandle (c : Cursor) : Ends (fun _ => True) Indivisible (scanHandle c) := by
  unfold scanHandle
  grind

theorem ends_escapedBytes (cs : List Char) :
    Ends (fun _ => True) Indivisible (escapedBytes cs) := by
  fun_induction escapedBytes cs <;> grind

theorem ends_tagTextFrom (fuel : Nat) (cs : List Char) :
    Ends (fun _ => True) Indivisible (tagTextFrom fuel cs) := by
  fun_induction tagTextFrom fuel cs <;> grind [ends_escapedBytes]

theorem ends_scanTagText (c : Cursor) : Ends (fun _ => True) Indivisible (scanTagText c) := by
  unfold scanTagText
  grind [ends_tagTextFrom]

theorem ends_scanDirective (c : Cursor) :
    Ends (fun read => read.1.Proper) Indivisible (scanDirective c) := by
  unfold scanDirective
  grind [ends_scanNumber, ends_scanHandle, ends_scanTagText]

theorem ends_scanName (c : Cursor) : Ends (fun _ => True) Indivisible (scanName c) := by
  unfold scanName
  dsimp only
  split
  · exact ends_malformed
  · split
    · trivial
    · exact ends_malformed

theorem ends_scanTag (c : Cursor) : Ends (fun read => read.1.Proper) Indivisible (scanTag c) := by
  unfold scanTag
  grind [ends_scanHandle, ends_scanTagText]

theorem ends_scanBlockMarks (c : Cursor) :
    Ends (fun _ => True) Indivisible (scanBlockMarks c) := by
  unfold scanBlockMarks
  grind

theorem ends_scanBlockScalar (least : Nat) (folded : Bool) (c : Cursor) :
    Ends (fun read => read.1.Proper) Indivisible (scanBlockScalar least folded c) := by
  unfold scanBlockScalar
  grind [ends_scanBlockMarks]

theorem ends_scanQuotedBreaks (fuel : Nat) (c : Cursor) :
    Ends (fun _ => True) Indivisible (scanQuotedBreaks fuel c) := by
  fun_induction scanQuotedBreaks fuel c <;> grind

theorem ends_scanQuoted (double : Bool) (fuel : Nat) (c : Cursor) :
    Ends (fun _ => True) Indivisible (scanQuoted double fuel c) := by
  fun_induction scanQuoted double fuel c <;> grind [ends_scanQuotedBreaks]

namespace Divided

/-- The tokens so far are proper. -/
@[grind]
def Proper (d : Divided) : Prop :=
  ∀ token ∈ d.done, token.Proper

theorem Proper.push {d : Divided} {token : Token} (proper : d.Proper) (new : token.Proper) :
    (d.push token).Proper := by
  intro other mem
  rcases List.mem_cons.mp mem with rfl | mem
  · exact new
  · exact proper other mem

theorem ends_scanQuotedToken (double : Bool) (c : Cursor) :
    Ends (fun read => read.1.Proper) Indivisible (scanQuotedToken double c) := by
  unfold scanQuotedToken
  grind [ends_scanQuoted]

theorem ends_giveUp (key : Option PossibleKey) : Ends (fun _ => True) Indivisible (giveUp key) := by
  unfold giveUp
  grind

theorem ends_dropKey {d : Divided} (proper : d.Proper) : Ends Proper Indivisible d.dropKey := by
  unfold dropKey
  grind [ends_giveUp]

theorem ends_dropIfStale (c : Cursor) (key : Option PossibleKey) :
    Ends (fun _ => True) Indivisible (dropIfStale c key) := by
  unfold dropIfStale
  grind [ends_giveUp]

theorem ends_dropStaleKeys {d : Divided} (proper : d.Proper) :
    Ends Proper Indivisible d.dropStaleKeys := by
  unfold dropStaleKeys
  have each : Ends (fun _ => True) Indivisible (d.outerKeys.mapM (dropIfStale d.cursor)) :=
    .mapM_any fun key _ => ends_dropIfStale d.cursor key
  grind [ends_dropIfStale]

theorem ends_saveKey {d : Divided} (proper : d.Proper) : Ends Proper Indivisible d.saveKey := by
  unfold saveKey
  grind [ends_dropKey, Ends.bind]

theorem Proper.closeBlocks {d : Divided} (proper : d.Proper) (test : Nat → Bool) :
    (d.closeBlocks test).Proper := by
  unfold Divided.closeBlocks
  grind

theorem Proper.openBlock {d : Divided} {token : Token} (proper : d.Proper) (new : token.Proper) :
    (d.openBlock token).Proper := by
  unfold Divided.openBlock
  grind [Proper.push]

theorem Proper.insert {d : Divided} {tokens : List Token} (proper : d.Proper) (position : Nat)
    (new : ∀ token ∈ tokens, token.Proper) : (d.insert position tokens).Proper := by
  unfold Divided.insert
  grind

theorem Proper.toNextToken {d : Divided} (proper : d.Proper) (fuel : Nat) :
    (toNextToken fuel d).Proper := by
  fun_induction Divided.toNextToken fuel d <;> grind

theorem ends_takeBetween {d : Divided} {scan : Scan Token} (proper : d.Proper)
    (scanned : ∀ c, Ends (fun read => read.1.Proper) Indivisible (scan c)) :
    Ends Proper Indivisible (d.takeBetween scan) := by
  unfold takeBetween
  refine (ends_dropKey (proper.closeBlocks _)).bind fun d proper => ?_
  refine (scanned d.cursor).bind fun read new => ?_
  exact Proper.push proper new

theorem ends_openFlow {d : Divided} {token : Token} (proper : d.Proper) (new : token.Proper) :
    Ends Proper Indivisible (d.openFlow token) := by
  unfold openFlow
  refine (ends_saveKey proper).bind fun d proper => ?_
  exact Proper.push proper new

theorem ends_closeFlow {d : Divided} {token : Token} (proper : d.Proper) (new : token.Proper) :
    Ends Proper Indivisible (d.closeFlow token) := by
  unfold closeFlow
  split
  · exact ends_malformed
  · exact Proper.push proper new

theorem ends_takeMark {d : Divided} {token : Token} (proper : d.Proper) (new : token.Proper)
    (keyAllowed : Bool) : Ends Proper Indivisible (d.takeMark token keyAllowed) := by
  unfold takeMark
  refine (ends_dropKey proper).bind fun d proper => ?_
  exact Proper.push proper new

theorem ends_takeBlockMark {d : Divided} {start token : Token} (proper : d.Proper)
    (opening : start.Proper) (new : token.Proper) (keyAllowed : Bool) :
    Ends Proper Indivisible (d.takeBlockMark start token keyAllowed) := by
  unfold takeBlockMark
  split
  · exact ends_takeMark proper new keyAllowed
  · split
    · exact ends_takeMark (proper.openBlock opening) new keyAllowed
    · exact ends_malformed

theorem ends_takeColon {d : Divided} (proper : d.Proper) :
    Ends Proper Indivisible d.takeColon := by
  unfold takeColon
  split
  · refine Proper.push ?_ trivial
    refine Proper.insert proper _ ?_
    split <;> simp [Token.Proper]
  · exact ends_takeBlockMark proper (by trivial) (by trivial) _

theorem ends_takeKeyable {d : Divided} {scan : Scan Token} (proper : d.Proper)
    (scanned : ∀ c, Ends (fun read => read.1.Proper) Indivisible (scan c)) :
    Ends Proper Indivisible (d.takeKeyable scan) := by
  unfold takeKeyable
  refine (ends_saveKey proper).bind fun d proper => ?_
  refine (scanned d.cursor).bind fun read new => ?_
  exact Proper.push proper new

theorem ends_takeBlockScalar {d : Divided} (proper : d.Proper) (folded : Bool) :
    Ends Proper Indivisible (d.takeBlockScalar folded) := by
  unfold takeBlockScalar
  refine (ends_dropKey proper).bind fun d proper => ?_
  refine (ends_scanBlockScalar _ folded d.cursor).bind fun read new => ?_
  exact Proper.push proper new

theorem ends_takePlain {d : Divided} (proper : d.Proper) : Ends Proper Indivisible d.takePlain := by
  unfold takePlain
  refine (ends_saveKey proper).bind fun d proper => ?_
  exact Proper.push proper trivial

theorem ends_takeToken {d : Divided} (proper : d.Proper) :
    Ends Proper Indivisible d.takeToken := by
  have name (kind : String → Token) (new : ∀ name, (kind name).Proper) (c : Cursor) :
      Ends (fun read => read.1.Proper) Indivisible
        ((scanName c).map fun read => (kind read.1, read.2)) :=
    ends_map.mpr ((ends_scanName c).mono (fun read _ => new read.1) fun _ => id)
  unfold takeToken
  refine .ite (ends_takeBetween proper ends_scanDirective) ?_
  refine .ite (ends_takeBetween proper fun c => trivial) ?_
  refine .ite (ends_takeBetween proper fun c => trivial) ?_
  refine .ite (ends_openFlow proper trivial) ?_
  refine .ite (ends_openFlow proper trivial) ?_
  refine .ite (ends_closeFlow proper trivial) ?_
  refine .ite (ends_closeFlow proper trivial) ?_
  refine .ite (ends_takeMark proper (by trivial) _) ?_
  refine .ite (ends_takeBlockMark proper (by trivial) (by trivial) _) ?_
  refine .ite (ends_takeBlockMark proper (by trivial) (by trivial) _) ?_
  refine .ite (ends_takeColon proper) ?_
  refine .ite (ends_takeKeyable proper (name .alias fun _ => trivial)) ?_
  refine .ite (ends_takeKeyable proper (name .anchor fun _ => trivial)) ?_
  refine .ite (ends_takeKeyable proper ends_scanTag) ?_
  refine .ite (ends_takeBlockScalar proper false) ?_
  refine .ite (ends_takeBlockScalar proper true) ?_
  refine .ite (ends_takeKeyable proper (ends_scanQuotedToken false)) ?_
  refine .ite (ends_takeKeyable proper (ends_scanQuotedToken true)) ?_
  exact .ite (ends_takePlain proper) ends_malformed

theorem ends_advance {d : Divided} (proper : d.Proper) : Ends Proper Indivisible d.advance := by
  unfold advance
  refine (ends_dropStaleKeys (proper.toNextToken _)).bind fun d proper => ?_
  exact proper.closeBlocks _

theorem Proper.certain {d : Divided} (proper : d.Proper) {fault : Fault}
    (indivisible : Indivisible fault) : ∀ token ∈ d.certain ++ [.broken fault], token.Proper := by
  intro token mem
  rcases List.mem_append.mp mem with certain | last
  · exact proper token (List.mem_reverse.mp (List.mem_of_mem_take certain))
  · cases List.mem_singleton.mp last
    exact indivisible

/-- A step keeps the tokens proper, those of an unfinished text and those of a finished one. -/
theorem proper_step {d : Divided} (proper : d.Proper) :
    d.step.elim (fun tokens => ∀ token ∈ tokens, token.Proper) Proper := by
  unfold step
  split
  · rename_i fault failed
    exact proper.certain ((ends_advance proper).of_error failed)
  · rename_i further advanced
    have here : further.Proper := (ends_advance proper).of_ok advanced
    split
    · have closed := here.closeBlocks fun _ => true
      dsimp only
      split
      · rename_i fault failed
        exact closed.certain ((ends_dropKey closed).of_error failed)
      · rename_i last dropped
        have proper : last.Proper := (ends_dropKey closed).of_ok dropped
        intro token mem
        rcases List.mem_append.mp mem with before | ended
        · exact proper token (List.mem_reverse.mp before)
        · cases List.mem_singleton.mp ended
          trivial
    · split
      · rename_i fault failed
        exact here.certain ((ends_takeToken here).of_error failed)
      · rename_i next taken
        exact (ends_takeToken here).of_ok taken

theorem proper_run {d : Divided} (proper : d.Proper) (fuel : Nat) :
    ∀ token ∈ run fuel d, token.Proper := by
  induction fuel generalizing d with
  | zero => exact fun token mem => proper token (List.mem_reverse.mp mem)
  | succ fuel ih =>
    have next := proper_step proper
    rw [run]
    cases stepped : d.step with
    | inl tokens =>
      rw [stepped] at next
      exact next
    | inr further =>
      rw [stepped] at next
      exact ih next

end Divided

/-- Where a document cannot be divided, it is for a fault of the text. -/
theorem proper_tokens (text : List Char) : ∀ token ∈ tokens text, token.Proper := by
  unfold tokens
  split
  · exact Divided.proper_run (fun token mem => absurd mem List.not_mem_nil) _
  · intro token mem
    cases List.mem_singleton.mp mem
    exact .malformed

/-! ## Nodes -/

namespace Reading

/-- What is left to read is proper. -/
@[grind]
def Proper (r : Reading) : Prop :=
  ∀ token ∈ r.rest, token.Proper

@[grind →]
theorem Proper.next {r : Reading} (proper : r.Proper) : r.next.Proper :=
  fun token mem => proper token (List.mem_of_mem_drop mem)

theorem Proper.name {r : Reading} (proper : r.Proper) (anchor : Option String) (node : Node) :
    (r.name anchor node).Proper := by
  unfold Reading.name
  split <;> exact proper

theorem ends_peek {r : Reading} (proper : r.Proper) : Ends (fun _ => True) Indivisible r.peek := by
  unfold peek
  split
  · rename_i fault rest left
    have here : Token.broken fault ∈ r.rest := left ▸ List.mem_cons_self
    exact proper _ here
  · trivial
  · trivial

theorem ends_nextIn {r : Reading} (proper : r.Proper) (tokens : List Token) :
    Ends (fun _ => True) Indivisible (r.nextIn tokens) := by
  unfold nextIn
  grind [ends_peek]

theorem ends_expect {r : Reading} (proper : r.Proper) (token : Token) :
    Ends Proper Indivisible (r.expect token) := by
  unfold expect
  grind [ends_peek]

theorem ends_takeAnchor {r : Reading} (proper : r.Proper) :
    Ends (fun read => read.2.Proper) Indivisible r.takeAnchor := by
  unfold takeAnchor
  grind [ends_peek]

theorem ends_takeTag {r : Reading} (proper : r.Proper) :
    Ends (fun read => read.2.Proper) Indivisible r.takeTag := by
  unfold takeTag
  grind [ends_peek]

theorem ends_takeProperties {r : Reading} (proper : r.Proper) :
    Ends (fun read => read.2.Proper) Indivisible r.takeProperties := by
  unfold takeProperties
  refine (ends_takeAnchor proper).bind fun read proper => ?_
  split
  · refine (ends_takeTag proper).bind fun read proper => ?_
    exact proper
  · refine (ends_takeTag proper).bind fun read proper => ?_
    split
    · refine (ends_takeAnchor proper).bind fun read proper => ?_
      exact proper
    · exact proper

end Reading

/-- Whatever a function reads, it leaves proper tokens and fails for a fault of the text. -/
def ReadsProperly {α : Type} (read : Read α) : Prop :=
  ∀ r : Reading, r.Proper → Ends (fun done => done.2.Proper) Indivisible (read r)

/-- All functions that read nodes read properly with some fuel. -/
structure AllReadProperly (fuel : Nat) : Prop where
  node (inBlock unindented : Bool) : ReadsProperly (readNode inBlock unindented fuel)
  nodeUnless (tokens : List Token) (inBlock unindented : Bool) :
    ReadsProperly (readUnless tokens inBlock unindented fuel)
  blockItems : ReadsProperly (readBlockItems fuel)
  unindented : ReadsProperly (readUnindented fuel)
  blockEntries : ReadsProperly (readBlockEntries fuel)
  flowItems (isFirst : Bool) : ReadsProperly (readFlowItems isFirst fuel)
  flowEntries (isFirst : Bool) : ReadsProperly (readFlowEntries isFirst fuel)

section

variable {fuel : Nat} (ih : AllReadProperly fuel)
include ih

theorem AllReadProperly.readUnless (tokens : List Token) (inBlock unindented : Bool) :
    ReadsProperly (readUnless tokens inBlock unindented (fuel + 1)) := by
  intro r proper
  rw [Yaml.readUnless]
  refine (Reading.ends_nextIn proper tokens).bind_any fun here => .ite proper ?_
  exact ih.node inBlock unindented r proper

theorem AllReadProperly.readBlockItems : ReadsProperly (readBlockItems (fuel + 1)) := by
  intro r proper
  rw [Yaml.readBlockItems]
  refine (Reading.ends_nextIn proper _).bind_any fun here => .ite ?_ ?_
  · refine (ih.nodeUnless _ _ _ _ proper.next).bind fun item proper => ?_
    exact (ih.blockItems _ proper).bind fun items proper => proper
  · exact (Reading.ends_expect proper _).bind fun r proper => proper

theorem AllReadProperly.readUnindented : ReadsProperly (readUnindented (fuel + 1)) := by
  intro r proper
  rw [Yaml.readUnindented]
  refine (Reading.ends_nextIn proper _).bind_any fun here => .ite ?_ proper
  refine (ih.nodeUnless _ _ _ _ proper.next).bind fun item proper => ?_
  exact (ih.unindented _ proper).bind fun items proper => proper

theorem AllReadProperly.readBlockEntries : ReadsProperly (readBlockEntries (fuel + 1)) := by
  intro r proper
  rw [Yaml.readBlockEntries]
  refine (Reading.ends_nextIn proper _).bind_any fun here => .ite ?_ ?_
  · refine (ih.nodeUnless _ _ _ _ proper.next).bind fun key proper => ?_
    refine (Reading.ends_nextIn proper _).bind_any fun marked => ?_
    refine .choice (ih.nodeUnless _ _ _ _ proper.next) ((ends_pure _).mpr proper) ?_
    intro value proper
    exact (ih.blockEntries _ proper).bind fun entries proper => proper
  · exact (Reading.ends_expect proper _).bind fun r proper => proper

theorem AllReadProperly.readFlowItems (isFirst : Bool) :
    ReadsProperly (readFlowItems isFirst (fuel + 1)) := by
  intro r proper
  have more (item : Node) {r : Reading} (proper : r.Proper) :
      Ends (fun done => done.2.Proper) Indivisible (do
        let read ← Yaml.readFlowItems false fuel r
        return (item :: read.1, read.2)) :=
    (ih.flowItems _ _ proper).bind fun items proper => proper
  rw [Yaml.readFlowItems]
  refine (Reading.ends_nextIn proper _).bind_any fun ended => .ite proper.next ?_
  refine .choice ((ends_pure r).mpr proper) (Reading.ends_expect proper _) fun r proper => ?_
  refine (Reading.ends_nextIn proper _).bind_any fun ended => .ite proper.next ?_
  refine (Reading.ends_nextIn proper _).bind_any fun keyed => .ite ?_ ?_
  · refine (ih.nodeUnless _ _ _ _ proper.next).bind fun key proper => ?_
    refine (Reading.ends_nextIn proper _).bind_any fun marked => ?_
    refine .choice (ih.nodeUnless _ _ _ _ proper.next) ((ends_pure _).mpr proper) ?_
    intro value proper
    exact more _ proper
  · exact (ih.node _ _ _ proper).bind fun item proper => more _ proper

theorem AllReadProperly.readFlowEntries (isFirst : Bool) :
    ReadsProperly (readFlowEntries isFirst (fuel + 1)) := by
  intro r proper
  have more (entry : Node × Node) {r : Reading} (proper : r.Proper) :
      Ends (fun done => done.2.Proper) Indivisible (do
        let read ← Yaml.readFlowEntries false fuel r
        return (entry :: read.1, read.2)) :=
    (ih.flowEntries _ _ proper).bind fun entries proper => proper
  rw [Yaml.readFlowEntries]
  refine (Reading.ends_nextIn proper _).bind_any fun ended => .ite proper.next ?_
  refine .choice ((ends_pure r).mpr proper) (Reading.ends_expect proper _) fun r proper => ?_
  refine (Reading.ends_nextIn proper _).bind_any fun ended => .ite proper.next ?_
  refine (Reading.ends_nextIn proper _).bind_any fun keyed => .ite ?_ ?_
  · refine (ih.nodeUnless _ _ _ _ proper.next).bind fun key proper => ?_
    refine (Reading.ends_nextIn proper _).bind_any fun marked => ?_
    refine .choice (ih.nodeUnless _ _ _ _ proper.next) ((ends_pure _).mpr proper) ?_
    intro value proper
    exact more _ proper
  · exact (ih.node _ _ _ proper).bind fun key proper => more _ proper

theorem AllReadProperly.readNode (inBlock unindented : Bool) :
    ReadsProperly (readNode inBlock unindented (fuel + 1)) := by
  intro r proper
  rw [Yaml.readNode]
  refine (Reading.ends_peek proper).bind_any fun token => ?_
  split
  · split
    · exact proper.next
    · exact ends_malformed
  · refine (Reading.ends_takeProperties proper).bind fun properties proper => ?_
    rcases properties with ⟨⟨anchor, tag⟩, r⟩
    have enter (isMapping : Bool) : Ends Reading.Proper Indivisible
        (if anchor.any fun anchor => (r.anchors.lookup anchor).isSome then malformed
        else .ok (r.name anchor (.enclosing isMapping))) :=
      .ite ends_malformed (proper.name anchor _)
    refine (Reading.ends_peek proper).bind_any fun token => .ite ?_ ?_
    · refine (enter false).bind fun r proper => ?_
      exact (ih.unindented _ proper).bind fun items proper => proper.name anchor _
    · split
      · exact (enter false).bind fun r proper => proper.next.name anchor _
      · refine (enter false).bind fun r proper => ?_
        exact (ih.flowItems _ _ proper.next).bind fun items proper => proper.name anchor _
      · refine (enter true).bind fun r proper => ?_
        exact (ih.flowEntries _ _ proper.next).bind fun entries proper => proper.name anchor _
      · refine .ite ends_malformed ((enter false).bind fun r proper => ?_)
        exact (ih.blockItems _ proper.next).bind fun items proper => proper.name anchor _
      · refine .ite ends_malformed ((enter true).bind fun r proper => ?_)
        exact (ih.blockEntries _ proper.next).bind fun entries proper => proper.name anchor _
      · refine .ite ?_ ends_malformed
        exact (enter false).bind fun r proper => proper.name anchor _

end

theorem allReadProperly (fuel : Nat) : AllReadProperly fuel := by
  induction fuel with
  | zero => constructor <;> intros <;> intro r proper <;> exact ends_malformed
  | succ fuel ih =>
    exact {
      node := ih.readNode
      nodeUnless := ih.readUnless
      blockItems := ih.readBlockItems
      unindented := ih.readUnindented
      blockEntries := ih.readBlockEntries
      flowItems := ih.readFlowItems
      flowEntries := ih.readFlowEntries }

theorem ends_readDirectives {tokens : List Token} (proper : ∀ token ∈ tokens, token.Proper)
    (versionSeen : Bool) (handles : List (String × String)) :
    Ends (fun read => ∀ token ∈ read.2, token.Proper) Indivisible
      (readDirectives versionSeen handles tokens) := by
  fun_induction readDirectives versionSeen handles tokens <;> grind

theorem ends_readContent {r : Reading} (proper : r.Proper) :
    Ends (fun read => read.2.Proper) Indivisible (readContent r) := by
  unfold readContent
  refine (Reading.ends_peek proper).bind_any fun token => ?_
  split
  · exact proper
  · exact proper
  · exact proper
  · exact proper
  · exact (allReadProperly _).node _ _ r proper

/-- Nothing but ends of documents may follow the only one. -/
theorem ends_only (root : Node) {r : Reading} (proper : r.Proper) :
    Ends (fun _ => True) Indivisible (do
      let after : Reading := { r with rest := r.rest.dropWhile (· == .documentEnd) }
      if (← after.peek) = .streamEnd then return some root else malformed) := by
  have left : Reading.Proper { r with rest := r.rest.dropWhile (· == .documentEnd) } :=
    fun token mem => proper token ((List.dropWhile_sublist _).subset mem)
  exact (Reading.ends_peek left).bind_any fun last => .ite trivial ends_malformed

theorem ends_readRoot {tokens : List Token} (proper : ∀ token ∈ tokens, token.Proper) :
    Ends (fun _ => True) Indivisible (readRoot tokens) := by
  have whole : Reading.Proper { rest := tokens, handles := standardHandles } := proper
  unfold readRoot
  refine (Reading.ends_peek whole).bind_any fun first => .ite trivial ?_
  split
  case h_3 =>
    refine ((allReadProperly _).node _ _ _ whole).bind fun root proper => ?_
    exact ends_only root.1 proper
  all_goals
    refine (ends_readDirectives proper _ _).bind fun directives proper => ?_
    have read : Reading.Proper
        { rest := directives.2, handles := directives.1 ++ standardHandles } := proper
    refine (Reading.ends_expect read _).bind fun r proper => ?_
    exact (ends_readContent proper).bind fun root proper => ends_only root.1 proper

theorem ends_nodeOfText (text : List Char) : Ends (fun _ => True) Indivisible (nodeOfText text) :=
  ends_readRoot (proper_tokens text)

end Yaml
end Consignment
