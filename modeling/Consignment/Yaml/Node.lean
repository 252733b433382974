import Consignment.Yaml.Tag
import Consignment.Yaml.Tokens

namespace Consignment
namespace Yaml

/-!
# Nodes of a document

A document is one node.  A node is a scalar, a sequence or a mapping, each with a tag;
an alias is the node that its anchor is before, and where that node is still open, a
reference to it.

The tokens are read from the front, one node at a time.  Every function returns what
is left of the tokens and the anchors it has met.  Fuel counts calls; a call for a node
or an item takes a token at least or is the last before one that does, so twice the
number of tokens is enough.
-/

inductive Node where
  | scalar (tag : Tag) (text : List Char)
  | sequence (tag : Tag) (items : List Node)
  | mapping (tag : Tag) (entries : List (Node × Node))
  /-- A sequence or mapping that is still open here. -/
  | enclosing (isMapping : Bool)
  deriving Inhabited

namespace Node

/-- A node without any text. -/
def empty : Node :=
  .scalar .null []

end Node

/-- What is left to read. -/
structure Reading where
  rest : List Token
  /-- The nodes with anchors, those that are still open as references. -/
  anchors : List (String × Node) := []
  /-- The texts that handles of tags stand for. -/
  handles : List (String × String)

namespace Reading

/-- The next token.  Where the text cannot be divided any further, its fault counts. -/
def peek (r : Reading) : Except Fault Token :=
  match r.rest with
  | .broken fault :: _ => .error fault
  | token :: _ => .ok token
  | [] => .ok .streamEnd

def next (r : Reading) : Reading :=
  { r with rest := r.rest.drop 1 }

/-- Whether one of some tokens is next. -/
def nextIn (r : Reading) (tokens : List Token) : Except Fault Bool := do
  return tokens.contains (← r.peek)

def expect (r : Reading) (token : Token) : Except Fault Reading := do
  if (← r.peek) = token then return r.next else malformed

def name (r : Reading) (anchor : Option String) (node : Node) : Reading :=
  match anchor with
  | none => r
  | some anchor => { r with anchors := (anchor, node) :: r.anchors }

def takeAnchor (r : Reading) : Except Fault (Option String × Reading) := do
  match ← r.peek with
  | .anchor anchor => return (some anchor, r.next)
  | _ => return (none, r)

/-- The tag before a node as its full name, if there is one. -/
def takeTag (r : Reading) : Except Fault (Option String × Reading) := do
  match ← r.peek with
  | .tag none text => return (some text, r.next)
  | .tag (some handle) text =>
    match r.handles.lookup handle with
    | some expansion => return (some (expansion ++ text), r.next)
    | none => malformed
  | _ => return (none, r)

/-- The properties before a node, in either order. -/
def takeProperties (r : Reading) : Except Fault ((Option String × Option String) × Reading) := do
  match ← r.takeAnchor with
  | (some anchor, r) =>
    let (tag, r) ← r.takeTag
    return ((some anchor, tag), r)
  | (none, r) =>
    match ← r.takeTag with
    | (some tag, r) =>
      let (anchor, r) ← r.takeAnchor
      return ((anchor, some tag), r)
    | (none, r) => return ((none, none), r)

end Reading

/-- The tag of a node that has a written one, unless it is the mark alone. -/
def writtenTag? (tag : Option String) : Option Tag :=
  match tag with
  | none | some "!" => none
  | some name => some (Tag.ofText name)

/-- The tag of a scalar.  A mark alone asks for the tag of the text even where the
scalar is not plain. -/
def scalarTag (tag : Option String) (text : List Char) (isPlain : Bool) : Tag :=
  match writtenTag? tag with
  | some tag => tag
  | none => if isPlain || tag.isSome then implicitTag text else .text

abbrev Read (α : Type) := Reading → Except Fault (α × Reading)

mutual

/-- A node.  Inside brackets no block can start; the value of a key can be a sequence
that is not indented. -/
def readNode (inBlock unindented : Bool) : Nat → Read Node
  | 0, _ => malformed
  | fuel + 1, r => do
    if let .alias anchor ← r.peek then
      match r.anchors.lookup anchor with
      | some node => return (node, r.next)
      | none => malformed
    else
      let ((anchor, tag), r) ← r.takeProperties
      let close (node : Node) (r : Reading) : Except Fault (Node × Reading) :=
        .ok (node, r.name anchor node)
      let enter (isMapping : Bool) (r : Reading) : Except Fault Reading :=
        if anchor.any fun anchor => (r.anchors.lookup anchor).isSome then malformed
        else .ok (r.name anchor (.enclosing isMapping))
      let sequence (items : List Node) : Node := .sequence ((writtenTag? tag).getD .sequence) items
      let mapping (entries : List (Node × Node)) : Node :=
        .mapping ((writtenTag? tag).getD .mapping) entries
      let token ← r.peek
      if unindented && token = .blockEntry then
        let (items, r) ← readUnindented fuel (← enter false r)
        close (sequence items) r
      else
        match token with
        | .scalar text isPlain =>
          let r ← enter false r
          close (.scalar (scalarTag tag text isPlain) text) r.next
        | .flowSequenceStart =>
          let (items, r) ← readFlowItems true fuel (← enter false r).next
          close (sequence items) r
        | .flowMappingStart =>
          let (entries, r) ← readFlowEntries true fuel (← enter true r).next
          close (mapping entries) r
        | .blockSequenceStart =>
          if !inBlock then malformed
          let (items, r) ← readBlockItems fuel (← enter false r).next
          close (sequence items) r
        | .blockMappingStart =>
          if !inBlock then malformed
          let (entries, r) ← readBlockEntries fuel (← enter true r).next
          close (mapping entries) r
        | _ =>
          if anchor.isSome || tag.isSome then
            let r ← enter false r
            close (.scalar ((writtenTag? tag).getD .null) []) r
          else malformed

/-- A node, or an empty one where one of some tokens is next. -/
def readUnless (tokens : List Token) (inBlock unindented : Bool) : Nat → Read Node
  | 0, _ => malformed
  | fuel + 1, r => do
    if ← r.nextIn tokens then return (.empty, r) else readNode inBlock unindented fuel r

def readBlockItems : Nat → Read (List Node)
  | 0, _ => malformed
  | fuel + 1, r => do
    if ← r.nextIn [.blockEntry] then
      let (item, r) ← readUnless [.blockEntry, .blockEnd] true false fuel r.next
      let (items, r) ← readBlockItems fuel r
      return (item :: items, r)
    else return ([], ← r.expect .blockEnd)

/-- The items of a sequence that is not indented. -/
def readUnindented : Nat → Read (List Node)
  | 0, _ => malformed
  | fuel + 1, r => do
    if ← r.nextIn [.blockEntry] then
      let (item, r) ← readUnless [.blockEntry, .key, .value, .blockEnd] true false fuel r.next
      let (items, r) ← readUnindented fuel r
      return (item :: items, r)
    else return ([], r)

def readBlockEntries : Nat → Read (List (Node × Node))
  | 0, _ => malformed
  | fuel + 1, r => do
    if ← r.nextIn [.key] then
      let (key, r) ← readUnless [.key, .value, .blockEnd] true true fuel r.next
      let (value, r) ←
        if ← r.nextIn [.value] then readUnless [.key, .value, .blockEnd] true true fuel r.next
        else pure (.empty, r)
      let (entries, r) ← readBlockEntries fuel r
      return ((key, value) :: entries, r)
    else return ([], ← r.expect .blockEnd)

/-- The items of a sequence in brackets, and its end.  An item with a colon is a mapping
of a single entry. -/
def readFlowItems (isFirst : Bool) : Nat → Read (List Node)
  | 0, _ => malformed
  | fuel + 1, r => do
    if ← r.nextIn [.flowSequenceEnd] then return ([], r.next)
    let r ← if isFirst then pure r else r.expect .flowEntry
    if ← r.nextIn [.flowSequenceEnd] then return ([], r.next)
    let (item, r) ←
      if ← r.nextIn [.key] then
        let (key, r) ← readUnless [.value, .flowEntry, .flowSequenceEnd] false false fuel r.next
        let (value, r) ←
          if ← r.nextIn [.value] then
            readUnless [.flowEntry, .flowSequenceEnd] false false fuel r.next
          else pure (.empty, r)
        pure (Node.mapping .mapping [(key, value)], r)
      else readNode false false fuel r
    let (items, r) ← readFlowItems false fuel r
    return (item :: items, r)

/-- The entries of a mapping in brackets, and its end.  A key without a colon has an
empty value. -/
def readFlowEntries (isFirst : Bool) : Nat → Read (List (Node × Node))
  | 0, _ => malformed
  | fuel + 1, r => do
    if ← r.nextIn [.flowMappingEnd] then return ([], r.next)
    let r ← if isFirst then pure r else r.expect .flowEntry
    if ← r.nextIn [.flowMappingEnd] then return ([], r.next)
    let (entry, r) ←
      if ← r.nextIn [.key] then
        let (key, r) ← readUnless [.value, .flowEntry, .flowMappingEnd] false false fuel r.next
        let (value, r) ←
          if ← r.nextIn [.value] then
            readUnless [.flowEntry, .flowMappingEnd] false false fuel r.next
          else pure (.empty, r)
        pure ((key, value), r)
      else
        let (key, r) ← readNode false false fuel r
        pure ((key, Node.empty), r)
    let (entries, r) ← readFlowEntries false fuel r
    return (entry :: entries, r)

end

/-- The handles that every document knows. -/
def standardHandles : List (String × String) := [("!", "!"), ("!!", Tag.standardSpace)]

/-- The directives before a document: at most one version, which has to be the first,
and at most one text for a handle. -/
def readDirectives (versionSeen : Bool) (handles : List (String × String)) :
    List Token → Except Fault (List (String × String) × List Token)
  | .directive (.version major _) :: rest =>
    if versionSeen || major != 1 then malformed else readDirectives true handles rest
  | .directive (.handle handle expansion) :: rest =>
    if (handles.lookup handle).isSome then malformed
    else readDirectives versionSeen ((handle, expansion) :: handles) rest
  | .directive .other :: rest => readDirectives versionSeen handles rest
  | rest => .ok (handles, rest)

/-- The root of a document after its start mark. -/
def readContent (r : Reading) : Except Fault (Node × Reading) := do
  match ← r.peek with
  | .directive _ | .documentStart | .documentEnd | .streamEnd => return (.empty, r)
  | _ => readNode true false (2 * r.rest.length + 2) r

/-- The root of the only document, none when there is no document. -/
def readRoot (tokens : List Token) : Except Fault (Option Node) := do
  let r : Reading := { rest := tokens, handles := standardHandles }
  let first ← r.peek
  if first = .streamEnd then return none
  let (root, r) ←
    match first with
    | .directive _ | .documentStart => do
      let (handles, rest) ← readDirectives false [] tokens
      let r : Reading := { rest, handles := handles ++ standardHandles }
      readContent (← r.expect .documentStart)
    | _ => readNode true false (2 * tokens.length + 2) r
  let after : Reading := { r with rest := r.rest.dropWhile (· == .documentEnd) }
  if (← after.peek) = .streamEnd then return some root else malformed

/-- The root of the document that a text is, none for a text without any. -/
def nodeOfText (text : List Char) : Except Fault (Option Node) :=
  readRoot (tokens text)

end Yaml
end Consignment
