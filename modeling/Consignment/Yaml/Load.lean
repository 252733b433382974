import Consignment.Yaml.Node
import Consignment.Yaml.Scalar

namespace Consignment
namespace Yaml

/-!
# The value of a document

A mapping takes up the entries of the mappings that its merge key names; they stand
before its own, so that its own win.  A key that stands for the value of a mapping is
an ordinary name outside scalars.

Lists and mappings are made first and filled later: what is directly inside the root,
then what is directly inside those, and so on.  The order shows where a document has
several faults, because the first fault on the way counts: `check` goes that way, and
`valueOf` needs no particular order.
-/

/-- Where a node stands directly inside a collection. -/
inductive Part where
  | item (node : Node)
  /-- The key of a mapping, which must not change. -/
  | key (node : Node)
  /-- Something that cannot stand there. -/
  | misplaced

/-- The text of a scalar, or of the one that a mapping stands for. -/
def scalarText : Node → Except Fault (List Char)
  | .scalar _ text => .ok text
  | .mapping _ entries =>
    let rec find : List (Node × Node) → Except Fault (List Char)
      | [] => malformed
      | (.scalar .value _, value) :: _ => scalarText value
      | _ :: rest => find rest
    find entries
  | _ => malformed

def nodeTag : Node → Tag
  | .scalar tag _ | .sequence tag _ | .mapping tag _ => tag
  | .enclosing isMapping => if isMapping then .mapping else .sequence

/-- The value of a node that is no collection.  A point in time is read off the node itself,
so no mapping stands for one. -/
def singleValue (node : Node) : Except Fault Value := do
  let text ← scalarText node
  match node with
  | .mapping .timestamp _ => .error (.kindAsText "list")
  | _ => scalarValue (nodeTag node) text

mutual

/-- The entries of a mapping with those that it takes up.  Of the mappings in a list
the first one's entries come last, so that they win. -/
def flattened : List (Node × Node) → Except Fault (List (Node × Node) × List (Node × Node))
  | [] => .ok ([], [])
  | (.scalar .merge _, value) :: rest => do
    let taken ← entriesTaken value
    let (more, own) ← flattened rest
    return (taken ++ more, own)
  | (.scalar .value text, value) :: rest => do
    let (taken, own) ← flattened rest
    return (taken, (.scalar .text text, value) :: own)
  | entry :: rest => do
    let (taken, own) ← flattened rest
    return (taken, entry :: own)

/-- The entries that a mapping takes up from a node. -/
def entriesTaken : Node → Except Fault (List (Node × Node))
  | .mapping _ entries => do
    let (taken, own) ← flattened entries
    return taken ++ own
  | .sequence _ items => entriesOfItems items
  | .enclosing true => .ok []
  | .enclosing false | .scalar _ _ => malformed

/-- The entries that a mapping takes up from a list of mappings. -/
def entriesOfItems : List Node → Except Fault (List (Node × Node))
  | [] => .ok []
  | .mapping _ entries :: rest => do
    let (taken, own) ← flattened entries
    let more ← entriesOfItems rest
    return more ++ (taken ++ own)
  | .enclosing true :: rest => entriesOfItems rest
  | _ :: _ => malformed

end

/-- The entries of a mapping, those that it takes up first. -/
def allEntries (entries : List (Node × Node)) : Except Fault (List (Node × Node)) := do
  let (taken, own) ← flattened entries
  return taken ++ own

/-- The parts of a list of single entries. -/
def pairParts : List Node → List Part
  | [] => []
  | .mapping _ [(key, value)] :: rest => .item key :: .item value :: pairParts rest
  | _ :: _ => [.misplaced]

def isCollection : Tag → Bool
  | .sequence | .mapping | .set | .orderedPairs | .pairs => true
  | _ => false

/-- What stands directly inside a collection, in the order in which it is filled. -/
def parts (node : Node) : Except Fault (List Part) :=
  match nodeTag node, node with
  | _, .enclosing _ => .ok []
  | .sequence, .sequence _ items => .ok (items.map .item)
  | .orderedPairs, .sequence _ items | .pairs, .sequence _ items => .ok (pairParts items)
  | .mapping, .mapping _ entries | .set, .mapping _ entries => do
    return (← allEntries entries).flatMap fun entry => [.key entry.1, .item entry.2]
  | _, _ => malformed

/-- What has to be filled later of some parts, or the first fault of the others. -/
def later : List Part → Except Fault (List Node)
  | [] => .ok []
  | .misplaced :: _ => malformed
  | .key node :: rest => do
    if isCollection (nodeTag node) then malformed
    let _ ← singleValue node
    later rest
  | .item node :: rest => do
    if isCollection (nodeTag node) then return node :: (← later rest)
    else
      let _ ← singleValue node
      later rest

/-- What has to be filled after some collections. -/
def laterOfAll : List Node → Except Fault (List Node)
  | [] => .ok []
  | node :: rest => do
    let first ← later (← parts node)
    return first ++ (← laterOfAll rest)

/-- Fill collections round by round until nothing is left.  A round goes one level
deeper, so the depth of the document is enough fuel. -/
def checkRounds : Nat → List Node → Except Fault Unit
  | _, [] => .ok ()
  | 0, _ => .ok ()
  | fuel + 1, nodes => do checkRounds fuel (← laterOfAll nodes)

mutual

/-- How deep collections stand inside each other. -/
def depth : Node → Nat
  | .scalar _ _ | .enclosing _ => 0
  | .sequence _ items => depthOfItems items + 1
  | .mapping _ entries => depthOfEntries entries + 1

def depthOfItems : List Node → Nat
  | [] => 0
  | node :: rest => max (depth node) (depthOfItems rest)

def depthOfEntries : List (Node × Node) → Nat
  | [] => 0
  | (key, value) :: rest => max (max (depth key) (depth value)) (depthOfEntries rest)

end

/-- The first fault on the way through a document. -/
def check (node : Node) : Except Fault Unit := do
  checkRounds (depth node + 1) (← later [.item node])

/-- The pairs of a list of single entries, once each part has its value. -/
def pairsOf : List Value → List Value
  | key :: value :: rest => .pair key value :: pairsOf rest
  | _ => []

/-- The entries of a mapping, once each part has its value. -/
def entriesOf : List Value → List (Value × Value)
  | key :: value :: rest => (key, value) :: entriesOf rest
  | _ => []

/-- The value of a node whose collections are at most so deep. -/
def valueOf : Nat → Node → Except Fault Value
  | 0, node => singleValue node
  | fuel + 1, node =>
    if let .enclosing isMapping := node then .ok (.enclosing isMapping)
    else if isCollection (nodeTag node) then do
      let values ← (← parts node).mapM fun
        | .item part | .key part => valueOf fuel part
        | .misplaced => malformed
      return match nodeTag node with
        | .sequence => .list values
        | .orderedPairs | .pairs => .list (pairsOf values)
        | .set =>
          .set ((entriesOf values).foldl (fun done entry => Value.putMember entry.1 done) [])
        | _ => .map (Value.mapOf (entriesOf values))
    else singleValue node

/-- The value of the document that a text is; null for a text without any. -/
def load (text : List Char) : Except Fault Value := do
  match ← nodeOfText text with
  | none => return .null
  | some root =>
    check root
    valueOf (depth root + 1) root

end Yaml
end Consignment
