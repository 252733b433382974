import Consignment.Text.Order

namespace Consignment
namespace CommandLine

/-!
# Names that resemble a mistyped one

Two names are compared by what they have in common: the longest run of characters that
both hold, and again to the left and to the right of it.  Names resemble each other
when twice the number of common characters is at least six tenths of the characters of
both.
-/

/-- How many characters two texts share at their fronts. -/
def commonFront : List Char → List Char → Nat
  | a :: as, b :: bs => if a = b then commonFront as bs + 1 else 0
  | _, _ => 0

/-- A run that two texts have in common. -/
structure Run where
  first : Nat
  second : Nat
  length : Nat

/-- The longest common run; of several the one that starts first in the first text, and
of those the one that starts first in the second. -/
def longestRun (a b : List Char) : Run :=
  let starts := (List.range a.length).flatMap fun i => (List.range b.length).map fun j => (i, j)
  starts.foldl
    (fun best start =>
      let length := commonFront (a.drop start.1) (b.drop start.2)
      if best.length < length then ⟨start.1, start.2, length⟩ else best)
    ⟨0, 0, 0⟩

/-- How many characters two texts have in common.  Both sides of a run are shorter than
the whole, so the length of the first text is enough fuel. -/
def commonCount : Nat → List Char → List Char → Nat
  | 0, _, _ => 0
  | fuel + 1, a, b =>
    let run := longestRun a b
    if run.length = 0 then 0
    else
      commonCount fuel (a.take run.first) (b.take run.second) + run.length
        + commonCount fuel (a.drop (run.first + run.length)) (b.drop (run.second + run.length))

/-- How much a known name resembles a mistyped one: the common characters, and the
characters of both. -/
def resemblance (mistyped known : String) : Nat × Nat :=
  let a := known.toList
  let b := mistyped.toList
  (commonCount a.length a b, a.length + b.length)

def isClose (r : Nat × Nat) : Bool :=
  3 * r.2 ≤ 10 * r.1

def maxSuggestions : Nat := 3

/-- The known names that resemble a mistyped one most, by code point. -/
def similarNames (mistyped : String) (known : List String) : List String :=
  let close := (known.map fun name => (resemblance mistyped name, name)).filter (isClose ·.1)
  let notWorse (a b : (Nat × Nat) × String) : Bool :=
    if a.1.1 * b.1.2 = b.1.1 * a.1.2 then Text.notAfter b.2 a.2
    else b.1.1 * a.1.2 < a.1.1 * b.1.2
  Text.sorted (((close.mergeSort notWorse).take maxSuggestions).map (·.2))

end CommandLine
end Consignment
