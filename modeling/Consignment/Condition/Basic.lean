namespace Consignment

/-!
# Build conditions

An entry of a manifest may carry a condition that decides whether the entry
takes part in a build.  A condition compares two terms, each a literal or a
variable, and the variables take their values from the table that the build was
started with.  A variable without a value is *absent*: two absent values are
equal, and an absent value differs from every literal, the empty one included.
-/

/-- The values that a build is started with, no name twice. -/
abbrev Values := List (String × String)

namespace Values

def get? (values : Values) (name : String) : Option String :=
  values.lookup name

/-- Give a name a value: in its old place, or at the end. -/
def put (name value : String) : Values → Values
  | [] => [(name, value)]
  | (k, v) :: rest => if k = name then (k, value) :: rest else (k, v) :: put name value rest

end Values

/-- One side of a comparison. -/
inductive Term where
  | literal (value : String)
  | reference (name : String)
  deriving DecidableEq, Repr

namespace Term

/-- What a term stands for, `none` for an absent variable. -/
def evaluate (values : Values) : Term → Option String
  | literal value => some value
  | reference name => values.get? name

/-- A literal stands in single quotes, a variable after a dollar sign. -/
def text : Term → String
  | literal value => "'" ++ value ++ "'"
  | reference name => "$" ++ name

def variableNames : Term → List String
  | literal _ => []
  | reference name => [name]

end Term

/-- What decides whether an entry takes part in a build. -/
inductive Condition where
  /-- No condition is given: the entry always takes part. -/
  | always
  | equal (left right : Term)
  | unequal (left right : Term)
  deriving DecidableEq, Repr

namespace Condition

def holds (values : Values) : Condition → Bool
  | always => true
  | equal left right => left.evaluate values == right.evaluate values
  | unequal left right => left.evaluate values != right.evaluate values

/-- The form in which a condition is written, with one space around the operator. -/
def text : Condition → String
  | always => ""
  | equal left right => left.text ++ " == " ++ right.text
  | unequal left right => left.text ++ " != " ++ right.text

/-- What an entry has in the place of its condition: nothing, or the written form. -/
def written? : Condition → Option String
  | always => none
  | c => some c.text

/-- The variables that a condition mentions, possibly repeated. -/
def variableNames : Condition → List String
  | always => []
  | equal left right => left.variableNames ++ right.variableNames
  | unequal left right => left.variableNames ++ right.variableNames

/-- Only the values of the mentioned variables matter. -/
theorem holds_congr {c : Condition} {first second : Values}
    (agree : ∀ name ∈ c.variableNames, first.get? name = second.get? name) :
    c.holds first = c.holds second := by
  have term : ∀ t : Term, (∀ name ∈ t.variableNames, first.get? name = second.get? name) →
      t.evaluate first = t.evaluate second := by
    intro t same
    cases t with
    | literal value => rfl
    | reference name => exact same name (by simp [Term.variableNames])
  cases c with
  | always => rfl
  | equal left right =>
    have l := term left fun name mem => agree name (by simp [variableNames, mem])
    have r := term right fun name mem => agree name (by simp [variableNames, mem])
    simp [holds, l, r]
  | unequal left right =>
    have l := term left fun name mem => agree name (by simp [variableNames, mem])
    have r := term right fun name mem => agree name (by simp [variableNames, mem])
    simp [holds, l, r]

end Condition
end Consignment
