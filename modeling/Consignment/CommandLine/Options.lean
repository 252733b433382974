import Consignment.CommandLine.Similar
import Consignment.Text.Quoted

namespace Consignment
namespace CommandLine

/-!
# Options and arguments

An option has a long name after two hyphens and possibly a letter after one.  It is a
flag, or it takes a value: after an equals sign, as the next argument, or, with a
letter, right after the letter.  Two hyphens alone end the options; a single hyphen is
an ordinary argument.

Faults are told in a fixed order: first those of the names, as they come; then a value
that is not among the choices, in the order in which the options were first given; then
a missing argument; at last arguments that are too many.
-/

structure Opt where
  /-- The name with its two hyphens. -/
  name : String
  /-- The letter with its hyphen. -/
  letter : Option String := none
  takesValue : Bool := true
  /-- What the value can be, if it is restricted. -/
  choices : List String := []
  deriving DecidableEq, Repr

namespace Opt

/-- The names as a message shows them. -/
def hint (o : Opt) : String :=
  String.intercalate " / " ((o.name :: o.letter.toList).map fun name => "'" ++ name ++ "'")

end Opt

inductive UsageFault where
  | unknownOption (name : String) (similar : List String)
  | valueNeeded (name : String)
  | valueUnwanted (name : String)
  | notAChoice (option : Opt) (value : String)
  | missingArgument (name : String)
  | extraArguments (arguments : List String)
  | unknownCommand (name : String)
  | missingCommand
  /-- A value that is no `key=value` pair. -/
  | notAPair (text : String)
  deriving DecidableEq, Repr

namespace UsageFault

def message : UsageFault → String
  | unknownOption name similar =>
    "No such option: " ++ name ++ match similar with
      | [] => ""
      | [one] => " Did you mean " ++ one ++ "?"
      | several => " (Possible options: " ++ String.intercalate ", " several ++ ")"
  | valueNeeded name => "Option " ++ Text.quoted name ++ " requires an argument."
  | valueUnwanted name => "Option " ++ Text.quoted name ++ " does not take a value."
  | notAChoice option value =>
    "Invalid value for " ++ option.hint ++ ": " ++ Text.quoted value ++ " is not one of "
      ++ String.intercalate ", " (option.choices.map Text.quoted) ++ "."
  | missingArgument name => "Missing argument '" ++ name ++ "'."
  | extraArguments arguments =>
    "Got unexpected extra argument" ++ (if arguments.length = 1 then "" else "s") ++ " ("
      ++ String.intercalate " " arguments ++ ")"
  | unknownCommand name => "No such command " ++ Text.quoted name ++ "."
  | missingCommand => "Missing command."
  | notAPair text => "Invalid value for --var: '" ++ text ++ "' 不是 key=value 格式"

end UsageFault

/-- An option as it was given; a flag has no value. -/
abbrev Given := Opt × Option String

/-- Options as they were given, in order, and the arguments that are left. -/
structure Understood where
  given : List Given := []
  arguments : List String := []

namespace Understood

def values (u : Understood) (name : String) : List String :=
  (u.given.filter (·.1.name == name)).filterMap (·.2)

def value? (u : Understood) (name : String) : Option String :=
  (u.values name).getLast?

def has (u : Understood) (name : String) : Bool :=
  u.given.any (·.1.name == name)

end Understood

/-- The value of an option that was named, and the arguments after it. -/
def takeValue (name : String) : List String → Except UsageFault (String × List String)
  | value :: rest => .ok (value, rest)
  | [] => .error (.valueNeeded name)

/-- The options that a run of letters stands for.  One that takes a value takes the rest
of the run, or the next argument. -/
def readLetters (options : List Opt) : List Char → List String →
    Except UsageFault (List Given × List String)
  | [], rest => .ok ([], rest)
  | c :: more, rest => do
    let name := String.ofList ['-', c]
    match options.find? (·.letter == some name) with
    | none => throw (.unknownOption name [])
    | some option =>
      if option.takesValue then
        if more.isEmpty then
          let (value, rest) ← takeValue name rest
          return ([(option, some value)], rest)
        else return ([(option, some (String.ofList more))], rest)
      else
        let (given, rest) ← readLetters options more rest
        return ((option, none) :: given, rest)

/-- The options that one argument starts, and the arguments after them. -/
def readOption (options : List Opt) (argument : String) (rest : List String) :
    Except UsageFault (List Given × List String) := do
  let cs := argument.toList
  let name := String.ofList (cs.takeWhile (· != '='))
  let attached : Option String :=
    if cs.contains '=' then some (String.ofList ((cs.dropWhile (· != '=')).drop 1)) else none
  match options.find? (·.name == name) with
  | some option =>
    if option.takesValue then
      match attached with
      | some value => return ([(option, some value)], rest)
      | none =>
        let (value, rest) ← takeValue name rest
        return ([(option, some value)], rest)
    else if attached.isSome then throw (.valueUnwanted name)
    else return ([(option, none)], rest)
  | none =>
    if cs.take 2 == ['-', '-'] then
      throw (.unknownOption name (similarNames name (options.map (·.name))))
    else readLetters options (cs.drop 1) rest

/-- Whether an argument starts options. -/
def startsOptions (argument : String) : Bool :=
  match argument.toList with
  | '-' :: _ :: _ => true
  | _ => false

/-- Tell options and arguments apart.  Where they cannot be mixed the first argument ends
the options.  Every step takes an argument, so their number is enough fuel. -/
def understand (options : List Opt) (mixed : Bool) : Nat → List String →
    Except UsageFault Understood
  | 0, arguments => .ok { arguments }
  | _ + 1, [] => .ok {}
  | fuel + 1, argument :: rest => do
    if argument = "--" then return { arguments := rest }
    else if startsOptions argument then
      let (given, rest) ← readOption options argument rest
      let u ← understand options mixed fuel rest
      return { u with given := given ++ u.given }
    else if mixed then
      let u ← understand options mixed fuel rest
      return { u with arguments := argument :: u.arguments }
    else return { arguments := argument :: rest }

/-- The first value that is not among the choices of its option: of every option the
last value counts, at the place where the option was first given. -/
def checkChoices (u : Understood) : Except UsageFault Unit := do
  for option in (u.given.map (·.1)).eraseDups do
    match u.value? option.name with
    | some value =>
      if !option.choices.isEmpty && !option.choices.contains value then
        throw (.notAChoice option value)
    | none => pure ()

/-- The single argument of a command, under the name that a message gives it; without a
default it has to be there. -/
def onlyArgument (u : Understood) (name : String) (default : Option String) :
    Except UsageFault String := do
  checkChoices u
  let argument ← match u.arguments.head?, default with
    | some argument, _ => pure argument
    | none, some default => pure default
    | none, none => throw (.missingArgument name)
  if 1 < u.arguments.length then throw (.extraArguments (u.arguments.drop 1))
  return argument

end CommandLine
end Consignment
