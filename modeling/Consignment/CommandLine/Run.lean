import Consignment.CommandLine.Commands

namespace Consignment
namespace CommandLine

/-!
# Running a command line

The options before the command are those of the program: its version and the file of
the configuration.  What stands after the command belongs to it.

Output goes to one stream, and notices and failures to another.  A usage fault is told
without the notices before it.
-/

/-- What a command line leaves behind. -/
structure Result where
  disk : Disk
  /-- The configuration that was established, if it came so far. -/
  config : Option Config := none
  requests : List Request := []
  exit : Nat
  output : String := ""
  errors : String := ""
  /-- A fault that nothing accounts for. -/
  escaped : Option Failure := none

def programOptions : List Opt := [
  { name := "--version", takesValue := false }, { name := "--config", letter := some "-c" },
  helpOption]

def versionText : String := "main, version 0.4.0\n"

def usageText : String := "Usage: main [OPTIONS] COMMAND [ARGS]...\n"

def errorLine (reason : String) : String :=
  "Error: " ++ reason ++ "\n"

def resultOf (config : Option Config) (journal : String) (work : Work) : Result :=
  let result : Result :=
    { disk := work.disk, config, requests := work.requests, exit := 1, errors := journal }
  match work.ending with
  | .done output => { result with exit := 0, output }
  | .misused fault => { result with exit := 2, errors := errorLine fault.message }
  | .refused reason => { result with errors := journal ++ errorLine reason }
  | .failed failure =>
    match failure.code? with
    | some code =>
      { result with errors := journal ++ errorLine ("[" ++ code ++ "] " ++ failure.message) }
    | none => { result with escaped := some failure }

/-- The work of a command with its own arguments. -/
def workOf (environment : String → Option String) (s : Surroundings) (command : Command)
    (arguments : List String) : Work :=
  match understand command.options true (arguments.length + 1) arguments with
  | .error fault => { disk := s.disk, ending := .misused fault }
  | .ok u =>
    if u.has helpOption.name then { disk := s.disk, ending := .done usageText }
    else command.work environment s u

/-- Establish the configuration and do the work of a command. -/
def runCommand (environment : String → Option String) (time : String) (s : Surroundings)
    (configPath : String) (command : Command) (arguments : List String) : Result :=
  match Journal.ofEnvironment environment with
  | .error fault => { disk := s.disk, exit := 1, escaped := some (.escaped fault) }
  | .ok journal =>
    let established := Config.establish s.disk configPath
    match established.outcome with
    | .error failure =>
      resultOf none (journal.text time established.notices)
        { disk := s.disk, ending := .failed failure }
    | .ok config =>
      let work := workOf environment { s with config } command arguments
      resultOf (some config) (journal.text time (established.notices ++ work.notices)) work

/-- What the options before a command come to. -/
inductive Opening where
  /-- Something to show instead of running a command. -/
  | screen (output : String)
  | proceed (understood : Understood)

/-- Understand the options before a command.  Of those that ask for something to be shown
the first counts, and without any argument it is the usage. -/
def opening (arguments : List String) : Except UsageFault Opening := do
  if arguments.isEmpty then return .screen usageText
  let u ← understand programOptions false (arguments.length + 1) arguments
  match u.given.find? fun given => !given.1.takesValue with
  | some (option, _) => return .screen (if option = helpOption then usageText else versionText)
  | none => return .proceed u

/-- Whether a name begins like an option: with a mark in the place of a letter or digit. -/
def beginsWithMark (name : String) : Bool :=
  match name.toList with
  | [] => false
  | c :: _ => c.toNat < 0x80 && !c.isAlphanum

/-- Run a command line.  Every line of the journal bears the given time.  Where a name
that is no command begins with a mark, the arguments after it are taken for options of the
program before the name is refused. -/
def run (environment : String → Option String) (time : String) (s : Surroundings)
    (arguments : List String) : Result :=
  let misused (fault : UsageFault) : Result :=
    { disk := s.disk, exit := 2, errors := errorLine fault.message }
  let shown (output : String) : Result := { disk := s.disk, exit := 0, output }
  match opening arguments with
  | .error fault => misused fault
  | .ok (.screen output) => shown output
  | .ok (.proceed u) =>
    match u.arguments with
    | [] => misused .missingCommand
    | name :: rest =>
      match commands.find? (·.name == name) with
      | some command =>
        runCommand environment time s ((u.value? "--config").getD Config.defaultPath) command rest
      | none =>
        if beginsWithMark name then
          match opening rest with
          | .error fault => misused fault
          | .ok (.screen output) => shown output
          | .ok (.proceed _) => misused (.unknownCommand name)
        else misused (.unknownCommand name)

end CommandLine
end Consignment
