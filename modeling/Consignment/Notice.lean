import Consignment.Text.Digits

namespace Consignment

/-!
# Notices

While it works, the program notes what it does.  A notice has a level, a topic and
a text.  What becomes of it is decided where the output is written; the rules of the
packaging only produce notices, in the order of their work.
-/

/-- Levels are numbers, and a greater number is more urgent. -/
abbrev Level := Int

namespace Level

def unset : Level := 0

def debug : Level := 10

def info : Level := 20

def warning : Level := 30

def error : Level := 40

def critical : Level := 50

def named : List (Level × String) := [
  (unset, "NOTSET"), (debug, "DEBUG"), (info, "INFO"), (warning, "WARNING"), (error, "ERROR"),
  (critical, "CRITICAL")]

/-- The name of a level; one without a name is named by its number. -/
def name (level : Level) : String :=
  (named.lookup level).getD ("Level " ++ Text.decimal level)

end Level

structure Notice where
  level : Level
  topic : String
  text : String
  deriving DecidableEq, Repr

/-- The parts of the program that notices come from. -/
inductive Topic where
  | config
  | manifest
  | packaging
  | fetching
  | closure
  | expansion
  | staging
  | documents
  deriving DecidableEq, Repr

namespace Topic

def text : Topic → String
  | config => "wagipack.core.config"
  | manifest => "wagipack.core.manifest"
  | packaging => "wagipack.services.package_service"
  | fetching => "wagipack.core.dep.fetcher"
  | closure => "wagipack.core.dep.closure"
  | expansion => "wagipack.core.expander"
  | staging => "wagipack.core.writer"
  | documents => "wagipack.utils.yaml_io"

def notice (topic : Topic) (level : Level) (text : String) : Notice :=
  ⟨level, topic.text, text⟩

end Topic
end Consignment
