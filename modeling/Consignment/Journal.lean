import Consignment.Calendar
import Consignment.Fault
import Consignment.Json.Writer
import Consignment.Notice
import Consignment.Value.Basic

namespace Consignment

/-!
# The journal

The journal is where notices are written, a line for each, as text for readers or as
JSON for programs.  A threshold keeps out those that are less urgent; without one in
the environment, or with one that is not known, warnings and worse are kept.
-/

/-- Which notices are kept, and how they are written. -/
structure Journal where
  threshold : Level := Level.warning
  asJson : Bool := false
  deriving DecidableEq, Repr

namespace Journal

/-- The upper-case form of a letter that can stand in the name of a level. -/
def upper (c : Char) : Char :=
  if c == '\u0131' then 'I' else if c == '\u017f' then 'S' else c.toUpper

/-- The words for levels in the environment. -/
def words : List (String × Level) := [
  ("NOTSET", Level.unset), ("DEBUG", Level.debug), ("INFO", Level.info),
  ("WARN", Level.warning), ("WARNING", Level.warning), ("ERROR", Level.error),
  ("FATAL", Level.critical), ("CRITICAL", Level.critical)]

/-- A word in the place of a level that is known as something else, and what it is known
as. -/
def misplacedWord : String × String := ("BASIC_FORMAT", "%(levelname)s:%(name)s:%(message)s")

/-- The threshold that a word stands for. -/
def thresholdOf (word : String) : Except Fault Level :=
  let word := String.ofList (word.toList.map upper)
  if word = misplacedWord.1 then .error (.unknownLevel misplacedWord.2)
  else .ok ((words.lookup word).getD Level.warning)

/-- The journal that the environment asks for. -/
def ofEnvironment (environment : String → Option String) : Except Fault Journal := do
  let threshold ← thresholdOf ((environment "WAGIPACK_LOG_LEVEL").getD "WARNING")
  return { threshold, asJson := environment "WAGIPACK_LOG_JSON" == some "1" }

/-- A time as the lines bear it: local time down to the millisecond in a text, and
universal time in JSON. -/
def timeText (j : Journal) (clock universal : Moment) : String :=
  if j.asJson then { universal with offset := some 0 : Moment }.iso
  else
    { clock with microsecond := 0 : Moment }.isoWith ' '
      ++ String.ofList (',' :: Text.paddedDecimal 3 (clock.microsecond / 1000))

/-- The fields of a notice that comes from a numbered line. -/
def fields (line : Int) (n : Notice) : List (String × Value) := [
  ("level", .text (Level.name n.level)), ("logger", .text n.topic), ("message", .text n.text),
  ("line", .int line)]

def levelWidth : Nat := 7

/-- The line of a notice.  Notices come from no numbered line, so their line is zero. -/
def line (j : Journal) (time : String) (n : Notice) : String :=
  if j.asJson then Json.write .line (.record (("timestamp", .text time) :: fields 0 n))
  else
    let level := Level.name n.level
    let padding := String.ofList (List.replicate (levelWidth - level.length) ' ')
    time ++ " [" ++ level ++ padding ++ "] " ++ n.topic ++ ": " ++ n.text

def kept (j : Journal) (notices : List Notice) : List Notice :=
  notices.filter fun n => decide (j.threshold ≤ n.level)

/-- The lines of the notices that are kept. -/
def text (j : Journal) (time : String) (notices : List Notice) : String :=
  String.join ((j.kept notices).map fun n => j.line time n ++ "\n")

end Journal
end Consignment
