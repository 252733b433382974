import Consignment.Calendar
import Consignment.Number.Read
import Consignment.Text.Bytes
import Consignment.Text.Quoted

namespace Consignment

/-!
# Faults of the layers below

Files, documents, numbers and addresses can be at fault in ways that belong to
no rule of the packaging itself.  Each fault is named by its cause.  Most are
caught where a rule of the packaging can say what they mean for it, and then
their wording becomes a part of its message; one that is not caught ends the
operation as it is.
-/

inductive Refusal where
  | missing
  | occupied
  | notDirectory
  | isDirectory
  | nameTooLong
  | busy
  deriving DecidableEq, Repr

namespace Refusal

/-- The number by which a refusal is known. -/
def number : Refusal → Nat
  | missing => 2
  | busy => 16
  | occupied => 17
  | notDirectory => 20
  | isDirectory => 21
  | nameTooLong => 36

def description : Refusal → String
  | missing => "No such file or directory"
  | busy => "Device or resource busy"
  | occupied => "File exists"
  | notDirectory => "Not a directory"
  | isDirectory => "Is a directory"
  | nameTooLong => "File name too long"

end Refusal

/-- A refused file operation: the path it was asked for, and the second path of a
renaming. -/
structure DiskFault where
  refusal : Refusal
  path : String
  target : Option String := none
  deriving DecidableEq, Repr

namespace DiskFault

def message (f : DiskFault) : String :=
  "[Errno " ++ toString f.refusal.number ++ "] " ++ f.refusal.description ++ ": "
    ++ Text.quoted f.path
    ++ match f.target with
      | none => ""
      | some target => " -> " ++ Text.quoted target

end DiskFault

inductive AuthorityFault where
  /-- A bracket without its partner. -/
  | brackets
  /-- A future address of unknown form in brackets. -/
  | future
  /-- An address of the old kind in brackets. -/
  | fourInBrackets
  /-- No address in the brackets. -/
  | noAddress (host : String)
  /-- A character that would become a delimiter when the text is normalised. -/
  | hiddenDelimiter (authority : String)
  deriving DecidableEq, Repr

namespace AuthorityFault

def message : AuthorityFault → String
  | brackets => "Invalid IPv6 URL"
  | future => "IPvFuture address is invalid"
  | fourInBrackets => "An IPv4 address cannot be in brackets"
  | noAddress host => Text.quoted host ++ " does not appear to be an IPv4 or IPv6 address"
  | hiddenDelimiter authority =>
    "netloc '" ++ authority ++ "' contains invalid characters under NFKC normalization"

end AuthorityFault

inductive TemplateFault where
  /-- The template ends inside a place. -/
  | incomplete
  /-- A place has a letter of no meaning; the letter and its position. -/
  | letter (letter : Char) (position : Nat)
  | tooFew
  | tooMany
  /-- A place for a number gets a value of another kind. -/
  | notNumber (letter : Char) (kind : String)
  | notInteger (letter : Char) (kind : String)
  /-- A place for a floating-point number gets a value of another kind. -/
  | notReal (kind : String)
  | notCharacter
  /-- A place for a character gets a number beyond the last one. -/
  | characterRange
  /-- A place with a name gets values without names. -/
  | notMapping
  deriving DecidableEq, Repr

namespace TemplateFault

def message : TemplateFault → String
  | incomplete => "incomplete format"
  | letter c position =>
    let shown := if 0x20 ≤ c.toNat && c.toNat < 0x7f then c else '?'
    let digits := (Text.hex 8 c.toNat).dropWhile (· == '0')
    "unsupported format character '" ++ String.singleton shown ++ "' (0x" ++ String.ofList digits
      ++ ") at index " ++ toString position
  | tooFew => "not enough arguments for format string"
  | tooMany => "not all arguments converted during string formatting"
  | notNumber c kind =>
    "%" ++ String.singleton c ++ " format: a real number is required, not " ++ kind
  | notInteger c kind =>
    "%" ++ String.singleton c ++ " format: an integer is required, not " ++ kind
  | notReal kind => "must be real number, not " ++ kind
  | notCharacter => "%c requires int or char"
  | characterRange => "%c arg not in range(0x110000)"
  | notMapping => "format requires a mapping"

end TemplateFault

/-- A fault of files, documents, numbers or addresses. -/
inductive Fault where
  | disk (fault : DiskFault)
  /-- A path with a character that no path can hold. -/
  | nullInPath
  | undecodable (fault : Text.DecodeFault)
  /-- A byte that is no character of ASCII, with its position. -/
  | notAscii (byte : UInt8) (position : Nat)
  /-- A document larger than the greatest size that is read. -/
  | tooLarge (path : String) (size limit : Nat)
  /-- A document that is not well-formed. -/
  | malformedDocument
  /-- No integer: the fault and the text, quoted. -/
  | integer (fault : Number.IntegerFault) (quoted : String)
  /-- No floating-point number: the text. -/
  | decimal (text : String)
  /-- A number without a single digit. -/
  | emptyNumber
  /-- A text declared to be a truth value. -/
  | truthValue (text : String)
  /-- A text declared to be a point in time. -/
  | timestamp
  | calendar (fault : CalendarFault)
  /-- An escape that is beyond the last character. -/
  | character (code : Nat)
  /-- A floating-point number that is no number where an integer is needed. -/
  | nanAsInteger
  | infinityAsInteger
  /-- An integer with too many digits to be written out. -/
  | longInteger
  /-- An integer beyond the floating-point numbers where one of these is needed. -/
  | integerAsFloat
  /-- A value of a kind that is never an integer. -/
  | kindAsInteger (kind : String)
  /-- A value of a kind that is never read as a text. -/
  | kindAsText (kind : String)
  /-- A value of a kind that has no items. -/
  | kindAsList (kind : String)
  /-- A value of a kind that no path can be extended by. -/
  | kindInPath (kind : String)
  /-- A value of a kind that is never a path. -/
  | kindAsPath (kind : String)
  /-- Bytes in the place of a path. -/
  | bytesAsPath
  /-- A value of a kind that is never an address. -/
  | kindAsAddress (kind : String)
  | missingField (name : String)
  /-- The first of no items. -/
  | noItem
  | template (fault : TemplateFault)
  | authority (fault : AuthorityFault)
  /-- A threshold for notices that is a text but names no level. -/
  | unknownLevel (text : String)
  deriving DecidableEq, Repr

namespace CalendarFault

/-- The bound on offsets is exclusive on both sides. -/
def message : CalendarFault → String
  | year y => "year " ++ toString y ++ " is out of range"
  | month => "month must be in 1..12"
  | day => "day is out of range for month"
  | hour => "hour must be in 0..23"
  | minute => "minute must be in 0..59"
  | second => "second must be in 0..59"
  | offset minutes =>
    let seconds := minutes * 60
    let days := seconds.fdiv 86400
    let rest := seconds - days * 86400
    let parts := (if days ≠ 0 then ["days=" ++ Text.decimal days] else [])
      ++ (if rest ≠ 0 then ["seconds=" ++ Text.decimal rest] else [])
    "offset must be a timedelta strictly between -timedelta(hours=24) and "
      ++ "timedelta(hours=24), not datetime.timedelta(" ++ String.intercalate ", " parts ++ ")."

end CalendarFault

namespace Fault

/-- The quotation of a text that is no integer shows at most this many characters. -/
def quotationLimit : Nat := 200

def message : Fault → String
  | disk fault => fault.message
  | nullInPath => "embedded null byte"
  | undecodable fault => fault.message
  | notAscii byte position =>
    "'ascii' codec can't decode byte 0x" ++ String.ofList (Text.hex 2 byte.toNat) ++ " in position "
      ++ toString position ++ ": ordinal not in range(128)"
  | tooLarge path size limit =>
    "YAML 文件过大: " ++ path ++ " (" ++ toString size ++ " 字节), 超过限制 " ++ toString limit ++ " 字节"
  | malformedDocument => "<yaml error>"
  | integer (.shape base) quoted =>
    "invalid literal for int() with base " ++ toString base ++ ": "
      ++ (quoted.take quotationLimit).toString
  | integer (.tooLong digits) _ =>
    "Exceeds the limit (" ++ toString Number.maxDecimalDigits
      ++ " digits) for integer string conversion: value has " ++ toString digits
      ++ " digits; use sys.set_int_max_str_digits() to increase the limit"
  | decimal text => "could not convert string to float: " ++ Text.quoted text
  | emptyNumber => "string index out of range"
  | truthValue text => Text.quoted text
  | timestamp => "'NoneType' object has no attribute 'groupdict'"
  | calendar fault => fault.message
  | character code =>
    if code < 0x80000000 then "chr() arg not in range(0x110000)"
    else "Python int too large to convert to C int"
  | nanAsInteger => "cannot convert float NaN to integer"
  | infinityAsInteger => "cannot convert float infinity to integer"
  | longInteger =>
    "Exceeds the limit (" ++ toString Number.maxDecimalDigits
      ++ " digits) for integer string conversion; use sys.set_int_max_str_digits() to increase the "
      ++ "limit"
  | integerAsFloat => "int too large to convert to float"
  | kindAsText kind => "expected string or bytes-like object, got '" ++ kind ++ "'"
  | kindAsInteger kind =>
    "int() argument must be a string, a bytes-like object or a real number, not '" ++ kind ++ "'"
  | kindAsList kind => "'" ++ kind ++ "' object is not iterable"
  | kindInPath kind => "unsupported operand type(s) for /: 'PosixPath' and '" ++ kind ++ "'"
  | kindAsPath kind => "expected str, bytes or os.PathLike object, not " ++ kind
  | bytesAsPath =>
    "argument should be a str object or an os.PathLike object returning str, not <class 'bytes'>"
  | kindAsAddress kind => "'" ++ kind ++ "' object has no attribute 'decode'"
  | missingField name => Text.quoted name
  | noItem => "list index out of range"
  | template fault => fault.message
  | authority fault => fault.message
  | unknownLevel text => "Unknown level: " ++ Text.quoted text

/-- A refused file operation. -/
def isDisk : Fault → Bool
  | disk _ => true
  | _ => false

/-- A value that is wrong for what is done with it, but of the right kind. -/
def isValue : Fault → Bool
  | nullInPath | undecodable _ | notAscii _ _ | tooLarge _ _ _ | integer _ _ | decimal _ | calendar _
  | nanAsInteger | longInteger | authority _ | unknownLevel _ => true
  | template .incomplete | template (.letter _ _) => true
  | character code => code < 0x80000000
  | _ => false

/-- A value of the wrong kind. -/
def isKind : Fault → Bool
  | kindAsInteger _ | kindAsText _ | kindAsList _ | kindInPath _ | kindAsPath _ | bytesAsPath => true
  | template fault => !(fault matches .incomplete | .letter _ _ | .characterRange)
  | _ => false

end Fault
end Consignment
