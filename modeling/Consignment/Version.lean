import Consignment.Calendar

namespace Consignment

/-!
# Versions of builds

A production build has the version that its manifest declares.  A development build
has that version with the name of the user, if there is one, and the local time down
to the millisecond, so that later builds have versions that come later.  All fields
of the time but the year have a fixed width.
-/

/-- How the version of a build is made. -/
inductive Versioning where
  | dev
  | production
  deriving DecidableEq, Repr

namespace Versioning

/-- Exactly one word asks for production; every other asks for development. -/
def ofText (text : String) : Versioning :=
  if text = "production" then production else dev

end Versioning

/-- The clock and the user of a build. -/
structure Stamp where
  now : Moment
  user : Option String := none
  deriving DecidableEq, Repr

namespace Stamp

/-- The time with points between its fields. -/
def timeText (t : Moment) : List Char :=
  let field (n : Nat) : List Char := '.' :: Text.paddedDecimal 2 n
  (toString t.date.year).toList ++ field t.date.month ++ field t.date.day ++ field t.hour
    ++ field t.minute ++ field t.second ++ '.' :: Text.paddedDecimal 3 (t.microsecond / 1000)

/-- What a development build adds to the declared version. -/
def text (s : Stamp) : String :=
  let user := match s.user with
    | none | some "" => ""
    | some name => "-" ++ name
  user ++ "-" ++ String.ofList (timeText s.now)

end Stamp

def versionFor (versioning : Versioning) (stamp : Stamp) (declared : String) : String :=
  match versioning with
  | .production => declared
  | .dev => declared ++ stamp.text

/-- The user of a build: the first of two environment variables that is not empty. -/
def userOf (environment : String → Option String) : Option String :=
  match environment "USER" with
  | some name => if name.isEmpty then second else some name
  | none => second
where
  second : Option String :=
    match environment "USERNAME" with
    | some name => if name.isEmpty then none else some name
    | none => none

end Consignment
