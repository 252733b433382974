import Consignment.Failure
import Consignment.Url.Host

namespace Consignment
namespace Url

/-!
# Addresses of package servers

A package server is addressed by a scheme, which has to be one of two, and the path
of a package below the server's own address.

The scheme is read off leniently: controls and spaces at the front and tabs and line
ends anywhere are ignored, and what is before the first colon is the scheme if it
begins with a letter and has no character that a scheme cannot have.  An authority
with brackets has to hold a numeric host between them, and one with characters
outside ASCII must not hide a delimiter.

Names are put into a path by percent-encoding every byte of their UTF-8 that is
neither unreserved nor one of three marks, so a name can end neither the path nor
the address.
-/

def allowedSchemes : List String := ["http", "https"]

def isSchemeChar (c : Char) : Bool :=
  c.isAlphanum || c == '+' || c == '-' || c == '.'

/-- The text without the characters that are ignored. -/
def cleaned (cs : List Char) : List Char :=
  (cs.dropWhile fun c => c.toNat ≤ 0x20).filter fun c => c != '\t' && c != '\r' && c != '\n'

/-- The scheme in lower case, empty when there is none, and what follows it. -/
def splitScheme (cs : List Char) : List Char × List Char :=
  let scheme := cs.takeWhile (· != ':')
  match cs.drop scheme.length with
  | _ :: rest =>
    if (scheme.head?.map Char.isAlpha).getD false && scheme.all isSchemeChar then
      (scheme.map Char.toLower, rest)
    else ([], cs)
  | [] => ([], cs)

/-- The authority after two slashes, empty when there is none. -/
def authority (cs : List Char) : List Char :=
  match cs with
  | '/' :: '/' :: rest => rest.takeWhile fun c => c != '/' && c != '?' && c != '#'
  | _ => []

/-- The characters outside ASCII that become a delimiter, or text with one, when they
are normalised. -/
def hiddenDelimiters : List Nat := [
  0x2047, 0x2048, 0x2049, 0x2100, 0x2101, 0x2105, 0x2106, 0x2a74, 0xfe13, 0xfe16, 0xfe55, 0xfe56,
  0xfe5f, 0xfe6b, 0xff03, 0xff0f, 0xff1a, 0xff1f, 0xff20]

/-- What is wrong with an authority, if anything. -/
def authorityFault? (cs : List Char) : Option AuthorityFault :=
  let opened := cs.contains '['
  let closed := cs.contains ']'
  let host := (((cs.dropWhile (· != '[')).drop 1).takeWhile (· != ']'))
  if opened != closed then some .brackets
  else if opened && host.head? == some 'v' && !isFuture host then some .future
  else if opened && host.head? != some 'v' && isVersionFour host then some .fourInBrackets
  else if opened && host.head? != some 'v' && !isVersionSix host then
    some (.noAddress (String.ofList host))
  else if cs.any fun c => hiddenDelimiters.contains c.toNat then
    some (.hiddenDelimiter (String.ofList cs))
  else none

/-- The scheme of an address, or what is wrong with its authority. -/
def schemeOf (url : String) : Except AuthorityFault String :=
  let (scheme, rest) := splitScheme (cleaned url.toList)
  match authorityFault? (authority rest) with
  | some fault => .error fault
  | none => .ok (String.ofList scheme)

/-- Only the allowed schemes pass; the context says in a message what the address is
for. -/
def validate (context url : String) : Except Failure Unit :=
  match schemeOf url with
  | .error fault => .error (.escaped (.authority fault))
  | .ok scheme =>
    if allowedSchemes.contains scheme then .ok () else .error (.invalid (.scheme scheme context url))

/-- A byte that stands for itself in a path. -/
def isPlainByte (b : UInt8) : Bool :=
  let c := Char.ofNat b.toNat
  b.toNat < 0x80 && (c.isAlphanum || "_.-~/@+".toList.contains c)

def encodeByte (b : UInt8) : List Char :=
  if isPlainByte b then [Char.ofNat b.toNat] else '%' :: Text.upperHex 2 b.toNat

def encode (cs : List Char) : List Char :=
  (Text.encodeUtf8 cs).flatMap encodeByte

def dropEndSlashes (cs : List Char) : List Char :=
  (cs.reverse.dropWhile (· == '/')).reverse

def trimSlashes (cs : List Char) : List Char :=
  dropEndSlashes (cs.dropWhile (· == '/'))

def join (base : String) (names : List String) : String :=
  String.ofList (dropEndSlashes base.toList
    ++ '/' :: Text.joinWith '/' (names.map fun name => encode (trimSlashes name.toList)))

/-- The address as it is asked for: without the blanks at its ends. -/
def requested (url : String) : String :=
  Text.trimmed url

end Url
end Consignment
