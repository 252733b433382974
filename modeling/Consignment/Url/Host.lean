import Consignment.Text.Digits
import Consignment.Text.Split

namespace Consignment
namespace Url

/-!
# Numeric hosts

The host between the brackets of an address has to be an address of the version-six
kind: eight groups of up to four hexadecimal digits, with one run of groups
possibly left out, the last two groups possibly written in the version-four way, and
possibly a zone after a percent sign.  The version-four kind is recognised to be told
apart from what is no address at all.
-/

/-- One to three digits without a leading zero, up to 255. -/
def isOctet (cs : List Char) : Bool :=
  cs ≠ [] && cs.all Char.isDigit && cs.length ≤ 3 && (cs == ['0'] || cs.head? != some '0')
    && cs.foldl (fun n c => n * 10 + (c.toNat - 0x30)) 0 ≤ 255

def isVersionFour (cs : List Char) : Bool :=
  let octets := Text.splitAt '.' cs
  octets.length == 4 && octets.all isOctet

/-- One to four hexadecimal digits. -/
def isGroup (cs : List Char) : Bool :=
  cs ≠ [] && cs.length ≤ 4 && cs.all fun c => (Text.hexDigit? c).isSome

/-- The groups of an address, a version-four end written as two groups; `none` when
that end is malformed. -/
def groups? (cs : List Char) : Option (List (List Char)) :=
  let parts := Text.splitAt ':' cs
  match parts.getLast? with
  | some last =>
    if last.contains '.' then
      if isVersionFour last then some (parts.dropLast ++ [['0'], ['0']]) else none
    else some parts
  | none => none

/-- Whether groups make up an address when a run is left out before some group. -/
def areGroups (parts : List (List Char)) : Bool :=
  let inner := (parts.drop 1).dropLast
  let gaps := inner.countP (· = [])
  if gaps = 0 then parts.length == 8 && parts.all isGroup
  else if gaps = 1 then
    let gap := 1 + inner.findIdx (· = [])
    let high := parts.take gap
    let low := parts.drop (gap + 1)
    let high := if high == [[]] then [] else high
    let low := if low == [[]] then [] else low
    high.all isGroup && low.all isGroup && high.length + low.length < 8
  else false

/-- An address of the version-six kind, possibly with a zone. -/
def isVersionSix (cs : List Char) : Bool :=
  let address := cs.takeWhile (· != '%')
  let zoned := match cs.drop address.length with
    | [] => true
    | _ :: zone => zone ≠ [] && !zone.contains '%'
  zoned && 3 ≤ (Text.splitAt ':' address).length &&
    match groups? address with
    | none => false
    | some parts => parts.length ≤ 9 && areGroups parts

/-- An address of a kind that is still to come: a version and something after it. -/
def isFuture (cs : List Char) : Bool :=
  match cs with
  | 'v' :: rest =>
    let version := rest.takeWhile fun c => (Text.hexDigit? c).isSome
    match rest.drop version.length with
    | '.' :: tail => version ≠ [] && tail ≠ [] && tail.all (· != '\n')
    | _ => false
  | _ => false

end Url
end Consignment
