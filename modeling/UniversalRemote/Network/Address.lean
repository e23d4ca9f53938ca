import UniversalRemote.Text.Numeral
import UniversalRemote.Text.Scan
/-!
# Network addresses

The address of a peer on a network: a host and a port, with their text. `Address.ofText?` admits
every usual spelling; `Address.text` writes the canonical one.
-/

namespace UniversalRemote

structure IPv4 where
  a : UInt8
  b : UInt8
  c : UInt8
  d : UInt8
  deriving DecidableEq, Repr

/-- A version 6 host: eight groups of sixteen bits. -/
structure IPv6 where
  groups : Vector UInt16 8
  deriving DecidableEq, Repr

/-- A host and a port. A version 6 host may be scoped to one of the links that it is seen on. -/
inductive Address where
  | v4 (host : IPv4) (port : UInt16)
  | v6 (host : IPv6) (scope : UInt32) (port : UInt16)
  deriving DecidableEq, Repr

namespace Address

open Scan

/-- A number below `bound` of at most `width` digits. Unless `zeros` are admitted in front of it,
only zero itself begins with one. -/
def number (base bound : Nat) (width : Option Nat) (zeros : Bool) : Scan Nat := do
  let digits ← takeWhile1 fun c => (Hex.value? c).any (· < base)
  let value := Numeral.ofDigits base digits
  if bound ≤ value || width.any (· < digits.length) then failure
  if !zeros && 1 < digits.length && digits.head? == some '0' then failure
  return value

/-- One of the four numbers of a version 4 host. -/
def octet : Scan UInt8 :=
  UInt8.ofNat <$> number 10 256 (some 3) false

def ipv4 : Scan IPv4 := do
  let a ← octet
  char '.'
  let b ← octet
  char '.'
  let c ← octet
  char '.'
  return ⟨a, b, c, ← octet⟩

/-- The last two groups of a version 6 host that ends with a version 4 one. -/
def embedded (host : IPv4) : List UInt16 :=
  [host.a.toUInt16 * 256 + host.b.toUInt16, host.c.toUInt16 * 256 + host.d.toUInt16]

/-- At most `limit` groups, the first of them behind `separator`, and whether a version 4 host
stands for the last two. -/
def groups (separator : Scan Unit) : Nat → Scan (List UInt16 × Bool)
  | 0 => pure ([], false)
  | limit + 1 => do
    let host ← if limit = 0 then pure none else optional (separator *> ipv4)
    match host with
    | some host => return (embedded host, true)
    | none =>
      match ← optional (separator *> number 16 0x10000 (some 4) true) with
      | some group =>
        let (more, closed) ← groups (char ':') limit
        return (UInt16.ofNat group :: more, closed)
      | none => return ([], false)

/-- The host that begins with some groups and ends with others, with zeros between them. -/
def ofEnds (first last : List UInt16) : IPv6 where
  groups := .ofFn fun i =>
    if i < first.length then first.getD i 0
    else if 8 ≤ i + last.length then last.getD (i + last.length - 8) 0
    else 0

def ipv6 : Scan IPv6 := do
  let (first, closed) ← groups (pure ()) 8
  if first.length = 8 then return ofEnds first []
  if closed then failure
  word [':', ':']
  let (last, _) ← groups (pure ()) (7 - first.length)
  return ofEnds first last

def port : Scan UInt16 := do
  char ':'
  return UInt16.ofNat (← number 10 0x10000 none true)

def scope : Scan UInt32 := do
  char '%'
  return UInt32.ofNat (← number 10 0x100000000 none true)

def socket4 : Scan Address := do
  let host ← ipv4
  return v4 host (← port)

/-- An address with a version 6 host, which stands in brackets. -/
def socket6 : Scan Address := do
  char '['
  let host ← ipv6
  let scope ← optional scope
  char ']'
  return v6 host (scope.getD 0) (← port)

def ofText? (text : String) : Option Address :=
  (socket4 <|> socket6).whole? text.toList

end Address

namespace IPv4

def text (host : IPv4) : String :=
  s!"{host.a.toNat}.{host.b.toNat}.{host.c.toNat}.{host.d.toNat}"

end IPv4

namespace IPv6

/-- The version 4 host that the last groups stand for, if the others say that they do. -/
def mapped? (host : IPv6) : Option IPv4 :=
  match host.groups.toList with
  | [0, 0, 0, 0, 0, 0xFFFF, high, low] =>
    some ⟨(high / 256).toUInt8, high.toUInt8, (low / 256).toUInt8, low.toUInt8⟩
  | _ => none

def joined (groups : List UInt16) : String :=
  ":".intercalate (groups.map fun g => String.ofList ((Hex.digits g.toNat).map Char.toLower))

/-- The number of zero groups that some groups begin with. -/
def zeros (groups : List UInt16) : Nat :=
  (groups.takeWhile (· == 0)).length

/-- The place and the length of the first of the longest runs of zeros. -/
def longestZeros : List UInt16 → Nat × Nat
  | [] => (0, 0)
  | g :: rest =>
    let (place, length) := longestZeros rest
    if length ≤ zeros (g :: rest) then (0, zeros (g :: rest)) else (place + 1, length)

/-- The text of a host. The first of the longest runs of two or more zeros is left out. -/
def text (host : IPv6) : String :=
  match host.mapped? with
  | some host => s!"::ffff:{host.text}"
  | none =>
    let groups := host.groups.toList
    let (place, length) := longestZeros groups
    if length ≤ 1 then joined groups
    else joined (groups.take place) ++ "::" ++ joined (groups.drop (place + length))

end IPv6

namespace Address

def text : Address → String
  | v4 host port => s!"{host.text}:{port.toNat}"
  | v6 host scope port =>
    let link := if scope = 0 then "" else s!"%{scope.toNat}"
    s!"[{host.text}{link}]:{port.toNat}"

end Address

end UniversalRemote
