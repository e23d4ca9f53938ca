import UniversalRemote.Identity
import UniversalRemote.Serial
import UniversalRemote.Text.Line
import UniversalRemote.Text.Utf8
/-!
# System descriptions

A remote that keeps files describes itself in one of them: a line for each property, its name, a
space and its value.
-/

namespace UniversalRemote.Sysinfo

/-- The value of the first line that has a key. The key may be followed by colons. -/
def value (text : List Char) (key : String) : List Char :=
  ((Text.lines text).findSome? fun line => do
    let (name, value) ← Text.splitAtSpace line
    if Text.dropEndWhile (· == ':') name = key.toList then some (Text.trim value) else none).getD []

def digit? (base : Nat) (b : UInt8) : Option Nat :=
  (Hex.value? (Char.ofNat b.toNat)).filter (· < base)

def digits (base : Nat) (bytes : List UInt8) : Nat :=
  (bytes.map (digit? base)).takeWhile (·.isSome) |>.foldl (fun n d => n * base + d.getD 0) 0

/-- The 32-bit number that leading digits spell; one that is too large counts as zero. -/
def number (base : Nat) (bytes : List UInt8) : Nat :=
  let n := digits base bytes
  if n < 0x100000000 then n else 0

/-- The bytes of a text without a hexadecimal mark. -/
def unmark (bytes : List UInt8) : List UInt8 :=
  match bytes with
  | 0x30 :: 0x78 :: rest => rest
  | 0x30 :: 0x58 :: rest => rest
  | _ => bytes

/-- The hexadecimal number that begins a text, with or without a mark. -/
def hexNumber (bytes : List UInt8) : Nat :=
  number 16 (unmark bytes)

/-- The number in a pair of characters: two digits, or a plus sign and one digit. -/
def pair? (high low : UInt8) : Option UInt8 := do
  let low ← digit? 16 low
  if high = 0x2B then return UInt8.ofNat low
  let high ← digit? 16 high
  return UInt8.ofNat (high * 16 + low)

/-- The first `count` bytes that pairs of characters spell. -/
def pairs? : Nat → List UInt8 → Option (List UInt8)
  | 0, _ => some []
  | count + 1, high :: low :: rest => do return (← pair? high low) :: (← pairs? count rest)
  | _, _ => none

/-- The 48 bytes of serial numbers in a marked hexadecimal text. -/
def guid? (bytes : List UInt8) : Option (List UInt8) :=
  match bytes with
  | 0x30 :: 0x78 :: rest => pairs? 48 rest
  | _ => none

/-- The identity that the contents of a description tell. They end at the first zero byte. The
minor version is looked for behind the first two bytes of the version. -/
def identity (contents : List UInt8) : Identity :=
  let text := Utf8.scalars (contents.takeWhile (· != 0))
  let property := fun key => Utf8.encode (String.ofList (value text key))
  let version := property "fw_ver"
  { family := .mh
    firmwareMajor := UInt16.ofNat (number 10 version)
    firmwareMinor := UInt16.ofNat (number 10 (version.drop 2))
    firmwareType := UInt8.ofNat (hexNumber (property "fw_type"))
    hardwareMajor := UInt8.ofNat (hexNumber (property "hw_ver"))
    architectureCode := UInt16.ofNat (hexNumber (property "arch"))
    skin := UInt16.ofNat (hexNumber (property "skin"))
    flashDevice := 0x12
    flashManufacturer := 0xFF
    protocol := 9
    serials := ((guid? (property "guid")).map Serial.ofBytes).getD [] }

end UniversalRemote.Sysinfo
