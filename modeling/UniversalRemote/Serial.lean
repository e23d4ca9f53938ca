import UniversalRemote.Text.Numeral
/-!
# Serial numbers

Serial numbers are 16 bytes each, written as hexadecimal groups in braces. The first three groups
are stored with their least significant byte first.
-/

namespace UniversalRemote.Serial

/-- The positions of the stored bytes in the order in which they are written, group by group. -/
def groups : List (List Nat) :=
  [[3, 2, 1, 0], [5, 4], [7, 6], [8, 9], [10, 11, 12, 13, 14, 15]]

def group (raw : List UInt8) (positions : List Nat) : List Char :=
  positions.flatMap fun i => Hex.pair (raw.getD i 0)

/-- The stored bytes as they are written, group by group. -/
def grouped (raw : List UInt8) : List (List UInt8) :=
  groups.map fun positions => positions.map fun i => raw.getD i 0

theorem map_group (raw : List UInt8) :
    groups.map (group raw) = (grouped raw).map (·.flatMap Hex.pair) := by
  rw [grouped, List.map_map]
  exact List.map_congr_left fun positions _ => (List.flatMap_map ..).symm

def text (raw : List UInt8) : String :=
  String.ofList ('\x7b' :: ['-'].intercalate (groups.map (group raw)) ++ ['\x7d'])

/-- The texts of as many complete serial numbers as the bytes hold. -/
def ofBytes (raw : List UInt8) : List String :=
  (List.range (raw.length / 16)).map fun i => text ((raw.drop (16 * i)).take 16)

theorem length_take_drop {raw : List UInt8} {i : Nat} (h : i < raw.length / 16) :
    ((raw.drop (16 * i)).take 16).length = 16 := by
  rw [List.length_take, List.length_drop]
  omega

end UniversalRemote.Serial
