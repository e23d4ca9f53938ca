import UniversalRemote.Family
import UniversalRemote.Text.Utf8
import UniversalRemote.Toml.Document
/-!
# Session settings

How a remote is found and treated, with the table that keeps it in a file. What is not set has no key
there. Where a key is left out its setting has the usual value, and unknown keys are passed over. The
format of the file is a parameter: whatever writes and reads TOML will do.
-/

namespace UniversalRemote

/-- How a remote is found and treated. -/
structure Settings where
  /-- The family to assume, whatever the product is. -/
  family : Option Family := none
  /-- The address of remotes on the network. -/
  address : String := "169.254.1.2:3074"
  vendorId : Option UInt16 := none
  productId : Option UInt16 := none
  /-- Whether flash is read back after it was written. -/
  verifies : Bool := true
  deriving DecidableEq, Repr

namespace Settings

open Toml

/-- The keys of a document of settings. -/
def familyKey : String := "family"

def addressKey : String := "net_address"

def vendorKey : String := "vendor_id"

def productKey : String := "product_id"

def verifiesKey : String := "verify_after_write"

/-- The value of a key, or its usual value where the document does not have it. -/
def field (entries : Entries) (key : String) (usual : α) (read? : Value → Option α) : Option α :=
  match entries.lookup key with
  | some value => read? value
  | none => some usual

/-- A family: its name, or a table whose only key is that name and holds nothing. -/
def family? : Value → Option Family
  | .string name => Family.ofName? name
  | .table _ [(name, .array [])] => Family.ofName? name
  | .table _ [(name, .table _ [])] => Family.ofName? name
  | _ => none

def string? : Value → Option String
  | .string text => some text
  | _ => none

def word? : Value → Option UInt16
  | .integer n => if 0 ≤ n ∧ n < 0x10000 then some (UInt16.ofNat n.toNat) else none
  | _ => none

def boolean? : Value → Option Bool
  | .boolean b => some b
  | _ => none

def ofEntries? (entries : Entries) : Option Settings := do
  return {
    family := ← field entries familyKey none fun v => some <$> family? v
    address := ← field entries addressKey (Settings.address {}) string?
    vendorId := ← field entries vendorKey none fun v => some <$> word? v
    productId := ← field entries productKey none fun v => some <$> word? v
    verifies := ← field entries verifiesKey (Settings.verifies {}) boolean? }

/-- The entries that settings are kept as. What is not set has none. -/
def entries (s : Settings) : Entries :=
  (s.family.elim [] fun f => [(familyKey, .string f.name)])
    ++ [(addressKey, .string s.address)]
    ++ (s.vendorId.elim [] fun n => [(vendorKey, .integer n.toNat)])
    ++ (s.productId.elim [] fun n => [(productKey, .integer n.toNat)])
    ++ [(verifiesKey, .boolean s.verifies)]

/-- The contents of the file that settings are saved to. -/
def save? (format : Format) (s : Settings) : Option (List UInt8) :=
  Utf8.encode <$> format.print? s.entries

def load? (format : Format) (bytes : List UInt8) : Option Settings := do
  ofEntries? (← format.read? (← Utf8.decode? bytes))

def ofText? (text : String) : Option Settings := do
  ofEntries? (← Toml.format.read? text)

def text (s : Settings) : String :=
  (Toml.format.print? s.entries).getD ""

end Settings

end UniversalRemote
