import UniversalRemote.ByteOrder
import UniversalRemote.Parameter.Length
import UniversalRemote.Text.Utf8
/-!
# Writing parameter lists

A parameter list is a count byte and, for each parameter, a length byte and its bytes. The count is
a byte, so the list has room for 255 parameters.
-/

namespace UniversalRemote

/-- A parameter list being built: its encoded parameters, oldest first. -/
structure ParameterWriter where
  order : ByteOrder
  entries : List (List UInt8) := []
  deriving DecidableEq, Repr

namespace ParameterWriter

def count (w : ParameterWriter) : Nat :=
  w.entries.length

/-- Appends an encoded parameter; the count byte has no room for a 256th. -/
def push (w : ParameterWriter) (entry : List UInt8) : Except (Halt ProtocolError) ParameterWriter :=
  if w.count < 255 then .ok { w with entries := w.entries ++ [entry] } else .error .overflow

def byte (w : ParameterWriter) (b : UInt8) : Except (Halt ProtocolError) ParameterWriter :=
  w.push [1, b]

def word (w : ParameterWriter) (n : UInt16) : Except (Halt ProtocolError) ParameterWriter :=
  w.push (2 :: w.order.bytes16 n)

def dword (w : ParameterWriter) (n : UInt32) : Except (Halt ProtocolError) ParameterWriter :=
  w.push (4 :: w.order.bytes32 n)

/-- Appends a byte string, if its length can be announced. -/
def bytes (w : ParameterWriter) (data : List UInt8) :
    Except (Halt ProtocolError) ParameterWriter :=
  match Length.encode data.length with
  | .ok length => w.push (length :: data)
  | .error cause => .error (.failed cause)

/-- Appends a text and the zero byte that ends it. -/
def text (w : ParameterWriter) (s : String) : Except (Halt ProtocolError) ParameterWriter :=
  w.bytes (Utf8.encode s ++ [0])

def finish (w : ParameterWriter) : List UInt8 :=
  UInt8.ofNat w.count :: w.entries.flatten

end ParameterWriter

end UniversalRemote
