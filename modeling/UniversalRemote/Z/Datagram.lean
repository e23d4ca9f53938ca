import UniversalRemote.Z.Request
/-!
# Requests in single reports

Over reports, a short request travels as one datagram: its length, a flag, a type, the command and
the parameters. The answer has a status behind the command.
-/

namespace UniversalRemote.Z

open Exchange

def datagramLimit : Nat := 60

def datagram (command : UInt8) (payload : List UInt8) : Report :=
  [UInt8.ofNat (3 + payload.length), 0x01, 0x00, command] ++ payload

/-- The answer that a report carries; its first byte counts those behind it. -/
def Response.ofDatagram (report : Report) : Except ProtocolError Response :=
  let length := (report.headD 0).toNat
  if length < 4 ∨ report.length < length + 1 then
    .error (.shortPacket (max length 4 + 1) report.length)
  else
    let data := (report.drop 1).take length
    (ParameterList.ofDatagram data).map fun parameters =>
      { command := data.getD 2 0, status := data.getD 3 0, parameters }

def requestDatagram (command : UInt8) (parameters : ParameterWriter) (timeout : Nat) :
    Exchange RemoteError Response := do
  let payload := if parameters.count = 0 then [] else parameters.finish
  if datagramLimit < payload.length then
    refuse (.invalidArgument
      s!"datagram payload of {payload.length} bytes exceeds {datagramLimit}")
  send (datagram command payload)
  check (Response.ofDatagram (← receive timeout))

def hidLink : Link where
  family := .zHid
  order := .little
  request := requestDatagram

end UniversalRemote.Z
