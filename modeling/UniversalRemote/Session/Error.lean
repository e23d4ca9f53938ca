import UniversalRemote.Error
/-!
# Session errors

Why an operation of a session failed. A message begins with what the session was about; its headline
leaves the cause out.
-/

namespace UniversalRemote

/-- What a session was about when its remote failed. -/
inductive Activity where
  | identifying
  | updating
  | verifying
  deriving DecidableEq, Repr

def Activity.failure : Activity → String
  | identifying => "Failed to identify remote"
  | updating => "Configuration update failed"
  | verifying => "Verification after write failed"

inductive SessionError where
  /-- The remote failed. -/
  | remote (cause : RemoteError)
  /-- The remote failed during an activity. -/
  | during (activity : Activity) (cause : RemoteError)
  /-- The remote is of a kind that the operation does not know. -/
  | unknownKind (cause : ProtocolError)
  /-- The link could not be opened. -/
  | opening (cause : LinkError)
  | badAddress (address : String)
  | partialIds
  | noConfiguration
  | emptyConfiguration
  | tooLong (length : Nat) (capacity : UInt32)
  deriving DecidableEq, Repr

namespace SessionError

def headline : SessionError → String
  | remote cause => cause.message
  | during activity _ => activity.failure
  | unknownKind cause => cause.message
  | opening cause => cause.message
  | badAddress address => s!"Invalid network address {address}"
  | partialIds => "Vendor and product id must be overridden together"
  | noConfiguration => "Remote holds no valid configuration"
  | emptyConfiguration => "Refusing to write an empty configuration"
  | tooLong length capacity =>
    s!"Configuration of {length} bytes exceeds the {capacity.toNat}-byte config area"

def causeText? : SessionError → Option String
  | during _ cause => some cause.message
  | badAddress _ => some "invalid socket address syntax"
  | _ => none

def message (e : SessionError) : String :=
  match e.causeText? with
  | some cause => s!"{e.headline}: {cause}"
  | none => e.headline

end SessionError

end UniversalRemote
