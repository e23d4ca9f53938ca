import UniversalRemote.Session.Error
/-!
# Errors of the command line

Why a command failed: its session failed, a file could not be used, or an argument has no meaning.
-/

namespace UniversalRemote.CommandLine

inductive CommandError where
  | session (cause : SessionError)
  /-- A file of settings is missing, or has no meaning. -/
  | settings (path : String)
  | load (path : String)
  | save (path : String)
  | time (text : String)
  deriving DecidableEq, Repr

namespace CommandError

/-- The wording of a failure, without the cause of a wider failure. -/
def headline : CommandError → String
  | session cause => cause.headline
  | settings path => s!"Failed to load {path}"
  | load path => s!"Failed to read {path}"
  | save path => s!"Failed to write {path}"
  | time text => s!"Invalid time '{text}'"

def message : CommandError → String
  | session cause => cause.message
  | e => e.headline

end CommandError

end UniversalRemote.CommandLine
