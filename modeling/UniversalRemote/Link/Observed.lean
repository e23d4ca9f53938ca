import UniversalRemote.Link.Program
/-!
# Observed links

On an observed link the observer is also told of every report that went over it: of each write that
succeeded, and of each report read that is not empty.
-/

namespace UniversalRemote

/-- The number of bytes of a report that an observer is shown. -/
def previewSize : Nat := 32

def Event.ofReport (direction : Direction) (report : Report) : Event :=
  .packet direction report.length (some (report.take previewSize))

namespace Program

def observed : Program α → Program α
  | done result => done result
  | write report next => .write report fun
    | .ok () => .notify (.ofReport .sent report) (next (.ok ())).observed
    | .error cause => (next (.error cause)).observed
  | read timeout next => .read timeout fun
    | .ok [] => (next (.ok [])).observed
    | .ok (b :: rest) => .notify (.ofReport .received (b :: rest)) (next (.ok (b :: rest))).observed
    | .error cause => (next (.error cause)).observed
  | notify event next => .notify event next.observed

end Program

end UniversalRemote
