import Mathlib
import Kidobo.Foundation.Program

/-!
# External commands

The command boundary shared by the ipset and firewall adapters: what is run,
what comes back, and the programs that issue commands one after another.
-/

namespace Kidobo

open Foundation

/-- Portable process termination state used by command adapters. -/
inductive ProcessStatus where
  | exited (code : ℤ)
  | signaled (signal : ℤ)
  | other
  deriving DecidableEq, Repr

namespace ProcessStatus

/-- The normal exit code, if available. -/
def code : ProcessStatus → Option ℤ
  | exited code => some code
  | signaled _ => none
  | other => none

/-- The debugging text of a termination state. -/
def debugText : ProcessStatus → String
  | exited code => s!"Exited({code})"
  | signaled signal => s!"Signaled({signal})"
  | other => "Other"

/-- True only for a normal zero exit. -/
def success (status : ProcessStatus) : Bool := status == exited 0

end ProcessStatus

/-- Subprocess status and output. -/
structure CommandResult where
  status : ProcessStatus
  stdout : String
  stderr : String
  deriving DecidableEq, Repr

/-- Failure to run a command at all. -/
inductive CommandRunnerError where
  | spawn (command source : String)
  | poll (command source : String)
  | output (command source : String)
  | timeout (command : String) (timeoutMs : ℕ)
  deriving DecidableEq, Repr

/-- The operator text of a runner failure. -/
def CommandRunnerError.display : CommandRunnerError → String
  | spawn command cause => s!"failed to spawn command `{command}`: {cause}"
  | poll command cause => s!"failed to poll command `{command}`: {cause}"
  | output command cause => s!"failed to read output for command `{command}`: {cause}"
  | timeout command timeoutMs => s!"command `{command}` timed out after {timeoutMs} ms"

/-- One command handed to the runner. -/
structure CommandLine where
  command : String
  args : List String
  deriving DecidableEq, Repr

/-- What the runner answers. -/
abbrev CommandResponse := Except CommandRunnerError CommandResult

/-- A program that issues commands. -/
abbrev CommandProgram (ε α : Type) := Program CommandLine (fun _ => CommandResponse) ε α

/-- `display_command`. -/
def displayCommand (command : String) (args : List String) : String :=
  if args.isEmpty then command else command ++ " " ++ " ".intercalate args

/-- A response that reports no success. -/
def Unsuccessful : CommandResponse → Prop
  | .ok result => result.status.success = false
  | .error _ => True

end Kidobo
