import AudioLink.Address.Text
import AudioLink.Settings

/-!
# Failures

Why a controller cannot be built, or a request cannot be taken.
-/

namespace AudioLink

/-- What a host is told instead of a result. -/
inductive Failure where
  /-- A device was named by a text that is not an address. -/
  | invalidAddress (cause : Address.ParseError)
  /-- The settings are wrong, for the reason given. -/
  | configuration (reason : String)
  /-- The user has forbidden links to the device. -/
  | refused (device : Address)
  /-- Nobody takes messages any more. -/
  | notRunning
  /-- The controller could not be started, for the reason given. -/
  | notStarted (reason : String)
  /-- The controller did not end in order, for the reason given. -/
  | notStopped (reason : String)
  /-- There is nothing to ask for links. -/
  | missingStack
deriving DecidableEq, Repr

namespace Failure

def message : Failure → String
  | invalidAddress cause => "Invalid device address: " ++ cause.message
  | configuration reason => "Invalid configuration: " ++ reason
  | refused device => "Connection to " ++ device.text ++ " refused: priority is off"
  | notRunning => "Connection worker is not running"
  | notStarted reason => "Failed to start connection worker: " ++ reason
  | notStopped reason => "Shutdown failed: " ++ reason
  | missingStack => "A lower stack gateway is required"

def ofProblem (problem : Settings.Problem) : Failure :=
  configuration problem.message

end Failure

end AudioLink
