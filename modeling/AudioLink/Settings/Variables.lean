import AudioLink.Failure
import AudioLink.Settings
import AudioLink.Text.Blank
import AudioLink.Text.Pieces
import AudioLink.Text.Numeral

/-!
# Settings from variables

Each setting may be given by an environment variable; one that is not set leaves the
default. The variables are read in the order count, quiet mode, time, and the settings
they give are validated last, so the first complaint in that order is the one made.
-/

namespace AudioLink.Settings

/-- The texts held by the variables that are set. -/
structure Variables where
  capacity : Option String := none
  quiet : Option String := none
  timeout : Option String := none
deriving DecidableEq, Repr

namespace Variables

/-- The variable that holds the count. -/
def capacityName : String := "A2DP_MAX_CONNECTIONS"

/-- The variable that holds the quiet mode. -/
def quietName : String := "A2DP_QUIET_MODE"

/-- The variable that holds the time, in milliseconds. -/
def timeoutName : String := "A2DP_CONNECT_TIMEOUT_MS"

/-- The variables of an environment that concern the settings. -/
def ofEnvironment (lookup : String → Option String) : Variables where
  capacity := lookup capacityName
  quiet := lookup quietName
  timeout := lookup timeoutName

end Variables

/-- The truth value that a text denotes, whatever the case of its ASCII letters. -/
def boolean? (held : String) : Option Bool :=
  let word := String.ofList (Text.lower (Text.trim held.toList))
  if word ∈ ["1", "true", "yes", "on"] then some true
  else if word ∈ ["0", "false", "no", "off"] then some false
  else none

/-- The count that a text denotes. -/
def count? (held : String) : Option UInt64 :=
  (Text.numeral? UInt64.size (Text.trim held.toList)).map UInt64.ofNat

/-- The count held by a variable, or the default where it is not set. -/
def readCount (name : String) (default : UInt64) : Option String → Except Problem UInt64
  | none => .ok default
  | some held => (count? held).elim (.error (.notANumber name held)) .ok

/-- The truth value held by a variable, or the default where it is not set. -/
def readBoolean (name : String) (default : Bool) : Option String → Except Problem Bool
  | none => .ok default
  | some held => (boolean? held).elim (.error (.notABoolean name held)) .ok

/-- The time held by a variable, or the default where it is not set. -/
def readTimeout (name : String) (default : Duration) : Option String → Except Problem Duration
  | none => .ok default
  | some held => (count? held).elim (.error (.notANumber name held)) (.ok ∘ Duration.ofMillis)

/-- The settings that the variables give, before they are validated. -/
def read (vars : Variables) : Except Problem Settings := do
  let unset : Settings := {}
  let capacity ← readCount Variables.capacityName unset.capacity vars.capacity
  let quiet ← readBoolean Variables.quietName unset.quiet vars.quiet
  let timeout ← readTimeout Variables.timeoutName unset.timeout vars.timeout
  pure { capacity, quiet, timeout }

/-- The settings that the variables give, if they are valid. -/
def ofVariables (vars : Variables) : Except Problem Settings := do
  let settings ← read vars
  settings.validate
  pure settings

/-- The settings that an environment gives. What is wrong with them is a failure to configure. -/
def ofEnvironment (lookup : String → Option String) : Except Failure Settings :=
  (ofVariables (.ofEnvironment lookup)).mapError .ofProblem

/-- Settings that are accepted are valid. -/
theorem validate_of_ofVariables {vars : Variables} {s : Settings}
    (h : ofVariables vars = .ok s) : s.validate = .ok () := by
  unfold ofVariables at h
  cases hread : read vars with
  | error p => simp [hread, bind, Except.bind] at h
  | ok settings =>
    cases hvalid : settings.validate with
    | error p => simp [hread, hvalid, bind, Except.bind] at h
    | ok _ =>
      simp only [hread, hvalid, bind, Except.bind, pure, Except.pure, Except.ok.injEq] at h
      exact h ▸ hvalid

end AudioLink.Settings
