import AudioLink.Text.Blank
import AudioLink.Text.Pieces

/-!
# Log modes

How a process writes its log. The mode is chosen by name. A mode that writes anything
can be installed once in a process; silence needs no installation and is always granted.
-/

namespace AudioLink

/-- How a process writes its log. -/
inductive LogMode where
  | silent
  | development
  | debug
  | json
deriving DecidableEq, Repr

namespace LogMode

/-- The variable that holds the mode. -/
def variableName : String := "A2DP_LOG_MODE"

/-- The mode with the given name, whatever the case of its ASCII letters. -/
def ofName? (name : String) : Option LogMode :=
  match String.ofList (Text.lower (Text.trim name.toList)) with
  | "silent" => some silent
  | "development" | "dev" => some development
  | "debug" => some debug
  | "json" => some json
  | _ => none

/-- The mode that a variable chooses; silence where it is not set, or names no mode. -/
def ofVariable (held : Option String) : LogMode :=
  (held.bind ofName?).getD silent

/-- Whether a mode is installed after this one was asked for; none where it is refused,
because one is installed already. -/
def install (mode : LogMode) (installed : Bool) : Option Bool :=
  match mode with
  | silent => some installed
  | development | debug | json => if installed then none else some true

end LogMode

end AudioLink
