/-!
# Link states

The radio layer reports a link as one of four states and a stream as one of three,
each by a small integer code. Listeners are told only whether a device plays.
-/

namespace AudioLink

/-- How far the link to a device is. -/
inductive LinkState where
  | disconnected
  | connecting
  | connected
  | disconnecting
deriving DecidableEq, Repr

/-- What the radio layer reports of the stream to a device. -/
inductive StreamState where
  | remoteSuspend
  | stopped
  | started
deriving DecidableEq, Repr

/-- Whether a device plays, as listeners are told it. -/
inductive PlayState where
  | notPlaying
  | playing
deriving DecidableEq, Repr

/-- The rate and the number of channels of a stream. -/
structure StreamFormat where
  sampleRate : UInt32
  channels : UInt8
deriving DecidableEq, Repr

/-! ## Codes -/

/-- A code that names no state, with the kind of state it was read for. -/
inductive UnknownCode where
  | link (code : Int)
  | stream (code : Int)
deriving DecidableEq, Repr

def UnknownCode.message : UnknownCode → String
  | .link code => "Unknown connection state value from native layer: " ++ toString code
  | .stream code => "Unknown audio state value from native layer: " ++ toString code

def LinkState.ofCode (code : Int) : Except UnknownCode LinkState :=
  if code = 0 then .ok .disconnected
  else if code = 1 then .ok .connecting
  else if code = 2 then .ok .connected
  else if code = 3 then .ok .disconnecting
  else .error (.link code)

def StreamState.ofCode (code : Int) : Except UnknownCode StreamState :=
  if code = 0 then .ok .remoteSuspend
  else if code = 1 then .ok .stopped
  else if code = 2 then .ok .started
  else .error (.stream code)

/-! ## Facts about the states -/

/-- The name shown to a person. -/
def LinkState.label : LinkState → String
  | .disconnected => "DISCONNECTED"
  | .connecting => "CONNECTING"
  | .connected => "CONNECTED"
  | .disconnecting => "DISCONNECTING"

def LinkState.isActive : LinkState → Bool
  | .connecting | .connected => true
  | .disconnected | .disconnecting => false

/-- The name shown to a person. -/
def PlayState.label : PlayState → String
  | .notPlaying => "NOT_PLAYING"
  | .playing => "PLAYING"

/-- A device plays while its stream is started. -/
def StreamState.playState : StreamState → PlayState
  | .started => .playing
  | .stopped | .remoteSuspend => .notPlaying

def StreamFormat.isStereo (format : StreamFormat) : Bool :=
  2 ≤ format.channels

end AudioLink
