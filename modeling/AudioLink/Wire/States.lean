import AudioLink.Link
import AudioLink.Priority
import AudioLink.Settings
import AudioLink.Machine.Snapshot
import AudioLink.Wire.Codec

/-!
# States, formats and settings as structured values

States are words. Formats, durations and settings are records.
-/

namespace AudioLink

open Wire

/-! ## Words -/

/-- The word for a link state. -/
def LinkState.name : LinkState → String
  | .disconnected => "Disconnected"
  | .connecting => "Connecting"
  | .connected => "Connected"
  | .disconnecting => "Disconnecting"

/-- The word for a stream state. -/
def StreamState.name : StreamState → String
  | .remoteSuspend => "RemoteSuspend"
  | .stopped => "Stopped"
  | .started => "Started"

/-- The word for a play state. -/
def PlayState.name : PlayState → String
  | .notPlaying => "NotPlaying"
  | .playing => "Playing"

/-- The word for a priority. -/
def Priority.name : Priority → String
  | .off => "Off"
  | .undefined => "Undefined"
  | .on => "On"
  | .autoConnect => "AutoConnect"

/-- The word for what the machine is about. -/
def Activity.name : Activity → String
  | .idle => "Idle"
  | .pending => "Pending"
  | .connected => "Connected"
  | .admissionPending => "AdmissionPending"

instance : Codec LinkState where
  encode s := .text s.name
  decode := decodeWord LinkState.name [.disconnected, .connecting, .connected, .disconnecting]

instance : Codec StreamState where
  encode s := .text s.name
  decode := decodeWord StreamState.name [.remoteSuspend, .stopped, .started]

instance : Codec PlayState where
  encode s := .text s.name
  decode := decodeWord PlayState.name [.notPlaying, .playing]

instance : Codec Priority where
  encode p := .text p.name
  decode := decodeWord Priority.name [.off, .undefined, .on, .autoConnect]

instance : Codec Activity where
  encode a := .text a.name
  decode := decodeWord Activity.name [.idle, .pending, .connected, .admissionPending]

/-! ## Records -/

instance : Codec StreamFormat where
  encode f := .named [("sample_rate", encode f.sampleRate), ("channel_count", encode f.channels)]
  decode v := do
    let [sampleRate, channels] ← v.record? [required "sample_rate", required "channel_count"]
      | none
    pure { sampleRate := ← decode sampleRate, channels := ← decode channels }

/-- Whole seconds among the nanoseconds are carried over. No other name may stand in it. -/
instance : Codec Duration where
  encode d := .named [("secs", encode d.seconds), ("nanos", .whole d.nanos)]
  decode v := do
    let [seconds, nanos] ← v.closedRecord? [required "secs", required "nanos"] | none
    Duration.ofParts? (← seconds.natural? UInt64.size) (← nanos.natural? UInt32.size)

instance : Codec Settings where
  encode s := .named [("max_connections", encode s.capacity), ("quiet_mode", encode s.quiet),
    ("connect_timeout", encode s.timeout)]
  decode v := do
    let [capacity, quiet, timeout] ← v.record?
        [required "max_connections", required "quiet_mode", required "connect_timeout"]
      | none
    pure {
      capacity := ← decode capacity
      quiet := ← decode quiet
      timeout := ← decode timeout }

end AudioLink
