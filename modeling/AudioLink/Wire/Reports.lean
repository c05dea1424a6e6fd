import AudioLink.Notice
import AudioLink.Machine.Snapshot
import AudioLink.Stack
import AudioLink.Wire.States

/-!
# Events, notices and snapshots as structured values

An event and a notice are one named value: its name tells the kind, its value holds the
fields, which here have to be named. A snapshot is a record in which the roles of single
devices may be left out where nobody holds them.
-/

namespace AudioLink

open Wire

/-! ## Events -/

/-- An event as a structured value. -/
def StackEvent.toValue : StackEvent → Value
  | .link d state => .named [("ConnectionStateChanged",
      .named [("device", encode d), ("state", encode state)])]
  | .stream d state => .named [("AudioStateChanged",
      .named [("device", encode d), ("state", encode state)])]
  | .format d negotiated => .named [("AudioConfigChanged",
      .named [("device", encode d), ("config", encode negotiated)])]
  | .permission d => .named [("CheckConnectionPriority", .named [("device", encode d)])]

/-- The event of the given kind with the given fields. -/
def StackEvent.ofFields? (kind : String) (body : Value) : Option StackEvent :=
  match kind with
  | "ConnectionStateChanged" => do
    let [d, state] ← body.fields? [required "device", required "state"] | none
    pure (.link (← decode d) (← decode state))
  | "AudioStateChanged" => do
    let [d, state] ← body.fields? [required "device", required "state"] | none
    pure (.stream (← decode d) (← decode state))
  | "AudioConfigChanged" => do
    let [d, negotiated] ← body.fields? [required "device", required "config"] | none
    pure (.format (← decode d) (← decode negotiated))
  | "CheckConnectionPriority" => do
    let [d] ← body.fields? [required "device"] | none
    pure (.permission (← decode d))
  | _ => none

instance : Codec StackEvent where
  encode := StackEvent.toValue
  decode
    | .named [(kind, body)] => StackEvent.ofFields? kind body
    | _ => none

/-! ## Notices -/

/-- A notice as a structured value. -/
def Notice.toValue : Notice → Value
  | .link d old new => .named [("ConnectionStateChanged",
      .named [("device", encode d), ("old", encode old), ("new", encode new)])]
  | .play d old new => .named [("AudioStateChanged",
      .named [("device", encode d), ("old", encode old), ("new", encode new)])]
  | .format d negotiated => .named [("AudioConfigChanged",
      .named [("device", encode d), ("config", encode negotiated)])]

/-- The notice of the given kind with the given fields. -/
def Notice.ofFields? (kind : String) (body : Value) : Option Notice :=
  match kind with
  | "ConnectionStateChanged" => do
    let [d, old, new] ← body.fields? [required "device", required "old", required "new"] | none
    pure (.link (← decode d) (← decode old) (← decode new))
  | "AudioStateChanged" => do
    let [d, old, new] ← body.fields? [required "device", required "old", required "new"] | none
    pure (.play (← decode d) (← decode old) (← decode new))
  | "AudioConfigChanged" => do
    let [d, negotiated] ← body.fields? [required "device", required "config"] | none
    pure (.format (← decode d) (← decode negotiated))
  | _ => none

instance : Codec Notice where
  encode := Notice.toValue
  decode
    | .named [(kind, body)] => Notice.ofFields? kind body
    | _ => none

/-! ## Snapshots -/

/-- The fields of a snapshot, in order. -/
def Snapshot.fields : List Field :=
  [required "state", required "connected", optional "primary", optional "target",
   optional "incoming", optional "disconnecting", required "playing", required "audio_configs"]

instance : Codec Snapshot where
  encode s := .named [("state", encode s.activity), ("connected", encode s.members),
    ("primary", encode s.primary), ("target", encode s.outgoing),
    ("incoming", encode s.incoming), ("disconnecting", encode s.leaving),
    ("playing", encode s.playing), ("audio_configs", encode s.formats)]
  decode v := do
    let [activity, members, primary, outgoing, incoming, leaving, playing, formats] ←
        v.record? Snapshot.fields
      | none
    pure {
      activity := ← decode activity
      members := ← decode members
      primary := ← decode primary
      outgoing := ← decode outgoing
      incoming := ← decode incoming
      leaving := ← decode leaving
      playing := ← decode playing
      formats := ← decode formats }

end AudioLink
