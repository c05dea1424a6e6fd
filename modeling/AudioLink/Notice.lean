import AudioLink.Address
import AudioLink.Link

/-!
# Notices

What listeners are told: that the link to a device or its playing changed, from which
state to which, or that the format of its stream was settled.
-/

namespace AudioLink

/-- A change that listeners are told of. -/
inductive Notice where
  | link (d : Address) (old new : LinkState)
  | play (d : Address) (old new : PlayState)
  | format (d : Address) (format : StreamFormat)
deriving DecidableEq, Repr

namespace Notice

/-- The device that a notice is about. -/
def device : Notice → Address
  | link d _ _ | play d _ _ | format d _ => d

/-- The old and the new link state, of a notice that tells of a link. -/
def linkChange? : Notice → Option (LinkState × LinkState)
  | link _ old new => some (old, new)
  | play .. | format .. => none

/-- The notice tells of something new: its two states differ where it has two. -/
def isChange : Notice → Bool
  | link _ old new => old ≠ new
  | play _ old new => old ≠ new
  | format .. => true

end Notice

end AudioLink
