import AudioLink.Registry

/-!
# The policy

Whether a device may have a link. In quiet mode only links that were asked for locally
are welcome. Beyond that the stored priority decides, and where nothing was chosen a
bond does.
-/

namespace AudioLink

/-- The rule by which devices are let in. -/
structure Policy where
  /-- Only links that were asked for locally are welcome. -/
  quiet : Bool
deriving DecidableEq, Repr

namespace Policy

/-- The device may have a link, given whether the link was asked for locally. -/
def allows (policy : Policy) (facts : Facts) (d : Address) (locally : Bool) : Bool :=
  if policy.quiet && !locally then false
  else match facts.priority d with
    | .on | .autoConnect => true
    | .undefined => facts.bonded d
    | .off => false

/-- In quiet mode no device is let in that was not asked for. -/
theorem allows_of_quiet {policy : Policy} (facts : Facts) (d : Address)
    (h : policy.quiet = true) : policy.allows facts d false = false := by
  simp [allows, h]

end Policy

end AudioLink
