import Mathlib.Data.Int.Init

/-!
# Instants

Instants are nanoseconds since the Unix epoch, and so are their differences.
-/

namespace Chrono

/-- A UTC instant, or the difference of two: nanoseconds. -/
abbrev Instant : Type := Int

/-- A number of seconds. -/
def seconds (n : Int) : Instant := n * 1000000000

/-- The whole seconds of a difference, rounded toward zero. -/
def numSeconds (d : Instant) : Int := d.tdiv 1000000000

end Chrono
