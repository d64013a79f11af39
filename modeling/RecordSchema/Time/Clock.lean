import RecordSchema.Time.Timestamp

/-!
# Clocks

A clock moves on by a fixed step every time it is read. Instants are counted in nanoseconds from the
start of 1970.
-/

namespace RecordSchema

structure Clock where
  now : Int
  step : Int
  deriving DecidableEq, Repr

namespace Clock

/-- The instant a clock shows, and the clock afterwards. -/
def read (c : Clock) : Int × Clock := (c.now, { c with now := c.now + c.step })

end Clock

end RecordSchema
