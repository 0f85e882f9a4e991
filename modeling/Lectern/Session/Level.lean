import Lectern.Text.Basic

/-!
# Notice levels

How urgent a notice is, from errors down to traces. A threshold lets through what is at least as
urgent as itself.
-/

namespace Lectern

/-- How urgent a notice is. -/
inductive Level where
  | error
  | warn
  | info
  | debug
  | trace
  deriving DecidableEq

namespace Level

/-- All levels by name, the most urgent first. -/
def named : List (Text × Level) :=
  [("error", error), ("warn", warn), ("info", info), ("debug", debug), ("trace", trace)]

/-- The name of a level. -/
def name : Level → Text
  | error => "error"
  | warn => "warn"
  | info => "info"
  | debug => "debug"
  | trace => "trace"

/-- The place of a level, counted from the most urgent. -/
def rank : Level → Nat
  | error => 0
  | warn => 1
  | info => 2
  | debug => 3
  | trace => 4

/-- Whether a threshold lets a level through. -/
def admits (threshold level : Level) : Bool := level.rank ≤ threshold.rank

end Level
end Lectern
