/-
  File:      Retro24/Command.lean
  Subject:   Clock rates, the commands that a running machine takes, and why a run ends.

  * `ClockRate`: the two nominal rates, with their names and periods.
  * `Command`: what the holders of a handle may ask for.
  * `RunEnd`: the three ways in which a run ends without a fault.
-/
import Retro24.Key

namespace Retro24

/-! ## 1. Clock rates -/

/-- A nominal clock rate. -/
inductive ClockRate where
  | fast
  | slow
  deriving DecidableEq

namespace ClockRate

/-- Cycles a second. -/
def hertz : ClockRate → Nat
  | fast => 10000
  | slow => 100

/-- Microseconds a cycle. -/
def periodMicros : ClockRate → Nat
  | fast => 100
  | slow => 10000

/-- The other rate. -/
def other : ClockRate → ClockRate
  | fast => slow
  | slow => fast

/-- The name in data files. -/
def name : ClockRate → String
  | fast => "fast"
  | slow => "slow"

/-- The name in reports. -/
def label : ClockRate → String
  | fast => "Fast"
  | slow => "Slow"

/-- The rates by their names. -/
def names : List (String × ClockRate) := [("fast", fast), ("slow", slow)]

/-- The rate under a name, in any case. -/
def ofName? (name : String) : Option ClockRate := Name.lookup? names name

end ClockRate

/-! ## 2. Commands -/

/-- What the holders of a handle may ask a running machine for. -/
inductive Command where
  | pause
  | resume
  /-- One cycle, usually while paused. -/
  | step
  | toggleClockRate
  | setClockRate (speed : ClockRate)
  | press (key : Key)
  | release
  | softReset
  | hardReset
  | reload
  | stop
  deriving DecidableEq

/-- The name of a command in reports. -/
def Command.label : Command → String
  | pause => "Pause"
  | resume => "Resume"
  | step => "Step"
  | toggleClockRate => "ToggleClockSpeed"
  | setClockRate speed => "SetClockSpeed(" ++ speed.label ++ ")"
  | press key => "Press(" ++ key.name ++ ")"
  | release => "Release"
  | softReset => "SoftReset"
  | hardReset => "HardReset"
  | reload => "Reload"
  | stop => "Stop"

/-! ## 3. Ends of a run -/

/-- Why a run ended. -/
inductive RunEnd where
  | halted
  | budgetExhausted
  | stopped
  deriving DecidableEq

namespace RunEnd

/-- The name of a reason in reports. -/
def label : RunEnd → String
  | halted => "Halted"
  | budgetExhausted => "BudgetExhausted"
  | stopped => "Stopped"

/-- A reason in words. -/
def words : RunEnd → String
  | halted => "halted"
  | budgetExhausted => "cycle budget exhausted"
  | stopped => "stopped"

end RunEnd

end Retro24
