import Downlink.Bandwidth.Gate

/-!
# Configuration

What an operator sets once for a receiver's controller, and the checks a configuration passes before
it is used.  The checks run in a fixed order, so a configuration with several faults is reported by
the first one.
-/

set_option autoImplicit false

namespace Downlink

structure Config where
  /-- The share of the last estimate that a drop has to reach. -/
  bweChangeThreshold : Binary64 := Gate.defaultThreshold
  /-- An allocation older than this is computed anew, in milliseconds. -/
  maxTimeBetweenCalculations : UInt64 := 15000
  /-- How often the age of the allocation is checked, in milliseconds. -/
  watchdogPeriod : UInt64 := 1000
  /-- Forward the lowest layer of the first source even if it does not fit. -/
  forceForwardTopPriority : Bool := true
  thumbnailMaxHeight : UInt32 := 180
  onstageIdealHeight : UInt32 := 720
  onstagePreferredHeight : UInt32 := 360
  onstagePreferredFrameRate : Binary64 := .ofNat 30
deriving DecidableEq

/-- The settings that are lengths of time. -/
inductive DurationSetting where
  | maxTimeBetweenCalculations
  | watchdogPeriod
deriving DecidableEq, Repr

def DurationSetting.name : DurationSetting → String
  | .maxTimeBetweenCalculations => "max_time_between_calculations_ms"
  | .watchdogPeriod => "watchdog_period_ms"

/-- Why a configuration is refused. -/
inductive ConfigError where
  | invalidThreshold (threshold : Binary64)
  | zeroDuration (setting : DurationSetting)
  | invalidOnstageHeights (preferred ideal : UInt32)
deriving DecidableEq

def ConfigError.message : ConfigError → String
  | .invalidThreshold x => "bwe change threshold must be within [0, 1), got " ++ x.plainText
  | .zeroDuration setting => setting.name ++ " must be greater than zero"
  | .invalidOnstageHeights preferred ideal =>
    s!"onstage preferred height ({preferred.toNat}) exceeds onstage ideal height ({ideal.toNat})"

namespace Config

/-- The first check that fails, if any. -/
def validate (c : Config) : Except ConfigError Unit :=
  if ¬ (Binary64.ofNat 0 ≤ c.bweChangeThreshold ∧ c.bweChangeThreshold < Binary64.ofNat 1) then
    .error (.invalidThreshold c.bweChangeThreshold)
  else if c.maxTimeBetweenCalculations = 0 then .error (.zeroDuration .maxTimeBetweenCalculations)
  else if c.watchdogPeriod = 0 then .error (.zeroDuration .watchdogPeriod)
  else if c.onstageIdealHeight < c.onstagePreferredHeight then
    .error (.invalidOnstageHeights c.onstagePreferredHeight c.onstageIdealHeight)
  else .ok ()

def gate (c : Config) : Gate := ⟨c.bweChangeThreshold⟩

end Config

end Downlink
