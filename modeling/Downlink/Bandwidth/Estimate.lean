import Downlink.Numeral

/-!
# Bandwidth estimates

The estimate of a receiver's downlink, in bits per second.  `-1` stands for no estimate.
-/

set_option autoImplicit false

namespace Downlink

/-- A downlink estimate in bits per second. -/
structure Estimate where
  bps : Int64
deriving DecidableEq

namespace Estimate

/-- No estimate yet. -/
def unknown : Estimate := ⟨-1⟩

/-- So many kilobits per second, held inside the 64-bit range. -/
def ofKilobits (n : Int64) : Estimate := ⟨.ofIntClamp (n.toInt * 1000)⟩

/-- So many megabits per second, held inside the 64-bit range. -/
def ofMegabits (n : Int64) : Estimate := ⟨.ofIntClamp (n.toInt * 1000000)⟩

def isUnknown (e : Estimate) : Bool := e.bps == unknown.bps

/-- The estimate as a share of a unit of `perUnit` bits per second. -/
def inUnits (e : Estimate) (places perUnit : Nat) : String :=
  ((Binary64.ofInt e.bps.toInt).divNat perUnit).fixedText places

/-- The estimate in the largest unit it fills. -/
def text (e : Estimate) : String :=
  if e.isUnknown then "unknown"
  else if 1000000 ≤ e.bps.toInt then e.inUnits 2 1000000 ++ "mbps"
  else if 1000 ≤ e.bps.toInt then e.inUnits 1 1000 ++ "kbps"
  else String.ofList (Numeral.ofInt e.bps.toInt).text ++ "bps"

/-- The budget of an estimate: nothing as long as it is unknown or negative. -/
def budget (e : Estimate) : Int64 := if e.bps < 0 then 0 else e.bps

end Estimate

end Downlink
