/-!
# TOML dialects

TOML has versions, and readers of one version differ in their limits.  A `Dialect` holds what this
library's readers decide in more than one way; all else is the same for every text.
-/

set_option autoImplicit false

namespace Downlink.Toml

/-- What a reader of TOML accepts. -/
structure Dialect where
  /-- Inline tables may span lines, hold comments and end in a comma. -/
  linesInTables : Bool
  /-- Quoted texts have the escapes `\e` and `\xHH`. -/
  shortEscapes : Bool
  /-- A time of day may end with its minutes. -/
  timesToTheMinute : Bool
  /-- A negative number beyond the binary64 range is infinite, not an error. -/
  negativeOverflow : Bool
  /-- A dotted key may fill a table that headers have only opened. -/
  fillsOpened : Bool
  /-- Arrays and inline tables nest at most so deep, and a key has at most as many parts. -/
  depthLimit : Nat
deriving DecidableEq, Repr

namespace Dialect

/-- TOML 1.0, in which scenarios are written. -/
def version10 : Dialect where
  linesInTables := false
  shortEscapes := false
  timesToTheMinute := false
  negativeOverflow := true
  fillsOpened := false
  depthLimit := 79

/-- TOML 1.1, in which configurations are written. -/
def version11 : Dialect where
  linesInTables := true
  shortEscapes := true
  timesToTheMinute := true
  negativeOverflow := false
  fillsOpened := true
  depthLimit := 80

end Dialect

end Downlink.Toml
