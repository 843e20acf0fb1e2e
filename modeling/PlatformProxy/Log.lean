/-!
# The log

What the program reports while it runs. Each line has a level and the part of the program that
wrote it.

## Main definitions

* `Log.Level`, `Log.Entry` — lines of the log
* `Log.Entry.isShown` — which lines are written
-/

namespace PlatformProxy

namespace Log

inductive Level
  | error
  | warn
  | info
  | debug
  deriving DecidableEq, Repr

namespace Level

def name : Level → String
  | error => "ERROR"
  | warn => "WARN"
  | info => "INFO"
  | debug => "DEBUG"

end Level

/-- The parts of the program that write to the log. -/
inductive Source
  | main
  | logging
  | snapshot
  | metrics
  deriving DecidableEq, Repr

namespace Source

def name : Source → String
  | main => "steam_proxy"
  | logging => "steam_proxy::logging"
  | snapshot => "steam_proxy::native::snapshot"
  | metrics => "steam_proxy::metrics"

end Source

/-- A line of the log. -/
structure Entry where
  level : Level
  source : Source
  message : String
  deriving DecidableEq, Repr

/-- Which lines are written: those for finding faults only if they are asked for. -/
def Entry.isShown (debug : Bool) (e : Entry) : Bool := debug || e.level ≠ .debug

end Log

end PlatformProxy
