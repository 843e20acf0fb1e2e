import PlatformProxy.Floating.Text

/-!
# Counters

What the proxy has done since it started, in numbers that are logged when it ends.

## Main definitions

* `Counters` — the counters
* `Counters.failureRate` — the part of the requests that failed
* `Counters.summary`, `Counters.uptimeLine` — the lines that are logged
* `Counters.wrapped` — the counters that words of 64 bits keep

## Implementation notes

The counters are numbers without a bound. A program that keeps them in words counts on from zero
behind `2 ^ 64 - 1`. Its words are always the counters modulo `2 ^ 64` (`wrapped_count`), and they
are the counters themselves, with the same reports, as long as these fit (`wrapped_eq_self`). To fit
means that each of them, and the number of all requests, is below `2 ^ 64`.
-/

namespace PlatformProxy

/-- The counters. -/
structure Counters where
  accepted : Nat
  connectionErrors : Nat
  served : Nat
  failed : Nat
  completions : Nat
  deriving DecidableEq, Repr

namespace Counters

def zero : Counters := ⟨0, 0, 0, 0, 0⟩

/-! ### Events -/

def countAccepted (m : Counters) : Counters := { m with accepted := m.accepted + 1 }

def countConnectionError (m : Counters) : Counters :=
  { m with connectionErrors := m.connectionErrors + 1 }

def countServed (m : Counters) : Counters := { m with served := m.served + 1 }

def countFailed (m : Counters) : Counters := { m with failed := m.failed + 1 }

/-! ### Reports -/

/-- The part of the requests that failed; zero if there were none. -/
def failureRate (m : Counters) : Floating .double :=
  if m.served + m.failed = 0 then .zero .double false
  else
    (Floating.ofNat .double m.failed).div (Floating.ofNat .double (m.served + m.failed))

/-- The failure rate in percent, with one decimal place. -/
def failurePercentage (m : Counters) : String :=
  Floating.fixed 1 (m.failureRate.mul (Floating.ofNat .double 100))

/-- The time that has passed, in seconds with two decimal places. -/
def uptimeLine (milliseconds : Nat) : String :=
  "Uptime: " ++ Floating.fixed 2 (Floating.ofRatio .double false milliseconds 1000) ++ "s"

/-- The lines that are logged, without the one about the time that has passed. -/
def summary (m : Counters) : List String :=
  ["=== Proxy Metrics Summary ===",
    "Connections: " ++ toString m.accepted ++ " accepted, " ++ toString m.connectionErrors ++
      " errors",
    "Requests: " ++ toString m.served ++ " served, " ++ toString m.failed ++ " failed (" ++
      m.failurePercentage ++ "% failure rate)",
    "Native completions dispatched: " ++ toString m.completions]

/-! ### Words -/

/-- The counters that words of 64 bits keep. -/
def wrapped (m : Counters) : Counters :=
  { accepted := m.accepted % UInt64.size
    connectionErrors := m.connectionErrors % UInt64.size
    served := m.served % UInt64.size
    failed := m.failed % UInt64.size
    completions := m.completions % UInt64.size }

/-- The counters, and the number of all requests, are words. -/
structure Fits (m : Counters) : Prop where
  accepted : m.accepted < UInt64.size
  connectionErrors : m.connectionErrors < UInt64.size
  requests : m.served + m.failed < UInt64.size
  completions : m.completions < UInt64.size

/-- Counting on from the words gives the words of the counters. -/
theorem wrapped_count (m : Counters) :
    m.wrapped.countAccepted.wrapped = m.countAccepted.wrapped ∧
      m.wrapped.countConnectionError.wrapped = m.countConnectionError.wrapped ∧
      m.wrapped.countServed.wrapped = m.countServed.wrapped ∧
      m.wrapped.countFailed.wrapped = m.countFailed.wrapped := by
  simp only [wrapped, countAccepted, countConnectionError, countServed, countFailed, Nat.mod_mod,
    Nat.mod_add_mod, and_self]

/-- **Words keep the counters as long as they fit.** -/
theorem wrapped_eq_self {m : Counters} (h : m.Fits) : m.wrapped = m := by
  obtain ⟨haccepted, herrors, hrequests, hcompletions⟩ := h
  have hserved : m.served < UInt64.size := Nat.lt_of_le_of_lt (Nat.le_add_right _ _) hrequests
  have hfailed : m.failed < UInt64.size := Nat.lt_of_le_of_lt (Nat.le_add_left _ _) hrequests
  rw [wrapped, Nat.mod_eq_of_lt haccepted, Nat.mod_eq_of_lt herrors, Nat.mod_eq_of_lt hserved,
    Nat.mod_eq_of_lt hfailed, Nat.mod_eq_of_lt hcompletions]

end Counters

end PlatformProxy
