/-! The mask that says which traffic is echoed to the terminal. -/

namespace DosText

/-- What can be traced: input from files, commands, and output to files. -/
inductive Trace where
  | input
  | commands
  | output
  deriving DecidableEq, Repr

/-- The bit of a monitor mask that traces something. -/
def Trace.bit : Trace → Nat
  | input => 0
  | commands => 1
  | output => 2

/-- The mask of what is traced. Bits that trace nothing are kept. -/
abbrev Monitor := BitVec 32

namespace Monitor

/-- Nothing is traced. -/
def off : Monitor := 0

def traces (monitor : Monitor) (trace : Trace) : Bool := monitor.getLsbD trace.bit

def enable (monitor : Monitor) (trace : Trace) : Monitor :=
  monitor ||| BitVec.twoPow 32 trace.bit

def disable (monitor : Monitor) (trace : Trace) : Monitor :=
  monitor &&& ~~~ BitVec.twoPow 32 trace.bit

theorem traces_enable (monitor : Monitor) (trace other : Trace) :
    (monitor.enable trace).traces other = (other == trace || monitor.traces other) := by
  cases trace <;> cases other <;> simp [traces, enable, Trace.bit]

theorem traces_disable (monitor : Monitor) (trace other : Trace) :
    (monitor.disable trace).traces other = (other != trace && monitor.traces other) := by
  cases trace <;> cases other <;> simp [traces, disable, Trace.bit]

end Monitor

end DosText
