import StackComputer.Proofs.Host.Confinement
import StackComputer.Proofs.Machine.Halting

/-!
# What happens between reports

The history of a computer lists what the guest writes to ports, the faults that
it raises, and the reports that the host collects, in the order in which they
happen.  It is read off the instructions that are executed, whatever the
peripherals do with them.  The peripherals keep account of it: what has been
written and not yet reported is what their streams hold.
-/

namespace StackComputer

inductive OutputStream where
  | stdout
  | stderr
  deriving DecidableEq, Repr

def Peripherals.stream (p : Peripherals) : OutputStream → List Byte
  | .stdout => p.stdout.toList
  | .stderr => p.stderr.toList

def Report.stream (r : Report) : OutputStream → List Byte
  | .stdout => r.stdout.toList
  | .stderr => r.stderr.toList

/-- A byte written to a port is told with the machine as the instruction's operands leave it. -/
inductive Event where
  | write (port value : Byte) (writer : Machine)
  | fault (f : Fault)
  | report (r : Report)

namespace Event

/-- What an event puts on a stream.  A write to the debug port asks for a report on the stacks. -/
def written : OutputStream → Event → List Byte
  | .stdout, .write port value _ => if port = Port.write then [value] else []
  | .stderr, .write port value writer =>
      if port = Port.error then [value]
      else if port = Port.debug then (StackReport.text writer).map Char.toUInt8
      else []
  | _, .fault _ | _, .report _ => []

def collected (s : OutputStream) : Event → List Byte
  | .report r => r.stream s
  | .write .. | .fault _ => []

def isReport : Event → Bool
  | .report _ => true
  | .write .. | .fault _ => false

/-- The fault to be reported next, given the one before the event. -/
def latestFault (previous : Option Fault) : Event → Option Fault
  | .write .. => previous
  | .fault f => some f
  | .report _ => none

end Event

/-- The last fault since the last report. -/
def lastFault (t : List Event) : Option Fault :=
  t.foldl Event.latestFault none

theorem lastFault_concat (t : List Event) (e : Event) :
    lastFault (t ++ [e]) = e.latestFault (lastFault t) := by
  simp [lastFault]

/-! ## Histories -/

def Action.events (w : Width) (writer : Machine) : Action → List Event
  | .output i v =>
      match w with
      | .byte => [.write i v.lo writer]
      | .short => [.write i v.hi writer, .write (i + 1) v.lo writer]
  | _ => []

namespace Config

variable {σ : Type}

def writes (c : Config σ) (pc : Short) : List Event :=
  let i := Instruction.decode (c.machine.ram.read pc)
  if i.taken ≤ (c.selected i).data.length then
    (i.op.action i.mode.width (c.arguments i (pc + 1))).events i.mode.width
      (c.afterOperands i).machine
  else []

def runEvents (dev : Device σ) : Nat → Short → Config σ → List Event
  | 0, _, _ => []
  | fuel + 1, pc, c =>
      c.writes pc ++
        match c.step dev pc with
        | (.next pc', c') => runEvents dev fuel pc' c'
        | (.stop, _) => []
        | (.fault cause, _) => [.fault ⟨cause, pc, c.machine.ram.read pc⟩]

def evalEvents (dev : Device σ) (fuel : Nat) (pc : Short) (c : Config σ) : List Event :=
  if pc = 0 ∨ c.machine.halted then [] else runEvents dev fuel pc c

end Config

namespace Computer

def vectorEvents (fuel : Nat) (port : Byte) (c : Computer) : List Event :=
  c.evalEvents Peripherals.device fuel (c.machine.ports.readShort port)

def deliverEvents (fuel : Nat) (c : Computer) (e : ConsoleEvent) : List Event :=
  vectorEvents fuel Port.consoleVector (mapPorts e.store c)

def deliverAllEvents (fuel : Nat) : List ConsoleEvent → Computer → List Event
  | [], _ => []
  | e :: es, c =>
      deliverEvents fuel c e ++
        match deliver fuel c e with
        | none => []
        | some c' => deliverAllEvents fuel es c'

def callEvents (fuel : Nat) (c : Computer) : HostCall → List Event
  | .eval pc => c.evalEvents Peripherals.device fuel pc
  | .sendByte b => deliverEvents fuel c ⟨b, .input⟩
  | .sendArguments args =>
      deliverAllEvents fuel (ConsoleEvent.ofArguments (args.map utf8Bytes)) c
  | .tick => vectorEvents fuel Port.screenVector c
  | .report => []

def history (fuel : Nat) (c : Computer) : List HostCall → Option (List Event × Computer)
  | [] => some ([], c)
  | k :: calls =>
      match c.call fuel k with
      | none => none
      | some (r, c') =>
          (c'.history fuel calls).map fun (t, c'') =>
            (c.callEvents fuel k ++ r.toList.map .report ++ t, c'')

theorem history_append (fuel : Nat) (c : Computer) (calls calls' : List HostCall) :
    c.history fuel (calls ++ calls') =
      (c.history fuel calls).bind fun front =>
        (front.2.history fuel calls').map fun rest => (front.1 ++ rest.1, rest.2) := by
  induction calls generalizing c with
  | nil => simp [history]
  | cons k calls ih =>
      rw [List.cons_append, history, history]
      cases c.call fuel k with
      | none => rfl
      | some r => simp [ih, Option.map_bind, Option.bind_map, Function.comp_def]

end Computer

/-! ## Only the host reports -/

theorem Action.isReport_of_mem_events {w : Width} {writer : Machine} {a : Action} {e : Event}
    (he : e ∈ a.events w writer) : e.isReport = false := by
  cases a with
  | output i v =>
      cases w with
      | byte =>
          obtain rfl := List.mem_singleton.mp he
          rfl
      | short =>
          rcases List.mem_cons.mp he with rfl | hsecond
          · rfl
          · obtain rfl := List.mem_singleton.mp hsecond
            rfl
  | _ => contradiction

namespace Computer

variable {c : Computer} {fuel : Nat} {e : Event}

theorem isReport_of_mem_writes {pc : Short} (he : e ∈ c.writes pc) : e.isReport = false := by
  rw [Config.writes] at he
  split at he
  · exact Action.isReport_of_mem_events he
  · contradiction

theorem isReport_of_mem_runEvents {pc : Short}
    (he : e ∈ c.runEvents Peripherals.device fuel pc) : e.isReport = false := by
  induction fuel generalizing c pc with
  | zero => contradiction
  | succ fuel ih =>
      rw [Config.runEvents] at he
      rcases List.mem_append.mp he with hwrite | hrest
      · exact isReport_of_mem_writes hwrite
      · split at hrest
        · exact ih hrest
        · contradiction
        · obtain rfl := List.mem_singleton.mp hrest
          rfl

theorem isReport_of_mem_evalEvents {pc : Short}
    (he : e ∈ c.evalEvents Peripherals.device fuel pc) : e.isReport = false := by
  rw [Config.evalEvents] at he
  split at he
  · contradiction
  · exact isReport_of_mem_runEvents he

theorem isReport_of_mem_deliverAllEvents {es : List ConsoleEvent}
    (he : e ∈ deliverAllEvents fuel es c) : e.isReport = false := by
  induction es generalizing c with
  | nil => contradiction
  | cons first es ih =>
      rw [deliverAllEvents] at he
      rcases List.mem_append.mp he with hfirst | hrest
      · exact isReport_of_mem_evalEvents hfirst
      · split at hrest
        · contradiction
        · exact ih hrest

theorem isReport_of_mem_callEvents {k : HostCall} (he : e ∈ c.callEvents fuel k) :
    e.isReport = false := by
  cases k with
  | eval pc => exact isReport_of_mem_evalEvents he
  | sendByte b => exact isReport_of_mem_evalEvents he
  | sendArguments args => exact isReport_of_mem_deliverAllEvents he
  | tick => exact isReport_of_mem_evalEvents he
  | report => contradiction

theorem flatMap_collected_callEvents (s : OutputStream) (k : HostCall) :
    (c.callEvents fuel k).flatMap (Event.collected s) = [] := by
  rw [List.flatMap_eq_nil_iff]
  intro e he
  have hquiet := isReport_of_mem_callEvents he
  cases e with
  | report r => contradiction
  | _ => rfl

end Computer

/-! ## What the peripherals do with a write -/

theorem StackReport.line_congr {s t : Stack} (h : s.data = t.data) (label : List Char) :
    line label s = line label t := by
  simp only [line, Stack.peek_congr h, Stack.height_congr h]

theorem StackReport.text_congr {m n : Machine} (h : ∀ r, (m.stack r).data = (n.stack r).data) :
    text m = text n := by
  have hwst : m.wst.data = n.wst.data := h false
  have hrst : m.rst.data = n.rst.data := h true
  rw [text, text, line_congr hwst, line_congr hrst]

namespace Peripherals

theorem stream_output (i : Byte) (c : Computer) (s : OutputStream) :
    (output i c).device.stream s =
      c.device.stream s ++ Event.written s (.write i (c.machine.ports.read i) c.machine) := by
  by_cases hwrite : i = Port.write
  · subst hwrite
    rw [output_write]
    cases s <;> simp [stream, Event.written, Port.write, Port.error, Port.debug]
  by_cases herror : i = Port.error
  · subst herror
    rw [output_error]
    cases s <;> simp [stream, Event.written, Port.write, Port.error]
  by_cases hdebug : i = Port.debug
  · subst hdebug
    rw [output_debug]
    cases s <;> simp [stream, Event.written, Port.write, Port.error, Port.debug]
  have hstdout := (confined_output i c).stdout hwrite
  have hstderr := (confined_output i c).stderr herror hdebug
  cases s <;> simp [stream, Event.written, hwrite, herror, hdebug, hstdout, hstderr]

end Peripherals

end StackComputer
