import StackComputer.Proofs.Safety.Computer

/-!
# Delivering arguments

Arguments reach a program byte by byte, each byte with a type that says what it
is.  The types alone tell where an argument ends, so the sequence can be taken
apart again whatever bytes the arguments are made of.  The program finds all of
the sequence in its ports, no matter what it does to them in between.
-/

namespace StackComputer

abbrev Signal := Byte × Byte

namespace Signal

/--
The bytes of each argument are of type 2.  A newline follows, which is of type 3,
or of type 4 after the last argument.
-/
def ofArguments (args : List (List Byte)) : List Signal :=
  args.zipIdx.flatMap fun (a, i) =>
    a.map (fun b => (b, 2)) ++ [(0x0a, if i + 1 = args.length then 4 else 3)]

/-- Collects bytes of type 2; any other type ends an argument. -/
def toArguments : List Signal → List (List Byte)
  | [] => []
  | (b, type) :: rest =>
      if type = 2 then
        match toArguments rest with
        | [] => [[b]]
        | a :: args => (b :: a) :: args
      else [] :: toArguments rest

/-! ## Taking the sequence apart -/

theorem toArguments_argument (a : List Byte) (b : Byte) {type : Byte} (htype : type ≠ 2)
    (rest : List Signal) :
    toArguments (a.map (fun b => (b, 2)) ++ (b, type) :: rest) = a :: toArguments rest := by
  induction a with
  | nil => rw [List.map_nil, List.nil_append, toArguments, if_neg htype]
  | cons b a ih => rw [List.map_cons, List.cons_append, toArguments, ih, if_pos rfl]

theorem toArguments_zipIdx (args : List (List Byte)) (k n : Nat) :
    toArguments ((args.zipIdx k).flatMap fun (a, i) =>
      a.map (fun b => (b, 2)) ++ [(0x0a, if i + 1 = n then 4 else 3)]) = args := by
  induction args generalizing k with
  | nil => rfl
  | cons a args ih =>
      have htype : (if k + 1 = n then 4 else 3 : Byte) ≠ 2 := by
        split <;> decide
      rw [List.zipIdx_cons, List.flatMap_cons]
      dsimp only
      rw [List.append_assoc, List.singleton_append, toArguments_argument a 0x0a htype, ih]

theorem toArguments_ofArguments (args : List (List Byte)) :
    toArguments (ofArguments args) = args :=
  toArguments_zipIdx args 0 args.length

/-- An empty argument, one with a newline in it, and no argument at all. -/
example : ofArguments [[], [0x61, 0x0a]] = [(0x0a, 3), (0x61, 2), (0x0a, 2), (0x0a, 4)] ∧
    ofArguments [] = [] := by decide

end Signal

theorem utf8Bytes_injective : ∀ s t : String, utf8Bytes s = utf8Bytes t → s = t := by
  intro s t h
  apply String.toByteArray_inj.mp
  exact ByteArray.ext (Array.toList_inj.mp h)

theorem Signal.ofArguments_inj {args args' : List String}
    (h : ofArguments (args.map utf8Bytes) = ofArguments (args'.map utf8Bytes)) : args = args' := by
  have hbytes := congrArg toArguments h
  rw [toArguments_ofArguments, toArguments_ofArguments] at hbytes
  exact List.map_inj_right utf8Bytes_injective |>.mp hbytes

namespace ConsoleEvent

def signal (e : ConsoleEvent) : Signal :=
  (e.byte, e.type.code)

theorem map_signal_ofArguments (args : List (List Byte)) :
    (ofArguments args).map signal = Signal.ofArguments args := by
  cases args with
  | nil => rfl
  | cons a rest =>
      have hlast (i : Nat) : i = 0 + (a :: rest).length - 1 ↔ i + 1 = (a :: rest).length := by
        rw [List.length_cons]
        omega
      rw [← Computer.Checked.flatten_events (a :: rest) 0, List.map_flatten, List.map_map,
        Signal.ofArguments, List.flatMap_def]
      congr 2
      funext ⟨a', i⟩
      simp only [Function.comp_apply, List.map_append, List.map_map, List.map_cons, List.map_nil,
        signal, hlast, apply_ite ByteType.code]
      rfl

end ConsoleEvent

namespace Computer

def heard (c : Computer) : Signal :=
  (c.machine.ports.read Port.consoleByte, c.machine.ports.read Port.consoleType)

structure Told (c s : Computer) : Prop where
  ports : ∀ i, i ≠ Port.consoleByte → i ≠ Port.consoleType →
    s.machine.ports.read i = c.machine.ports.read i
  rest : s = c.mapPorts fun _ => s.machine.ports

/--
The console's vector is evaluated from each of `starts` in turn.  Each but the
first is what the evaluation before has left, with other values in two ports
only; `out` is what the last evaluation leaves, if it ends within the fuel.
-/
inductive Delivers (fuel : Nat) : Computer → List Computer → Option Computer → Prop
  | done {c : Computer} : Delivers fuel c [] (some c)
  | stuck {c s : Computer} (htold : Told c s)
      (heval : s.evalAt fuel (s.machine.ports.readShort Port.consoleVector) = none) :
      Delivers fuel c [s] none
  | next {c s d : Computer} {result : Bool} {starts : List Computer} {out : Option Computer}
      (htold : Told c s)
      (heval : s.evalAt fuel (s.machine.ports.readShort Port.consoleVector) = some (result, d))
      (hrest : Delivers fuel d starts out) : Delivers fuel c (s :: starts) out

theorem told_store (c : Computer) (e : ConsoleEvent) : Told c (c.mapPorts e.store) where
  ports i hbyte htype := by
    change ((c.machine.ports.write _ _).write _ _).read i = _
    rw [Ports.read_write_ne _ _ (Ne.symm htype), Ports.read_write_ne _ _ (Ne.symm hbyte)]
  rest := rfl

theorem heard_store (c : Computer) (e : ConsoleEvent) :
    (c.mapPorts e.store).heard = e.signal := by
  have hbyte : (e.store c.machine.ports).read Port.consoleByte = e.byte := by
    rw [ConsoleEvent.store, Ports.read_write_ne _ _ (by decide), Ports.read_write_self]
  have htype : (e.store c.machine.ports).read Port.consoleType = e.type.code :=
    Ports.read_write_self ..
  exact Prod.ext hbyte htype

theorem exists_delivers (fuel : Nat) (events : List ConsoleEvent) (c : Computer) :
    ∃ starts, Delivers fuel c starts (c.deliverAll fuel events) ∧
      starts.map heard <+: events.map ConsoleEvent.signal ∧
      (c.deliverAll fuel events ≠ none → starts.map heard = events.map ConsoleEvent.signal) := by
  induction events generalizing c with
  | nil => exact ⟨[], .done, List.nil_prefix, fun _ => rfl⟩
  | cons e events ih =>
      let s := c.mapPorts e.store
      have htold : Told c s := told_store c e
      have hheard : s.heard = e.signal := heard_store c e
      rw [deliverAll, deliver, evalVector]
      cases heval : s.evalAt fuel (s.machine.ports.readShort Port.consoleVector) with
      | none =>
          refine ⟨[s], .stuck htold heval, ?_, fun h => absurd rfl h⟩
          rw [List.map_singleton, hheard, List.map_cons]
          exact ⟨_, rfl⟩
      | some r =>
          obtain ⟨result, d⟩ := r
          obtain ⟨starts, hdelivers, hfront, hall⟩ := ih d
          refine ⟨s :: starts, .next htold heval hdelivers, ?_, fun h => ?_⟩
          · rw [List.map_cons, List.map_cons, hheard]
            exact List.cons_prefix_cons.mpr ⟨rfl, hfront⟩
          · rw [List.map_cons, List.map_cons, hheard, hall h]

/--
Sending arguments evaluates the console's vector once for each byte that stands
for them, in order.  Each evaluation finds its byte and its type in the ports,
and nothing else has been changed since the one before.  The sequence does not
depend on the program, and determines the arguments.
-/
theorem arguments_delivered (fuel : Nat) (args : List String) (c : Computer) :
    let signals := Signal.ofArguments (args.map utf8Bytes)
    (∃ starts out, Delivers fuel c starts out ∧ starts.map heard <+: signals ∧
      (out ≠ none → starts.map heard = signals) ∧
      c.call fuel (.sendArguments args) = out.map fun d => d.settle.answer) ∧
      (∀ r, c.call fuel (.sendArguments args) = some r →
        r.2.machine.ports.read Port.consoleType = 1) ∧
      Signal.toArguments signals = args.map utf8Bytes ∧
      ∀ args', Signal.ofArguments (args'.map utf8Bytes) = signals → args' = args := by
  intro signals
  refine ⟨?_, ?_, Signal.toArguments_ofArguments _, fun args' => Signal.ofArguments_inj⟩
  · obtain ⟨starts, hdelivers, hfront, hall⟩ :=
      exists_delivers fuel (ConsoleEvent.ofArguments (args.map utf8Bytes)) c
    rw [ConsoleEvent.map_signal_ofArguments] at hfront hall
    refine ⟨starts, _, hdelivers, hfront, hall, ?_⟩
    rw [call, sendArguments, Option.map_map]
    rfl
  · intro r hr
    obtain ⟨d, hd, rfl⟩ := Option.map_eq_some_iff.mp hr
    obtain ⟨d, -, rfl⟩ := Option.map_eq_some_iff.mp hd
    exact Ports.read_write_self ..

/-- A program that clears the type port whenever it is called still gets all of the sequence. -/
theorem arguments_delivered_cleared :
    ∃ (c : Computer) (starts : List Computer) (d : Computer),
      (c.deliver 4 ⟨0x0a, .separator⟩).map heard = some (0x0a, 0) ∧
      Delivers 4 c starts (some d) ∧
      starts.map heard = [(0x0a, 3), (0x61, 2), (0x0a, 2), (0x0a, 4)] ∧
      c.call 4 (.sendArguments ["", "a\n"]) = some d.settle.answer ∧
      d.settle.answer.2.machine.ports.read Port.consoleType = 1 ∧
      Signal.toArguments (starts.map heard) = [[], [0x61, 0x0a]] := by
  let c : Computer := ⟨wire { Machine.fresh with
    ram := Ram.zero.writeBytes 0x0100 [0x80, 0x00, 0x80, 0x17, 0x17]
    ports := Ports.zero.writeShort Port.consoleVector 0x0100 }, .fresh⟩
  have hends : c.call 4 (.sendArguments ["", "a\n"]) ≠ none := by decide +kernel
  obtain ⟨⟨starts, out, hdelivers, -, hall, hcall⟩, htype, hsplit, -⟩ :=
    arguments_delivered 4 ["", "a\n"] c
  cases out with
  | none => exact absurd hcall hends
  | some d =>
      have hheard := hall (Option.some_ne_none d)
      refine ⟨c, starts, d, by decide +kernel, hdelivers, hheard.trans (by decide), hcall,
        htype _ hcall, ?_⟩
      rw [hheard, hsplit]
      decide

end Computer

end StackComputer
