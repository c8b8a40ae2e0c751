import StackComputer.Proofs.Host.Paths

/-!
# The streams tell all that was written

A computer accounts for a history if what has been handed to the host, together
with what the peripherals still hold, is what was put on each stream.  Each
instruction, each fault and each report leaves the account in order, and so does
every sequence of calls.
-/

namespace StackComputer

structure Accounted (t : List Event) (c : Computer) : Prop where
  wired : c.machine.IsWired
  stream : ∀ s, t.flatMap (Event.collected s) ++ c.device.stream s = t.flatMap (Event.written s)
  fault : c.device.fault = lastFault t
  reports : ∀ t₁ r, t₁ ++ [.report r] <+: t → r.fault = lastFault t₁

namespace Accounted

variable {t : List Event} {c d : Computer}

theorem of_same (h : Accounted t c) (hwired : d.machine.IsWired)
    (hstream : ∀ s, d.device.stream s = c.device.stream s)
    (hfault : d.device.fault = c.device.fault) : Accounted t d where
  wired := hwired
  stream s := by rw [hstream, h.stream]
  fault := hfault.trans h.fault
  reports := h.reports

theorem of_device (h : Accounted t c) (hwired : d.machine.IsWired)
    (hdevice : d.device = c.device) : Accounted t d :=
  h.of_same hwired (fun _ => by rw [hdevice]) (by rw [hdevice])

theorem concat (h : Accounted t c) {e : Event} (he : e.isReport = false)
    (hwired : d.machine.IsWired)
    (hstream : ∀ s, d.device.stream s = c.device.stream s ++ e.written s)
    (hfault : d.device.fault = e.latestFault c.device.fault) : Accounted (t ++ [e]) d where
  wired := hwired
  stream s := by
    have hnone : e.collected s = [] := by
      cases e with
      | report r => contradiction
      | _ => rfl
    simp [hnone, hstream, ← h.stream]
  fault := by rw [lastFault_concat, hfault, h.fault]
  reports t₁ r hfront := by
    rcases List.prefix_concat_iff.mp hfront with hall | hbefore
    · obtain ⟨-, hlast⟩ := List.append_inj' hall rfl
      obtain rfl : .report r = e := List.head_eq_of_cons_eq hlast
      contradiction
    · exact h.reports t₁ r hbefore

theorem write (h : Accounted t c) (i v : Byte) (writer : Machine)
    (hstack : ∀ r, writer.stack r = c.machine.stack r) :
    Accounted (t ++ [.write i v writer]) (c.output Peripherals.device i v) := by
  have hstored : (c.machine.writePort i v).IsWired := h.wired.of_masks rfl rfl
  have htext : StackReport.text (c.machine.writePort i v) = StackReport.text writer :=
    StackReport.text_congr fun r => congrArg Stack.data (hstack r).symm
  have hread : (c.machine.writePort i v).ports.read i = v := Ports.read_write_self ..
  rw [Computer.output_of_isWired h.wired]
  refine h.concat rfl (Computer.isWired_output ⟨_, _⟩ hstored i) ?_ (Peripherals.confined_output i _).fault
  intro s
  rw [Peripherals.stream_output]
  cases s <;> simp [Event.written, Peripherals.stream, hread, htext]

theorem halt (h : Accounted t c) (f : Fault) :
    Accounted (t ++ [.fault f]) (Peripherals.halt f c).2 := by
  refine h.concat rfl h.wired ?_ rfl
  intro s
  cases s <;> exact (List.append_nil _).symm

theorem report (h : Accounted t c) :
    Accounted (t ++ [.report (Computer.report c).1]) (Computer.report c).2 where
  wired := h.wired
  stream s := by
    have hheld : (Computer.report c).1.stream s = c.device.stream s := by
      cases s <;> rfl
    have hempty : (Computer.report c).2.device.stream s = [] := by
      cases s <;> rfl
    have hnone : Event.written s (.report (Computer.report c).1) = [] := by
      cases s <;> rfl
    simp [Event.collected, hheld, hempty, hnone, h.stream]
  fault := by
    rw [lastFault_concat]
    rfl
  reports t₁ r hfront := by
    rcases List.prefix_concat_iff.mp hfront with hall | hbefore
    · obtain ⟨rfl, hlast⟩ := List.append_inj' hall rfl
      obtain rfl : r = (Computer.report c).1 := Event.report.inj (List.head_eq_of_cons_eq hlast)
      exact h.fault
    · exact h.reports t₁ r hbefore

/-! ## Paths -/

theorem setStack (h : Accounted t c) (r : Bool) (s : Stack) : Accounted t (c.setStack r s) := by
  cases r <;> exact h.of_device (h.wired.of_masks rfl rfl) rfl

theorem writeCell (h : Accounted t c) (w : Width) (a v : Short) :
    Accounted t (c.writeCell w a v) :=
  h.of_device (h.wired.of_masks rfl rfl) rfl

theorem mapPorts (h : Accounted t c) (f : Ports → Ports) : Accounted t (c.mapPorts f) :=
  h.of_device (Computer.isWired_mapPorts h.wired f) rfl

theorem render (h : Accounted t c) : Accounted t (Computer.render c) := by
  rw [Computer.render_eq]
  exact h.of_same h.wired (fun s => by cases s <;> rfl) rfl

theorem append_nil (h : Accounted t c) : Accounted (t ++ []) c := by
  rwa [List.append_nil]

theorem move (h : Accounted t c) {e : List Event} (hmove : Computer.Move c e d) :
    Accounted (t ++ e) d := by
  cases hmove with
  | setStack r s => exact (h.setStack r s).append_nil
  | writeCell w a v => exact (h.writeCell w a v).append_nil
  | output i v writer hstack => exact h.write i v writer hstack
  | halt f => exact h.halt f
  | store e => exact (h.mapPorts e.store).append_nil
  | settle => exact (h.mapPorts _).append_nil
  | render => exact h.render.append_nil
  | report => exact h.report

theorem path (h : Accounted t c) {t' : List Event} (hpath : Computer.Path c t' d) :
    Accounted (t ++ t') d := by
  induction hpath with
  | refl => exact h.append_nil
  | move _ hmove ih =>
      rw [← List.append_assoc]
      exact ih.move hmove

theorem history (h : Accounted t c) {fuel : Nat} {calls : List HostCall} {t' : List Event}
    (hr : c.history fuel calls = some (t', d)) : Accounted (t ++ t') d :=
  h.path (Computer.Path.refl.history hr)

end Accounted

end StackComputer
