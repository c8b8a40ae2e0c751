import StackComputer.Proofs.Screen.WellFormed
import StackComputer.Screen.Control

/-!
# Sequences of screen operations

A screen is only ever changed by its operations, so what every operation keeps
holds of every screen that is made with a size and then worked on.
-/

namespace StackComputer.Screen

/-- What can be done to a screen, except for drawing the debugging overlay. -/
inductive Operation where
  | resize (width height : Short)
  | setPalette (palette : Palette)
  | plot (layer : Layer) (x y : Short) (color : Byte)
  | fill (layer : Layer) (x y : Short) (color : Byte) (flipX flipY : Bool)
  | drawRun (ram : Ram) (run : SpriteRun)
  | markAll
  | takeResized
  | render

def perform (s : Screen) : Operation → Screen
  | .resize width height => s.resize width height
  | .setPalette p => s.setPalette p
  | .plot l x y color => s.plot l x y color
  | .fill l x y color flipX flipY => s.fill l x y color flipX flipY
  | .drawRun ram b => s.drawRun ram b
  | .markAll => s.markAll
  | .takeResized => s.takeResized.2
  | .render => s.render

def performAll (s : Screen) (operations : List Operation) : Screen :=
  operations.foldl perform s

theorem performAll_cons (s : Screen) (op : Operation) (ops : List Operation) :
    s.performAll (op :: ops) = (s.perform op).performAll ops := rfl

theorem performAll_induction {P : Screen → Prop} (hstep : ∀ s op, P s → P (s.perform op))
    {s : Screen} (hs : P s) (ops : List Operation) : P (s.performAll ops) := by
  induction ops generalizing s with
  | nil => exact hs
  | cons op ops ih =>
      rw [performAll_cons]
      exact ih (hstep s op hs)

theorem WellFormed.perform {s : Screen} (hs : s.WellFormed) (op : Operation) :
    (s.perform op).WellFormed := by
  cases op with
  | resize width height => exact hs.resize width height
  | setPalette p => exact hs.setPalette p
  | plot l x y color => exact hs.of_drawnOn (drawnOn_plot ..)
  | fill l x y color flipX flipY => exact hs.of_drawnOn (drawnOn_fill ..)
  | drawRun ram b => exact hs.of_drawnOn (drawnOn_drawRun ..)
  | markAll => exact hs.mark _
  | takeResized => exact hs.takeResized
  | render => exact hs.render

theorem WellFormed.performAll {s : Screen} (hs : s.WellFormed) (ops : List Operation) :
    (s.performAll ops).WellFormed :=
  performAll_induction (fun _ op h => h.perform op) hs ops

theorem exists_output (i : Byte) (ram : Ram) (p : Ports) (s : Screen) :
    (s.output i ram p).2 = s ∨ ∃ op : Operation, (s.output i ram p).2 = s.perform op := by
  unfold output
  split
  · exact .inr ⟨.resize _ _, rfl⟩
  · split
    · unfold writePixel
      dsimp only
      split
      · exact .inr ⟨.fill .., rfl⟩
      · exact .inr ⟨.plot .., rfl⟩
    · split
      · exact .inr ⟨.drawRun ram _, rfl⟩
      · exact .inl rfl

end StackComputer.Screen
