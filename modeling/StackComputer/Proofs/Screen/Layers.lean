import StackComputer.Proofs.Screen.Marked
import StackComputer.Proofs.Screen.Tiles

/-!
# Drawing on two layers

A drawing paints on one layer, and the hull of what is marked does not depend on
the order of marking.  So drawings on the foreground and drawings on the
background can be mixed in any way, as long as each layer gets its own in order.
-/

namespace StackComputer

/-! ## Marking in any order -/

namespace Span

theorem hull_comm (s t : Span) : s.hull t = t.hull s := by
  simp only [hull, mk.injEq, ← UInt16.toNat_inj, Short.toNat_min, Short.toNat_max]
  omega

theorem hull_right_comm (s t u : Span) : (s.hull t).hull u = (s.hull u).hull t := by
  simp only [hull, mk.injEq, ← UInt16.toNat_inj, Short.toNat_min, Short.toNat_max]
  omega

end Span

namespace Rect

theorem hull_comm (r t : Rect) : r.hull t = t.hull r := by
  simp only [hull, r.x.hull_comm, r.y.hull_comm]

theorem hull_right_comm (r t u : Rect) : (r.hull t).hull u = (r.hull u).hull t := by
  simp only [hull, r.x.hull_right_comm t.x, r.y.hull_right_comm t.y]

theorem addTo_addTo_comm (r t : Rect) (pending : Option Rect) :
    t.addTo (some (r.addTo pending)) = r.addTo (some (t.addTo pending)) := by
  cases pending with
  | none => exact hull_comm r t
  | some p => exact hull_right_comm p r t

end Rect

namespace Screen

theorem pending_mark_mark (s : Screen) (q r : Rect) :
    ((s.mark q).mark r).pending = ((s.mark r).mark q).pending := by
  simp only [pending_mark, width_mark, height_mark]
  cases q.clip s.width s.height with
  | none => rfl
  | some q =>
      cases r.clip s.width s.height with
      | none => rfl
      | some r => exact congrArg some (Rect.addTo_addTo_comm q r s.pending)

theorem mark_mark_comm (s : Screen) (q r : Rect) : (s.mark q).mark r = (s.mark r).mark q := by
  rw [mark_eq (s.mark q), mark_eq (s.mark r), pending_mark_mark, mark_eq s q, mark_eq s r]

theorem mark_mapLayer (s : Screen) (l : Layer) (f : Array Ink → Array Ink) (r : Rect) :
    (s.mapLayer l f).mark r = (s.mark r).mapLayer l f := by
  rw [mark_eq, pending_mark_mapLayer, mark_eq s r]
  cases l <;> rfl

theorem mapLayer_comm (s : Screen) {k l : Layer} (h : k ≠ l) (f g : Array Ink → Array Ink) :
    (s.mapLayer k f).mapLayer l g = (s.mapLayer l g).mapLayer k f := by
  cases k <;> cases l
  · exact absurd rfl h
  · rfl
  · rfl
  · exact absurd rfl h

/-! ## Two drawings -/

theorem width_draw (s : Screen) (d : Drawing) : (s.draw d).width = s.width := by
  rw [draw_eq, width_mark, width_mapLayer]

theorem height_draw (s : Screen) (d : Drawing) : (s.draw d).height = s.height := by
  rw [draw_eq, height_mark, height_mapLayer]

theorem rect_draw (s : Screen) (d e : Drawing) : d.rect (s.draw e) = d.rect s := by
  cases d with
  | plot => rfl
  | fill => simp only [Drawing.rect, width_draw, height_draw]
  | run => rfl

theorem draw_draw_eq (s : Screen) (a b : Drawing) :
    (s.draw a).draw b =
      (((s.mapLayer a.layer (a.paint s.width s.height)).mapLayer b.layer
        (b.paint s.width s.height)).mark (a.rect s)).mark (b.rect s) := by
  rw [draw_eq (s.draw a), width_draw, height_draw, rect_draw, draw_eq s a, ← mark_mapLayer]

theorem draw_draw_comm (s : Screen) {a b : Drawing} (h : a.layer ≠ b.layer) :
    (s.draw a).draw b = (s.draw b).draw a := by
  rw [draw_draw_eq, draw_draw_eq, mapLayer_comm s h, mark_mark_comm]

end Screen

/-! ## What the calls hand back -/

def Drawing.answer : Drawing → Option Short
  | plot .. => none
  | fill .. => none
  | run _ b => some b.sourceEnd

namespace Screen

/-- Draws tiles that are read at a running address, and hands back where it stops. -/
def blitTiles (s : Screen) (ram : Ram) (b : SpriteRun) (tiles : List Nat) : Screen × Short :=
  tiles.foldl
    (fun (s, a) i =>
      (s.drawTile b.layer (.ofRam ram a b.twoPlanes) (b.placementAt i), a + b.stepSource))
    (s, b.source)

def blit (s : Screen) (ram : Ram) (b : SpriteRun) : Screen × Short :=
  let (t, a) := s.blitTiles ram b (List.range (b.extra.toNat + 1))
  (t.mark b.rect, a)

theorem blitTiles_range (s : Screen) (ram : Ram) (b : SpriteRun) (n : Nat) :
    s.blitTiles ram b (List.range n) =
      ((List.range n).foldl
        (fun s i =>
          s.drawTile b.layer (.ofRam ram (b.sourceAt i) b.twoPlanes) (b.placementAt i)) s,
        b.sourceAt n) := by
  induction n with
  | zero =>
      rw [b.sourceAt_zero]
      rfl
  | succ n ih =>
      rw [blitTiles] at ih ⊢
      rw [List.range_succ, List.foldl_append, List.foldl_append, ih, b.sourceAt_succ]
      rfl

theorem blit_eq (s : Screen) (ram : Ram) (b : SpriteRun) :
    s.blit ram b = (s.drawRun ram b, b.sourceEnd) := by
  rw [blit, blitTiles_range]
  rfl

def respond (s : Screen) : Drawing → Screen × Option Short
  | .plot l x y color => (s.plot l x y color, none)
  | .fill l x y color flipX flipY => (s.fill l x y color flipX flipY, none)
  | .run ram b => (s.blit ram b).map id some

def respondAll (s : Screen) : List Drawing → Screen × List (Layer × Option Short)
  | [] => (s, [])
  | d :: ds =>
      let (s, answer) := s.respond d
      let (s, answers) := s.respondAll ds
      (s, (d.layer, answer) :: answers)

theorem respond_eq (s : Screen) (d : Drawing) : s.respond d = (s.draw d, d.answer) := by
  cases d with
  | plot => rfl
  | fill => rfl
  | run ram b =>
      rw [respond, blit_eq]
      rfl

theorem respondAll_eq (s : Screen) (ds : List Drawing) :
    s.respondAll ds = (ds.foldl draw s, ds.map fun d => (d.layer, d.answer)) := by
  induction ds generalizing s with
  | nil => rfl
  | cons d ds ih => simp only [respondAll, respond_eq, ih, List.foldl_cons, List.map_cons]

end Screen

/-! ## Mixing two sequences -/

/-- The third list mixes the members of the other two and keeps each of them in order. -/
inductive Interleaved {α : Type} : List α → List α → List α → Prop where
  | nil : Interleaved [] [] []
  | left {u : α} {us vs ws : List α} :
      Interleaved us vs ws → Interleaved (u :: us) vs (u :: ws)
  | right {v : α} {us vs ws : List α} :
      Interleaved us vs ws → Interleaved us (v :: vs) (v :: ws)

namespace Interleaved

variable {α : Type} {us vs ws : List α} {p : α → Bool}

theorem filter_left (h : Interleaved us vs ws) (hu : ∀ u ∈ us, p u) (hv : ∀ v ∈ vs, ¬p v) :
    ws.filter p = us := by
  induction h with
  | nil => rfl
  | left h ih =>
      obtain ⟨hhead, hu⟩ := List.forall_mem_cons.mp hu
      rw [List.filter_cons_of_pos hhead, ih hu hv]
  | right h ih =>
      obtain ⟨hhead, hv⟩ := List.forall_mem_cons.mp hv
      rw [List.filter_cons_of_neg hhead, ih hu hv]

theorem symm (h : Interleaved us vs ws) : Interleaved vs us ws := by
  induction h with
  | nil => exact .nil
  | left _ ih => exact .right ih
  | right _ ih => exact .left ih

theorem map {β : Type} (f : α → β) (h : Interleaved us vs ws) :
    Interleaved (us.map f) (vs.map f) (ws.map f) := by
  induction h with
  | nil => exact .nil
  | left _ ih => exact .left ih
  | right _ ih => exact .right ih

end Interleaved

namespace Screen

theorem foldl_draw_comm (s : Screen) {ds : List Drawing} {e : Drawing}
    (h : ∀ d ∈ ds, e.layer ≠ d.layer) : ds.foldl draw (s.draw e) = (ds.foldl draw s).draw e := by
  induction ds generalizing s with
  | nil => rfl
  | cons d ds ih =>
      obtain ⟨hhead, hrest⟩ := List.forall_mem_cons.mp h
      rw [List.foldl_cons, List.foldl_cons, s.draw_draw_comm hhead, ih (s.draw d) hrest]

theorem foldl_draw_interleaved {fs bs ds : List Drawing} (h : Interleaved fs bs ds)
    (hlayers : ∀ f ∈ fs, ∀ b ∈ bs, b.layer ≠ f.layer) (s : Screen) :
    ds.foldl draw s = (fs ++ bs).foldl draw s := by
  induction h generalizing s with
  | nil => rfl
  | left h ih =>
      obtain ⟨-, hrest⟩ := List.forall_mem_cons.mp hlayers
      rw [List.cons_append, List.foldl_cons, List.foldl_cons, ih hrest]
  | @right b fs bs ds h ih =>
      have hhead (f : Drawing) (hf : f ∈ fs) : b.layer ≠ f.layer :=
        hlayers f hf b List.mem_cons_self
      have hrest (f : Drawing) (hf : f ∈ fs) (e : Drawing) (he : e ∈ bs) : e.layer ≠ f.layer :=
        hlayers f hf e (List.mem_cons_of_mem b he)
      rw [List.foldl_cons, ih hrest, List.foldl_append, List.foldl_append, List.foldl_cons,
        foldl_draw_comm s hhead]

theorem fst_of_mem_answers {ds : List Drawing} {l : Layer} (h : ∀ d ∈ ds, d.layer = l)
    {p : Layer × Option Short} (hp : p ∈ ds.map fun d => (d.layer, d.answer)) : p.1 = l := by
  obtain ⟨d, hd, rfl⟩ := List.mem_map.mp hp
  exact h d hd

/--
A drawing on the foreground and one on the background leave the same screen in
either order, and hand back the same.  So it does not matter how a sequence of
drawings on the foreground and one on the background are mixed: the screen is
the same, down to what is pending, and each sequence gets the answers it would
get by itself.
-/
theorem layers_commute (s : Screen) :
    (∀ a b : Drawing, a.layer = .foreground → b.layer = .background →
      ((s.respond a).1.respond b).1 = ((s.respond b).1.respond a).1 ∧
        (s.respond a).2 = ((s.respond b).1.respond a).2 ∧
        ((s.respond a).1.respond b).2 = (s.respond b).2) ∧
      ∀ fs bs ds : List Drawing, (∀ f ∈ fs, f.layer = .foreground) →
        (∀ b ∈ bs, b.layer = .background) → Interleaved fs bs ds →
        (s.respondAll ds).1 = (s.respondAll (fs ++ bs)).1 ∧
          (s.respondAll ds).2.filter (·.1 = .foreground) = (s.respondAll fs).2 ∧
          (s.respondAll ds).2.filter (·.1 = .background) = (s.respondAll bs).2 := by
  constructor
  · intro a b ha hb
    have hne : a.layer ≠ b.layer := by rw [ha, hb]; decide
    simp only [respond_eq, s.draw_draw_comm hne, and_self]
  · intro fs bs ds hf hb h
    have hlayers (f : Drawing) (hfs : f ∈ fs) (b : Drawing) (hbs : b ∈ bs) :
        b.layer ≠ f.layer := by
      rw [hf f hfs, hb b hbs]
      decide
    have hanswers := h.map fun d => (d.layer, d.answer)
    simp only [respondAll_eq]
    refine ⟨foldl_draw_interleaved h hlayers s, hanswers.filter_left ?_ ?_,
      hanswers.symm.filter_left ?_ ?_⟩
    · exact fun p hp => decide_eq_true (fst_of_mem_answers hf hp)
    · exact fun p hp => by simp [fst_of_mem_answers hb hp]
    · exact fun p hp => decide_eq_true (fst_of_mem_answers hb hp)
    · exact fun p hp => by simp [fst_of_mem_answers hf hp]

theorem layers_commute_off_screen :
    let run : SpriteRun := ⟨.foreground, 0xfff8, 0xfffc, 4, 5, true, false, false, 1, false, true,
      true⟩
    let s := (ofSize 16 16).render
    let below : List Drawing :=
      [.fill .background 17 0 2 false true, .plot .background 40 40 3]
    let mixed : List Drawing := [.fill .background 17 0 2 false true, .run .zero run,
      .plot .background 40 40 3]
    Interleaved [.run .zero run] below mixed ∧
      (s.respondAll mixed).1 = (s.respondAll (.run .zero run :: below)).1 ∧
      (s.respondAll mixed).2.filter (·.1 = .foreground) = [(.foreground, some 8)] := by
  intro run s below mixed
  have hmixed : Interleaved [.run .zero run] below mixed := .right (.left (.right .nil))
  obtain ⟨-, hall⟩ := layers_commute s
  obtain ⟨hsame, hfore, -⟩ := hall _ _ _ (by decide) (by decide) hmixed
  exact ⟨hmixed, hsame, hfore.trans (by decide +kernel)⟩

end Screen

end StackComputer
