import StackComputer.Proofs.Screen.WellFormed

/-!
# Least rectangles

What is pending is kept as one rectangle.  Marking a region makes it the least
rectangle around what was pending and what clipping leaves of the region, so
cells are marked in vain only where one rectangle cannot avoid it.
-/

namespace StackComputer

namespace Span

/-- What clipping to an axis of the given size leaves of a span. -/
def Shows (s : Span) (size x : Short) : Prop :=
  ∃ t, s.clip size = some t ∧ t.Contains x

theorem shows_iff {s : Span} {size x : Short} :
    s.Shows size x ↔ x < size ∧ x < s.hi ∧ (s.hi < s.lo ∨ s.lo ≤ x) := by
  constructor
  · rintro ⟨t, ht, hlo, hhi⟩
    unfold clip at ht
    simp only [Option.ite_none_right_eq_some, Option.some.injEq] at ht
    obtain ⟨-, rfl⟩ := ht
    rw [UInt16.lt_iff_toNat_lt, Short.toNat_min] at hhi
    refine ⟨UInt16.lt_iff_toNat_lt.mpr (by omega), UInt16.lt_iff_toNat_lt.mpr (by omega), ?_⟩
    by_cases hwrap : s.hi < s.lo
    · exact .inl hwrap
    · rw [if_neg hwrap] at hlo
      exact .inr hlo
  · rintro ⟨hx, hhi, hlo⟩
    exact clip_contains hx hhi hlo

theorem contains_iff_shows {s t : Span} {size x : Short} (h : s.clip size = some t) :
    t.Contains x ↔ s.Shows size x := by
  rw [Shows, h]
  exact ⟨fun hx => ⟨t, rfl, hx⟩, fun ⟨u, hu, hx⟩ => Option.some.inj hu ▸ hx⟩

theorem le_of_contains {s t : Span} (hs : s.lo < s.hi) (h : ∀ x, s.Contains x → t.Contains x) :
    t.lo ≤ s.lo ∧ s.hi ≤ t.hi := by
  have hpos := UInt16.lt_iff_toNat_lt.mp hs
  have hpred : (s.hi - 1).toNat = s.hi.toNat - 1 := by
    rw [UInt16.toNat_sub]
    have := s.hi.toNat_lt
    change (2 ^ 16 - 1 + s.hi.toNat) % 2 ^ 16 = _
    omega
  have hfirst : s.Contains s.lo := ⟨UInt16.le_rfl, hs⟩
  have hlast : s.Contains (s.hi - 1) := by
    constructor
    · rw [UInt16.le_iff_toNat_le]
      omega
    · rw [UInt16.lt_iff_toNat_lt]
      omega
  have hend := UInt16.lt_iff_toNat_lt.mp (h _ hlast).2
  refine ⟨(h _ hfirst).1, ?_⟩
  rw [UInt16.le_iff_toNat_le]
  omega

theorem hull_contains_of_le {s t q : Span} (hs : q.lo ≤ s.lo ∧ s.hi ≤ q.hi)
    (ht : q.lo ≤ t.lo ∧ t.hi ≤ q.hi) {x : Short} (hx : (s.hull t).Contains x) : q.Contains x := by
  simp only [Contains, hull, UInt16.le_iff_toNat_le, UInt16.lt_iff_toNat_lt, Short.toNat_min,
    Short.toNat_max] at hs ht hx ⊢
  omega

end Span

namespace Rect

def Shows (r : Rect) (width height x y : Short) : Prop :=
  r.x.Shows width x ∧ r.y.Shows height y

theorem contains_iff_shows {r t : Rect} {width height : Short} (h : r.clip width height = some t)
    (x y : Short) : t.Contains x y ↔ r.Shows width height x y := by
  unfold clip at h
  split at h
  · next across down hacross hdown =>
      cases h
      exact and_congr (Span.contains_iff_shows hacross) (Span.contains_iff_shows hdown)
  · contradiction

theorem not_shows_of_clip_eq_none {r : Rect} {width height : Short} (h : r.clip width height = none)
    (x y : Short) : ¬r.Shows width height x y := by
  rintro ⟨⟨across, hacross, -⟩, down, hdown, -⟩
  rw [clip_eq_some hacross hdown] at h
  contradiction

theorem Within.contains_corner {r : Rect} {width height : Short} (h : r.Within width height) :
    r.Contains r.x.lo r.y.lo :=
  ⟨⟨UInt16.le_rfl, h.x.1⟩, UInt16.le_rfl, h.y.1⟩

theorem Within.le_of_contains {r q : Rect} {width height : Short} (h : r.Within width height)
    (hq : ∀ x y, r.Contains x y → q.Contains x y) :
    (q.x.lo ≤ r.x.lo ∧ r.x.hi ≤ q.x.hi) ∧ q.y.lo ≤ r.y.lo ∧ r.y.hi ≤ q.y.hi := by
  obtain ⟨hx, hy⟩ := h.contains_corner
  exact ⟨Span.le_of_contains h.x.1 fun x h' => (hq x r.y.lo ⟨h', hy⟩).1,
    Span.le_of_contains h.y.1 fun y h' => (hq r.x.lo y ⟨hx, h'⟩).2⟩

theorem hull_contains_of_within {r t q : Rect} {width height : Short} (hr : r.Within width height)
    (ht : t.Within width height) (hrq : ∀ x y, r.Contains x y → q.Contains x y)
    (htq : ∀ x y, t.Contains x y → q.Contains x y) {x y : Short}
    (h : (r.hull t).Contains x y) : q.Contains x y :=
  have hr := hr.le_of_contains hrq
  have ht := ht.le_of_contains htq
  ⟨Span.hull_contains_of_le hr.1 ht.1 h.1, Span.hull_contains_of_le hr.2 ht.2 h.2⟩

/-- The least rectangle around the cells of `P`, which is missing if there are none. -/
structure LeastAround (P : Short → Short → Prop) (r : Option Rect) : Prop where
  covers : ∀ x y, P x y → ∃ t, r = some t ∧ t.Contains x y
  occupied : ∀ t, r = some t → ∃ x y, P x y
  least : ∀ t, r = some t → ∀ q : Rect, (∀ x y, P x y → q.Contains x y) →
    ∀ x y, t.Contains x y → q.Contains x y

theorem LeastAround.congr {P Q : Short → Short → Prop} {r : Option Rect} (h : LeastAround P r)
    (hpq : ∀ x y, P x y ↔ Q x y) : LeastAround Q r := by
  obtain rfl : P = Q := funext fun x => funext fun y => propext (hpq x y)
  exact h

theorem LeastAround.or {P Q : Short → Short → Prop} {r t : Option Rect} (hr : LeastAround P r)
    (ht : LeastAround (fun x y => (∃ u, r = some u ∧ u.Contains x y) ∨ Q x y) t) :
    LeastAround (fun x y => P x y ∨ Q x y) t where
  covers x y := by
    rintro (h | h)
    · exact ht.covers x y (.inl (hr.covers x y h))
    · exact ht.covers x y (.inr h)
  occupied u hu := by
    obtain ⟨x, y, ⟨v, hv, -⟩ | h⟩ := ht.occupied u hu
    · obtain ⟨x', y', h⟩ := hr.occupied v hv
      exact ⟨x', y', .inl h⟩
    · exact ⟨x, y, .inr h⟩
  least u hu q hq := by
    apply ht.least u hu q
    rintro x y (⟨v, hv, hin⟩ | h)
    · exact hr.least v hv q (fun x y h => hq x y (.inl h)) x y hin
    · exact hq x y (.inr h)

theorem Within.eq_of_contains {r t : Rect} {width height : Short} (hr : r.Within width height)
    (ht : t.Within width height) (h : ∀ x y, r.Contains x y ↔ t.Contains x y) : r = t := by
  obtain ⟨⟨hxlo, hxhi⟩, hylo, hyhi⟩ := hr.le_of_contains fun x y => (h x y).mp
  obtain ⟨⟨hxlo', hxhi'⟩, hylo', hyhi'⟩ := ht.le_of_contains fun x y => (h x y).mpr
  obtain ⟨⟨xlo, xhi⟩, ⟨ylo, yhi⟩⟩ := r
  obtain ⟨⟨xlo', xhi'⟩, ⟨ylo', yhi'⟩⟩ := t
  obtain rfl : xlo = xlo' := UInt16.le_antisymm hxlo' hxlo
  obtain rfl : xhi = xhi' := UInt16.le_antisymm hxhi hxhi'
  obtain rfl : ylo = ylo' := UInt16.le_antisymm hylo' hylo
  obtain rfl : yhi = yhi' := UInt16.le_antisymm hyhi hyhi'
  rfl

theorem LeastAround.contains {P : Short → Short → Prop} {p : Rect} (h : LeastAround P (some p))
    {x y : Short} (hxy : P x y) : p.Contains x y := by
  obtain ⟨t, ht, hin⟩ := h.covers x y hxy
  exact Option.some.inj ht ▸ hin

theorem LeastAround.eq_none_iff {P : Short → Short → Prop} {r : Option Rect}
    (h : LeastAround P r) : r = none ↔ ∀ x y, ¬P x y := by
  constructor
  · rintro rfl x y hxy
    obtain ⟨t, ht, -⟩ := h.covers x y hxy
    contradiction
  · intro hnone
    cases r with
    | none => rfl
    | some t =>
        obtain ⟨x, y, hxy⟩ := h.occupied t rfl
        exact absurd hxy (hnone x y)

theorem LeastAround.unique {P : Short → Short → Prop} {r t : Option Rect} {width height : Short}
    (hr : LeastAround P r) (ht : LeastAround P t) (hrin : ∀ u, r = some u → u.Within width height)
    (htin : ∀ u, t = some u → u.Within width height) : r = t := by
  cases r with
  | none =>
      cases t with
      | none => rfl
      | some v => exact (ht.eq_none_iff.mpr (hr.eq_none_iff.mp rfl)).symm
  | some u =>
      obtain ⟨x, y, h⟩ := hr.occupied u rfl
      obtain ⟨v, rfl, -⟩ := ht.covers x y h
      have hle := hr.least u rfl v fun x y => ht.contains
      have hge := ht.least v rfl u fun x y => hr.contains
      exact congrArg some
        ((hrin u rfl).eq_of_contains (htin v rfl) fun x y => ⟨hle x y, hge x y⟩)

end Rect

namespace Screen

variable {s : Screen}

theorem leastAround_pending (hs : s.PendingWithin) : Rect.LeastAround s.IsPendingAt s.pending where
  covers _ _ h := h
  occupied t ht := ⟨_, _, t, ht, (hs t ht).contains_corner⟩
  least t ht _ hq x y hxy := hq x y ⟨t, ht, hxy⟩

theorem mark_of_not_shows {r : Rect} (h : ∀ x y, ¬r.Shows s.width s.height x y) :
    s.mark r = s := by
  unfold mark
  cases hclip : r.clip s.width s.height with
  | none => rfl
  | some t =>
      have hcorner := (Rect.clip_within hclip).contains_corner
      exact absurd ((Rect.contains_iff_shows hclip _ _).mp hcorner) (h _ _)

theorem leastAround_mark (hs : s.PendingWithin) (r : Rect) :
    Rect.LeastAround (fun x y => s.IsPendingAt x y ∨ r.Shows s.width s.height x y)
      (s.mark r).pending := by
  cases hclip : r.clip s.width s.height with
  | none =>
      have hnone := Rect.not_shows_of_clip_eq_none hclip
      rw [mark_of_not_shows hnone]
      exact (leastAround_pending hs).congr fun x y => (or_iff_left (hnone x y)).symm
  | some t =>
      have hshows := Rect.contains_iff_shows hclip
      have ht := Rect.clip_within hclip
      refine ⟨?covers, ?occupied, ?least⟩
      case covers =>
        rintro x y (h | h)
        · exact isPendingAt_mark_of_isPendingAt h r
        · exact isPendingAt_mark hclip ((hshows x y).mpr h)
      case occupied =>
        exact fun _ _ => ⟨_, _, .inr ((hshows _ _).mp ht.contains_corner)⟩
      case least =>
        intro u hu q hq x y hxy
        have htq (x y : Short) (h : t.Contains x y) : q.Contains x y :=
          hq x y (.inr ((hshows x y).mp h))
        rw [pending_mark, hclip, Option.some.injEq] at hu
        subst hu
        cases hpending : s.pending with
        | none =>
            rw [hpending] at hxy
            exact htq x y hxy
        | some p =>
            rw [hpending] at hxy
            exact Rect.hull_contains_of_within (hs p hpending) ht
              (fun x y h => hq x y (.inl ⟨p, hpending, h⟩)) htq hxy

end Screen

end StackComputer
