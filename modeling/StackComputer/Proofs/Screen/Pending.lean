import StackComputer.Proofs.Screen.Marked

/-!
# What has gathered since the last rendering

Regions are arcs of the circle of positions.  Whatever regions are marked, one
after another, what is pending is the least rectangle around the cells of the
screen that they reach.  So it depends neither on their order nor on how often
they are marked.
-/

namespace StackComputer

/-! ## One region after another -/

namespace Span

/-- A span with a start past its end counted from 0, and cut off at the end of the axis. -/
def cut (s : Span) (size : Short) : Span :=
  ⟨if s.hi < s.lo then 0 else s.lo, min s.hi size⟩

theorem clip_eq (s : Span) (size : Short) :
    s.clip size = if (s.cut size).isEmpty then none else some (s.cut size) := by
  simp only [clip, cut, isEmpty, decide_eq_true_eq, ← UInt16.not_lt, ite_not]

theorem isEmpty_cut {s : Span} {size : Short} (hstart : size ≤ s.lo) (hlt : s.lo < s.hi) :
    (s.cut size).isEmpty := by
  have hwrap : ¬s.hi < s.lo := UInt16.not_lt.mpr (UInt16.le_of_lt hlt)
  rw [cut, if_neg hwrap, isEmpty, decide_eq_true_eq, UInt16.le_iff_toNat_le, Short.toNat_min]
  rw [UInt16.le_iff_toNat_le] at hstart
  dsimp only
  omega

end Span

namespace Rect

def cut (r : Rect) (width height : Short) : Rect :=
  ⟨r.x.cut width, r.y.cut height⟩

theorem clip_eq (r : Rect) (width height : Short) :
    r.clip width height =
      if (r.cut width height).isEmpty then none else some (r.cut width height) := by
  rw [clip, Span.clip_eq, Span.clip_eq, isEmpty, cut]
  cases (r.x.cut width).isEmpty <;> cases (r.y.cut height).isEmpty <;> rfl

theorem Within.isEmpty {r : Rect} {width height : Short} (h : r.Within width height) :
    r.isEmpty = false := by
  rw [Rect.isEmpty, Span.isEmpty, Span.isEmpty, Bool.or_eq_false_iff, decide_eq_false_iff_not,
    decide_eq_false_iff_not, UInt16.not_le, UInt16.not_le]
  exact ⟨h.x.1, h.y.1⟩

/--
Adds a region to a rectangle that may be empty.  Regions that begin off the far
edges are turned away first; what is left is cut, and joined unless it is empty.
-/
def change (pending r : Rect) (width height : Short) : Rect :=
  if width ≤ r.x.lo ∧ r.x.lo < r.x.hi then pending
  else if height ≤ r.y.lo ∧ r.y.lo < r.y.hi then pending
  else if (r.cut width height).isEmpty then pending
  else if pending.isEmpty then r.cut width height
  else pending.hull (r.cut width height)

/-- The early exits leave out nothing but regions without a visible cell. -/
theorem change_eq (pending r : Rect) (width height : Short) :
    pending.change r width height =
      if (r.cut width height).isEmpty then pending
      else if pending.isEmpty then r.cut width height
      else pending.hull (r.cut width height) := by
  unfold change
  by_cases hx : width ≤ r.x.lo ∧ r.x.lo < r.x.hi
  · have hempty : (r.cut width height).isEmpty := by
      rw [isEmpty, cut, Span.isEmpty_cut hx.1 hx.2, Bool.true_or]
    rw [if_pos hx, if_pos hempty]
  · by_cases hy : height ≤ r.y.lo ∧ r.y.lo < r.y.hi
    · have hempty : (r.cut width height).isEmpty := by
        rw [isEmpty, cut, Span.isEmpty_cut hy.1 hy.2, Bool.or_true]
      rw [if_neg hx, if_pos hy, if_pos hempty]
    · rw [if_neg hx, if_neg hy]

def Reaches (r : Rect) (x y : Short) : Prop :=
  r.x.Reaches x ∧ r.y.Reaches y

def Fits (width height : Short) (r : Rect) : Prop :=
  r.x.length + width.toNat ≤ 65536 ∧ r.y.length + height.toNat ≤ 65536

instance (width height : Short) (r : Rect) : Decidable (r.Fits width height) :=
  inferInstanceAs (Decidable (_ ∧ _))

theorem shows_iff_reaches {r : Rect} {width height x y : Short} (h : r.Fits width height) :
    r.Shows width height x y ↔ (x < width ∧ y < height) ∧ r.Reaches x y :=
  (and_congr (Span.shows_iff_reaches h.1) (Span.shows_iff_reaches h.2)).trans and_and_and_comm

end Rect

namespace Screen

variable {s : Screen}

theorem pendingRect_contains {x y : Short} : s.pendingRect.Contains x y ↔ s.IsPendingAt x y := by
  rw [pendingRect, IsPendingAt]
  cases s.pending with
  | none =>
      constructor
      · rintro ⟨⟨-, hx⟩, -⟩
        exact absurd hx UInt16.not_lt_zero
      · rintro ⟨r, hr, -⟩
        contradiction
  | some p =>
      constructor
      · exact fun h => ⟨p, rfl, h⟩
      · rintro ⟨r, hr, h⟩
        exact Option.some.inj hr ▸ h

theorem isEmpty_pendingRect (hs : s.PendingWithin) : s.pendingRect.isEmpty = !s.isPending := by
  rw [pendingRect, isPending]
  cases hpending : s.pending with
  | none => rfl
  | some p => exact (hs p hpending).isEmpty

theorem pendingRect_mark (hs : s.PendingWithin) (r : Rect) :
    (s.mark r).pendingRect = s.pendingRect.change r s.width s.height := by
  rw [Rect.change_eq, isEmpty_pendingRect hs, pendingRect, pending_mark, Rect.clip_eq]
  by_cases hcut : (r.cut s.width s.height).isEmpty
  · rw [if_pos hcut, if_pos hcut]
    rfl
  · rw [if_neg hcut, if_neg hcut, pendingRect, isPending]
    cases s.pending <;> rfl

/-! ## Sequences of regions -/

def markEach (s : Screen) (regions : List Rect) : Screen :=
  regions.foldl mark s

theorem markEach_cons (s : Screen) (r : Rect) (regions : List Rect) :
    s.markEach (r :: regions) = (s.mark r).markEach regions := rfl

theorem markEach_eq (s : Screen) (regions : List Rect) :
    s.markEach regions = { s with pending := (s.markEach regions).pending } := by
  induction regions generalizing s with
  | nil => rfl
  | cons r regions ih =>
      rw [markEach_cons, ih, mark_eq]

theorem PendingWithin.of_pending_eq_none (hs : s.pending = none) : s.PendingWithin := by
  intro r hr
  rw [hs] at hr
  contradiction

theorem PendingWithin.markEach (hs : s.PendingWithin) (regions : List Rect) :
    (s.markEach regions).PendingWithin := by
  induction regions generalizing s with
  | nil => exact hs
  | cons r regions ih => exact ih (hs.mark r)

theorem within_of_pending_markEach (hs : s.PendingWithin) {regions : List Rect} {r : Rect}
    (h : (s.markEach regions).pending = some r) : r.Within s.width s.height := by
  have hwithin := hs.markEach regions r h
  rwa [markEach_eq] at hwithin

theorem isPendingAt_markEach {x y : Short} (h : s.IsPendingAt x y) (regions : List Rect) :
    (s.markEach regions).IsPendingAt x y := by
  induction regions generalizing s with
  | nil => exact h
  | cons r regions ih => exact ih (isPendingAt_mark_of_isPendingAt h r)

theorem pendingRect_markEach (hs : s.PendingWithin) (regions : List Rect) :
    (s.markEach regions).pendingRect =
      regions.foldl (fun p r => p.change r s.width s.height) s.pendingRect := by
  induction regions generalizing s with
  | nil => rfl
  | cons r regions ih =>
      rw [markEach_cons, ih (hs.mark r), pendingRect_mark hs, width_mark, height_mark]
      rfl

theorem leastAround_markEach (hs : s.PendingWithin) (regions : List Rect) :
    Rect.LeastAround
      (fun x y => s.IsPendingAt x y ∨ ∃ r ∈ regions, r.Shows s.width s.height x y)
      (s.markEach regions).pending := by
  induction regions generalizing s with
  | nil => exact (leastAround_pending hs).congr fun x y => by simp
  | cons r regions ih =>
      have hrest := ih (hs.mark r)
      rw [width_mark, height_mark] at hrest
      refine ((leastAround_mark hs r).or hrest).congr fun x y => ?_
      simp only [or_assoc, List.mem_cons, exists_eq_or_imp]

theorem markEach_congr (hs : s.PendingWithin) {others regions : List Rect}
    (hmem : ∀ r, r ∈ others ↔ r ∈ regions) : s.markEach others = s.markEach regions := by
  have hothers := leastAround_markEach hs others
  simp only [hmem] at hothers
  have hsame : (s.markEach others).pending = (s.markEach regions).pending :=
    hothers.unique (leastAround_markEach hs regions)
      (fun _ => within_of_pending_markEach hs) (fun _ => within_of_pending_markEach hs)
  rw [markEach_eq, hsame]
  exact (s.markEach_eq regions).symm

def ReachedBy (s : Screen) (regions : List Rect) (x y : Short) : Prop :=
  (x < s.width ∧ y < s.height) ∧ ∃ r ∈ regions, r.Reaches x y

theorem leastAround_reachedBy (hs : s.pending = none) {regions : List Rect}
    (hfit : ∀ r ∈ regions, r.Fits s.width s.height) :
    Rect.LeastAround (s.ReachedBy regions) (s.markEach regions).pending := by
  refine (leastAround_markEach (.of_pending_eq_none hs) regions).congr fun x y => ?_
  have hnone : ¬s.IsPendingAt x y := by
    rintro ⟨r, hr, -⟩
    rw [hs] at hr
    contradiction
  rw [or_iff_right hnone, ReachedBy]
  constructor
  · rintro ⟨r, hr, h⟩
    obtain ⟨hin, hreaches⟩ := (Rect.shows_iff_reaches (hfit r hr)).mp h
    exact ⟨hin, r, hr, hreaches⟩
  · rintro ⟨hin, r, hr, hreaches⟩
    exact ⟨r, hr, (Rect.shows_iff_reaches (hfit r hr)).mpr ⟨hin, hreaches⟩⟩

/-! ## Taking what is pending -/

def takePending (s : Screen) : Option Rect × Screen :=
  (s.pending, { s with pending := none })

theorem render_eq_takePending (s : Screen) :
    s.render =
      match s.takePending with
      | (none, t) => t
      | (some r, t) =>
          { t with
            frame := Grid.paintRows (colorAt t.palette t.fg t.bg) t.width.toNat r.x.lo.toNat
              (r.x.hi.toNat - r.x.lo.toNat) (r.y.hi.toNat - r.y.lo.toNat) r.y.lo.toNat t.frame } := by
  obtain ⟨_, _, _, _, _, _, pending, _⟩ := s
  cases pending <;> rfl

theorem takePending_markEach (hs : s.pending = none) (regions : List Rect) :
    (s.markEach regions).takePending = ((s.markEach regions).pending, s) := by
  rw [takePending, markEach_eq]
  congr 1
  rw [← hs]

theorem pending_eq_pendingRect (hs : s.PendingWithin) :
    s.pending = if s.pendingRect.isEmpty then none else some s.pendingRect := by
  rw [isEmpty_pendingRect hs, isPending, pendingRect]
  cases s.pending <;> rfl

/--
Regions are marked on a screen with nothing pending, each fitting on the axes
together with the screen.  The rectangle kept of them is the least one around
the cells that they reach, and empty if there are none.  It lies on the screen,
only ever grows, and is handed out once.
-/
theorem marks_accumulate (hs : s.pending = none) {regions : List Rect}
    (hfit : ∀ r ∈ regions, r.Fits s.width s.height) :
    let t := s.markEach regions
    (∀ x y, s.ReachedBy regions x y → t.pendingRect.Contains x y) ∧
    (∀ q : Rect, (∀ x y, s.ReachedBy regions x y → q.Contains x y) →
      ∀ x y, t.pendingRect.Contains x y → q.Contains x y) ∧
    (t.pendingRect.isEmpty ↔ ∀ x y, ¬s.ReachedBy regions x y) ∧
    (t.pendingRect.x.hi ≤ s.width ∧ t.pendingRect.y.hi ≤ s.height) ∧
    (∀ more x y, t.pendingRect.Contains x y → (t.markEach more).pendingRect.Contains x y) ∧
    (∀ others, (∀ r, r ∈ others ↔ r ∈ regions) → s.markEach others = t) ∧
    t.pendingRect =
      regions.foldl (fun p r => p.change r s.width s.height) ⟨⟨0, 0⟩, ⟨0, 0⟩⟩ ∧
    t.takePending = (if t.pendingRect.isEmpty then none else some t.pendingRect, s) := by
  intro t
  have hnone : s.PendingWithin := .of_pending_eq_none hs
  have hwithin : t.PendingWithin := hnone.markEach regions
  have hleast : Rect.LeastAround (s.ReachedBy regions) t.pending := leastAround_reachedBy hs hfit
  have hpending := pending_eq_pendingRect hwithin
  refine ⟨?covers, ?least, ?empty, ?within, ?grows, ?order, ?steps, ?take⟩
  case covers => exact fun x y h => pendingRect_contains.mpr (hleast.covers x y h)
  case least =>
    intro q hq x y hxy
    obtain ⟨p, hp, hin⟩ := pendingRect_contains.mp hxy
    exact hleast.least p hp q hq x y hin
  case empty =>
    rw [← hleast.eq_none_iff, hpending]
    split <;> simp [*]
  case within =>
    rw [pendingRect]
    cases hsome : t.pending with
    | none => exact ⟨Nat.zero_le _, Nat.zero_le _⟩
    | some p =>
        have hp : p.Within s.width s.height := within_of_pending_markEach hnone hsome
        exact ⟨hp.x.2, hp.y.2⟩
  case grows =>
    intro more x y hxy
    exact pendingRect_contains.mpr (isPendingAt_markEach (pendingRect_contains.mp hxy) more)
  case order => exact fun others hmem => markEach_congr hnone hmem
  case steps =>
    rw [pendingRect_markEach hnone, pendingRect, hs]
    rfl
  case take => rw [takePending_markEach hs, ← hpending]

theorem marks_accumulate_wrapped :
    let s := (ofSize 64 64).render
    let regions : List Rect := [⟨⟨0xfffc, 4⟩, ⟨2, 10⟩⟩, ⟨⟨60, 100⟩, ⟨60, 100⟩⟩, ⟨⟨70, 78⟩, ⟨0, 8⟩⟩]
    s.pending = none ∧ (∀ r ∈ regions, r.Fits s.width s.height) ∧
      (s.markEach regions).takePending = (some ⟨⟨0, 64⟩, ⟨2, 64⟩⟩, s) := by
  intro s regions
  have hs : s.pending = none := rfl
  have hfit : ∀ r ∈ regions, r.Fits s.width s.height := by decide
  obtain ⟨-, -, -, -, -, -, -, htake⟩ := marks_accumulate hs hfit
  have hrect : (s.markEach regions).pendingRect = ⟨⟨0, 64⟩, ⟨2, 64⟩⟩ := by decide
  have hempty : (s.markEach regions).pendingRect.isEmpty = false := by rw [hrect]; decide
  refine ⟨hs, hfit, htake.trans ?_⟩
  rw [hempty, hrect]
  rfl

end Screen

end StackComputer
