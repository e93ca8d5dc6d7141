import HullRobot.Proofs.Robot.Panels
import HullRobot.Robot.Drawing

/-!
# Frames

The frame of a drawing is found by going through the painted panels in any order, and the rows and
columns of the frame are found by counting from one side to the other.

* `Frame.Fits`: the sides of a frame are the extreme coordinates of points.  `fits_around`: **going
  through panels gives a frame that fits them.**  `Lists.around_eq`: the order does not matter.
* `Counts`: counting comes to its end.  `counts_span`: it does so if the last coordinate is not the
  largest cell.
* `walk_keeps_parity`: the walk of the robot stays far from there.
-/

namespace HullRobot

instance Int64.lawfulOrderMax : Std.LawfulOrderMax Int64 where
  max_le_iff := by
    intro a b c
    show (if a ≤ b then b else a) ≤ c ↔ _
    simp only [Int64.le_iff_toInt_le]
    split <;> omega
  max_eq_or := by
    intro a b
    show (if a ≤ b then b else a) = a ∨ (if a ≤ b then b else a) = b
    by_cases hLe : a ≤ b
    · exact .inr (if_pos hLe)
    · exact .inl (if_neg hLe)

namespace Robot

/-! ### Sides -/

namespace Frame

/-- The sides of the frame are where the outermost of the points are. -/
structure Fits (f : Frame) (ps : List Point) : Prop where
  west : (ps.map Point.x).min? = some f.low.x
  east : (ps.map Point.x).max? = some f.high.x
  north : (ps.map Point.y).min? = some f.low.y
  south : (ps.map Point.y).max? = some f.high.y

/-- **Going through panels gives a frame that fits them.** -/
theorem fits_around {order : List (Point × Int64)} {f : Frame} (h : around order = some f) :
    f.Fits (order.map Prod.fst) := by
  cases order with
  | nil => cases h
  | cons first rest =>
    obtain ⟨p, color⟩ := first
    cases h
    -- Each side grows by itself.
    have hSide : ∀ (side : Frame → Int64) (part : Point → Int64) (pick : Int64 → Int64 → Int64),
        (∀ (f : Frame) (q : Point), side (f.extend q) = pick (side f) (part q)) →
        ∀ f : Frame, ((rest.map Prod.fst).map part).foldl pick (side f) =
          side (rest.foldl (fun f q => f.extend q.1) f) := by
      intro side part pick hExtend f
      rw [List.map_map, List.foldl_map]
      exact List.foldl_hom side fun f q => (hExtend f q.1).symm
    refine ⟨?_, ?_, ?_, ?_⟩
    · exact congrArg some (hSide (·.low.x) Point.x min (fun _ _ => rfl) ⟨p, p⟩)
    · exact congrArg some (hSide (·.high.x) Point.x max (fun _ _ => rfl) ⟨p, p⟩)
    · exact congrArg some (hSide (·.low.y) Point.y min (fun _ _ => rfl) ⟨p, p⟩)
    · exact congrArg some (hSide (·.high.y) Point.y max (fun _ _ => rfl) ⟨p, p⟩)

section

variable {f g : Frame} {ps qs : List Point}

/-- A frame that fits points holds all of them. -/
theorem Fits.holds (h : f.Fits ps) {p : Point} (hp : p ∈ ps) :
    f.low.x ≤ p.x ∧ p.x ≤ f.high.x ∧ f.low.y ≤ p.y ∧ p.y ≤ f.high.y := by
  have hx := List.mem_map_of_mem (f := Point.x) hp
  have hy := List.mem_map_of_mem (f := Point.y) hp
  exact ⟨(List.min?_eq_some_iff.mp h.west).2 _ hx, (List.max?_eq_some_iff.mp h.east).2 _ hx,
    (List.min?_eq_some_iff.mp h.north).2 _ hy, (List.max?_eq_some_iff.mp h.south).2 _ hy⟩

/-- Each side of a frame that fits points has one of them. -/
theorem Fits.sides (h : f.Fits ps) : (∃ p ∈ ps, p.x = f.low.x) ∧ (∃ p ∈ ps, p.x = f.high.x) ∧
    (∃ p ∈ ps, p.y = f.low.y) ∧ ∃ p ∈ ps, p.y = f.high.y :=
  ⟨List.mem_map.mp (List.min?_eq_some_iff.mp h.west).1,
    List.mem_map.mp (List.max?_eq_some_iff.mp h.east).1,
    List.mem_map.mp (List.min?_eq_some_iff.mp h.north).1,
    List.mem_map.mp (List.max?_eq_some_iff.mp h.south).1⟩

/-- Only the set of points counts. -/
theorem Fits.of_mem_iff (h : f.Fits ps) (hMem : ∀ p, p ∈ ps ↔ p ∈ qs) : f.Fits qs := by
  have hPart : ∀ (part : Point → Int64) (x : Int64), x ∈ qs.map part ↔ x ∈ ps.map part := by
    intro part x
    simp only [List.mem_map, hMem]
  obtain ⟨hWest, hEast, hNorth, hSouth⟩ := h
  refine ⟨?_, ?_, ?_, ?_⟩
  · rw [List.min?_eq_some_iff] at hWest ⊢
    simpa only [hPart] using hWest
  · rw [List.max?_eq_some_iff] at hEast ⊢
    simpa only [hPart] using hEast
  · rw [List.min?_eq_some_iff] at hNorth ⊢
    simpa only [hPart] using hNorth
  · rw [List.max?_eq_some_iff] at hSouth ⊢
    simpa only [hPart] using hSouth

theorem Fits.unique (h : f.Fits ps) (h' : g.Fits ps) : f = g := by
  obtain ⟨⟨lowX, lowY⟩, ⟨highX, highY⟩⟩ := f
  obtain ⟨⟨lowX', lowY'⟩, ⟨highX', highY'⟩⟩ := g
  obtain rfl : lowX = lowX' := Option.some.inj (h.west.symm.trans h'.west)
  obtain rfl : highX = highX' := Option.some.inj (h.east.symm.trans h'.east)
  obtain rfl : lowY = lowY' := Option.some.inj (h.north.symm.trans h'.north)
  obtain rfl : highY = highY' := Option.some.inj (h.south.symm.trans h'.south)
  rfl

end

theorem around_eq_some_iff {order : List (Point × Int64)} {f : Frame} :
    around order = some f ↔ f.Fits (order.map Prod.fst) := by
  refine ⟨fits_around, fun h => ?_⟩
  cases hAround : around order with
  | none =>
    cases order with
    | nil => cases h.west
    | cons first rest => cases hAround
  | some g => rw [(fits_around hAround).unique h]

end Frame

/-- **The frame does not depend on the order in which the panels are gone through.** -/
theorem Lists.around_eq {r : Robot} {order : List (Point × Int64)} (h : r.Lists order) :
    Frame.around order = r.frame? := by
  have hMem := fun p => ((h.perm r.lists_panelList).map Prod.fst).mem_iff (a := p)
  rw [frame?]
  refine Option.ext fun f => ?_
  rw [Frame.around_eq_some_iff, Frame.around_eq_some_iff]
  exact ⟨fun hFits => hFits.of_mem_iff hMem, fun hFits => hFits.of_mem_iff fun p => (hMem p).symm⟩

/-! ### Counting -/

/-- Counting up from a coordinate, as long as `high` is not passed, goes through these coordinates
and then comes to its end. -/
inductive Counts (high : Int64) : Int64 → List Int64 → Prop
  | done {x : Int64} (h : ¬x ≤ high) : Counts high x []
  | next {x : Int64} {xs : List Int64} (h : x ≤ high) (hRest : Counts high (x + 1) xs) :
      Counts high x (x :: xs)

theorem length_span (low high : Int64) :
    (span low high).length = (high.toInt - low.toInt + 1).toNat := by
  rw [span, List.length_map, List.length_range]

theorem span_of_lt {low high : Int64} (h : ¬low ≤ high) : span low high = [] := by
  rw [Int64.le_iff_toInt_le] at h
  rw [← List.length_eq_zero_iff, length_span]
  omega

theorem toInt_add_ofNat {a : Int64} {n : Nat} (h : a.toInt + n < 2 ^ 63) :
    (a + Int64.ofNat n).toInt = a.toInt + n := by
  have hSum : a + Int64.ofNat n = Int64.ofInt (a.toInt + n) := by
    rw [Int64.ofInt_add, Int64.ofInt_toInt]
    rfl
  have hLow := a.le_toInt
  rw [hSum]
  exact Int64.toInt_ofInt_of_le (by omega) h

theorem span_cons {low high : Int64} (h : low ≤ high) (hHigh : high.toInt < 2 ^ 63 - 1) :
    span low high = low :: span (low + 1) high := by
  have hLe := Int64.le_iff_toInt_le.mp h
  have hCount : (high.toInt - low.toInt + 1).toNat =
      (high.toInt - (low + 1).toInt + 1).toNat + 1 := by
    have hNext : (low + 1).toInt = low.toInt + 1 := toInt_add_ofNat (n := 1) (by omega)
    rw [hNext]
    omega
  rw [span, span, hCount, List.range_succ_eq_map, List.map_cons, List.map_map]
  refine congr (congrArg List.cons (Int64.add_zero low)) (List.map_congr_left fun i _ => ?_)
  rw [Function.comp, Nat.succ_eq_add_one, Int64.ofNat_add, Int64.add_assoc,
    Int64.add_comm (Int64.ofNat i)]
  rfl

/-- **Counting to a coordinate comes to its end**, unless that is the largest cell. -/
theorem counts_span (low : Int64) {high : Int64} (hHigh : high.toInt < 2 ^ 63 - 1) :
    Counts high low (span low high) := by
  induction hLength : (span low high).length generalizing low with
  | zero =>
    have hPast : ¬low ≤ high := by
      intro hLe
      rw [span_cons hLe hHigh] at hLength
      cases hLength
    rw [span_of_lt hPast]
    exact .done hPast
  | succ n ih =>
    have hLe : low ≤ high := by
      by_contra hPast
      rw [span_of_lt hPast] at hLength
      cases hLength
    rw [span_cons hLe hHigh] at hLength ⊢
    exact .next hLe (ih (low + 1) (Nat.succ.inj hLength))

/-! ### The walk -/

/-- The panels in the list are those that were marked. -/
theorem mem_panels_iff (start : Int64) (vs : List Int64) (p : Point) :
    p ∈ ((new start).writeAll vs).1.panelList.map Prod.fst ↔
      p ∈ (Track.start.marks vs).map Prod.fst := by
  rw [(lists_panelList _).mem_keys_iff, color?_eq_lastMark?, isSome_lastMark?]

/-- The frame fits the panels that were marked. -/
theorem frame?_eq_some_iff (start : Int64) (vs : List Int64) (f : Frame) :
    ((new start).writeAll vs).1.frame? = some f ↔ f.Fits ((Track.start.marks vs).map Prod.fst) := by
  have hMem := mem_panels_iff start vs
  rw [frame?, Frame.around_eq_some_iff]
  exact ⟨fun h => h.of_mem_iff hMem, fun h => h.of_mem_iff fun p => (hMem p).symm⟩

/-- The frame around a walk that one can make is near the origin. -/
theorem frame_small {vs : List Int64} (h : vs.length < 2 ^ 63) {f : Frame}
    (hFits : f.Fits ((Track.start.marks vs).map Prod.fst)) :
    f.high.x.toInt < 2 ^ 63 - 1 ∧ f.high.y.toInt < 2 ^ 63 - 1 := by
  obtain ⟨-, ⟨p, hp, hx⟩, -, ⟨q, hq, hy⟩⟩ := hFits.sides
  have hEast := (Track.natAbs_of_mem_marks h hp).1
  have hSouth := (Track.natAbs_of_mem_marks h hq).2
  rw [hx] at hEast
  rw [hy] at hSouth
  omega

/-- **A move leads to another panel**, since it changes the parity of a coordinate. -/
theorem position_ne_next (start : Int64) {vs : List Int64} (h : vs.length < 2 ^ 63) {k : Nat}
    (hk : 2 * k + 2 < vs.length) :
    ((new start).writeAll (vs.take (2 * k))).1.position ≠
      ((new start).writeAll (vs.take (2 * k + 2))).1.position := by
  intro hSame
  have hLength : (vs.take (2 * k)).length = 2 * k := List.length_take_of_le (by omega)
  have hLength' : (vs.take (2 * k + 2)).length = 2 * k + 2 := List.length_take_of_le (by omega)
  obtain ⟨hx, hy⟩ := @toInt_position start (vs.take (2 * k)) (by omega)
  obtain ⟨hx', hy'⟩ := @toInt_position start (vs.take (2 * k + 2)) (by omega)
  have hPaced := Track.paced_after (vs.take (2 * k))
  have hPaced' := Track.paced_after (vs.take (2 * k + 2))
  have hxParity := hPaced.sideways.parity
  have hyParity := hPaced.vertical.parity
  have hxParity' := hPaced'.sideways.parity
  have hyParity' := hPaced'.vertical.parity
  rw [hSame, hx'] at hx
  rw [hSame, hy'] at hy
  rw [hx, hLength'] at hxParity'
  rw [hy, hLength'] at hyParity'
  rw [hLength] at hxParity hyParity
  omega

/-- **The walk of the robot keeps its parity.**  After an odd number of values a turn is next.  The
robot looks up or down after an even number of moves.  Odd moves go sideways and even ones up or
down, which bounds both coordinates and gives their parities.  So they are those of a walk over an
unbounded hull, no two paints in a row meet the same panel, and counting the rows and columns of the
drawing comes to its end. -/
theorem walk_keeps_parity (start : Int64) (vs : List Int64) (hShort : vs.length < 2 ^ 63) :
    let r := ((new start).writeAll vs).1
    let moves := vs.length / 2
    (r.turning = true ↔ vs.length % 2 = 1) ∧
      (r.heading = .north ∨ r.heading = .south ↔ moves % 2 = 0) ∧
      Heading.ofCode? (Heading.codeAfter 0 vs) = some r.heading ∧
      r.position.x.toInt.natAbs ≤ (moves + 1) / 2 ∧
      r.position.x.toInt.natAbs % 2 = (moves + 1) / 2 % 2 ∧
      r.position.y.toInt.natAbs ≤ moves / 2 ∧
      r.position.y.toInt.natAbs % 2 = moves / 2 % 2 ∧
      r.position.x.toInt = (Track.start.after vs).x ∧
      r.position.y.toInt = (Track.start.after vs).y ∧
      (∀ k, 2 * k + 2 < vs.length → ((new start).writeAll (vs.take (2 * k))).1.position ≠
        ((new start).writeAll (vs.take (2 * k + 2))).1.position) ∧
      ∀ f, r.frame? = some f → Counts f.high.x f.low.x (span f.low.x f.high.x) ∧
        Counts f.high.y f.low.y (span f.low.y f.high.y) := by
  intro r moves
  have hPaced : Track.Paced moves (Track.start.after vs) := Track.paced_after vs
  obtain ⟨hx, hy⟩ := toInt_position start hShort
  refine ⟨?_, ?_, ?_, hx ▸ hPaced.sideways.le, hx ▸ hPaced.sideways.parity, hy ▸ hPaced.vertical.le,
    hy ▸ hPaced.vertical.parity, hx, hy, fun k hk => position_ne_next start hShort hk,
    fun f hFrame => ?_⟩
  · have hTurning := turning_taken (new start) vs
    rw [← writeAll_fst] at hTurning
    show ((new start).writeAll vs).1.turning = true ↔ _
    rw [hTurning]
    simp [new]
  · have hdx : r.heading.dx = _ := (follows_track start vs).dx_eq
    rw [Heading.vertical_iff, hdx]
    constructor
    · intro hZero
      by_contra hOdd
      have hSide := (hPaced.odd_ahead (by omega)).1
      omega
    · intro hEven
      exact (hPaced.even_ahead hEven).1
  · have hPose : r.pose = Pose.start.after vs := by
      show ((new start).writeAll vs).1.pose = _
      rw [writeAll_fst, ((truthful_new start).taken vs).1]
      rfl
    rw [show r.heading = r.pose.heading from rfl, hPose]
    exact Heading.ofCode?_codeAfter rfl vs
  · obtain ⟨hEast, hSouth⟩ := frame_small hShort ((frame?_eq_some_iff start vs f).mp hFrame)
    exact ⟨counts_span _ hEast, counts_span _ hSouth⟩

/-- Two strides and a paint, which lead to the north-west. -/
theorem walk_keeps_parity_northwest :
    let vs : List Int64 := [1, 0, 0, 1, 1]
    let r := ((new 0).writeAll vs).1
    vs.length < 2 ^ 63 ∧ r.turning = true ∧ r.heading = .north ∧
      r.position.x.toInt = -1 ∧ r.position.y.toInt = -1 ∧
      ((new 0).writeAll [1, 0]).1.position ≠ ((new 0).writeAll [1, 0, 0, 1]).1.position := by
  intro vs r
  have hShort : vs.length < 2 ^ 63 := by decide
  obtain ⟨hTurning, -, hCode, -, -, -, -, hx, hy, hMoves, -⟩ := walk_keeps_parity 0 vs hShort
  refine ⟨hShort, hTurning.mpr (by decide), ?_, hx, hy, hMoves 1 (by decide)⟩
  exact (Option.some.inj hCode).symm

end Robot

end HullRobot
