import HullRobot.Proofs.Robot.Drawn
import HullRobot.Proofs.Robot.Frame

/-!
# The picture of the hull

A drawing is looked at by row and column.  Its frame fits the panels that were marked, so the place
of a character tells its panel.

* `getElem?_span`, `charAt_drawing_eq_some_iff`: **which panel is shown where.**
* `DrawnAlong`: how the hull is drawn, if the panels are gone through in any order.
  `drawnAlong_iff`: **it is always the same drawing.**
* `drawing_shows_hull`: the drawing is a picture of the hull, and a sink gets as much of it as it
  has room for.
-/

namespace HullRobot.Robot

variable {r : Robot} {f : Frame}

/-! ### Rows and columns -/

/-- The character at a place of a drawing. -/
def charAt (rows : List (List Char)) (row column : Nat) : Option Char :=
  rows[row]?.bind (·[column]?)

theorem getElem?_span {low high x : Int64} {i : Nat} :
    (span low high)[i]? = some x ↔ x.toInt = low.toInt + i ∧ x ≤ high := by
  have hBound := high.toInt_lt
  rw [Int64.le_iff_toInt_le, span, List.getElem?_map, Option.map_eq_some_iff]
  simp only [List.getElem?_eq_some_iff, List.getElem_range, List.length_range, exists_prop]
  constructor
  · rintro ⟨_, ⟨hi, rfl⟩, rfl⟩
    rw [toInt_add_ofNat (by omega)]
    omega
  · rintro ⟨hx, hHigh⟩
    refine ⟨i, ⟨by omega, rfl⟩, Int64.toInt_inj.mp ?_⟩
    rw [toInt_add_ofNat (by omega), hx]

theorem drawing_of_frame (h : r.frame? = some f) :
    r.drawing = (span f.low.y f.high.y).map fun y =>
      (span f.low.x f.high.x).map fun x => r.mark ⟨x, y⟩ := by
  rw [drawing, h]

/-- **The place of a character tells its panel.** -/
theorem charAt_drawing_eq_some_iff (h : r.frame? = some f) {row column : Nat} {c : Char} :
    charAt r.drawing row column = some c ↔ ∃ p : Point, p.x.toInt = f.low.x.toInt + column ∧
      p.y.toInt = f.low.y.toInt + row ∧ p.x ≤ f.high.x ∧ p.y ≤ f.high.y ∧ r.mark p = c := by
  simp only [charAt, drawing_of_frame h, List.getElem?_map, Option.bind_eq_some_iff,
    Option.map_eq_some_iff, getElem?_span]
  constructor
  · rintro ⟨_, ⟨y, ⟨hy, hSouth⟩, rfl⟩, hRow⟩
    rw [List.getElem?_map, Option.map_eq_some_iff] at hRow
    obtain ⟨x, hx, hMark⟩ := hRow
    obtain ⟨hx, hEast⟩ := getElem?_span.mp hx
    exact ⟨⟨x, y⟩, hx, hy, hEast, hSouth, hMark⟩
  · rintro ⟨⟨x, y⟩, hx, hy, hEast, hSouth, hMark⟩
    refine ⟨_, ⟨y, ⟨hy, hSouth⟩, rfl⟩, ?_⟩
    rw [List.getElem?_map, getElem?_span.mpr ⟨hx, hEast⟩, Option.map_some, hMark]

/-- The frame has as many rows and columns as the drawing. -/
theorem size_drawing (h : r.frame? = some f) {ps : List Point} (hFits : f.Fits ps) :
    (r.drawing.length : Int) = f.high.y.toInt - f.low.y.toInt + 1 ∧
      ∀ row ∈ r.drawing, (row.length : Int) = f.high.x.toInt - f.low.x.toInt + 1 := by
  obtain ⟨⟨p, hp, -⟩, -⟩ := hFits.sides
  obtain ⟨hWest, hEast, hNorth, hSouth⟩ := hFits.holds hp
  rw [Int64.le_iff_toInt_le] at hWest hEast hNorth hSouth
  rw [drawing_of_frame h]
  constructor
  · rw [List.length_map, length_span]
    omega
  · intro row hRow
    obtain ⟨y, -, rfl⟩ := List.mem_map.mp hRow
    rw [List.length_map, length_span]
    omega

/-! ### Any order -/

theorem Counts.unique {high x : Int64} {xs ys : List Int64} (h : Counts high x xs)
    (h' : Counts high x ys) : xs = ys := by
  induction h generalizing ys with
  | done hPast =>
    cases h' with
    | done => rfl
    | next hLe => exact absurd hLe hPast
  | next hLe hRest ih =>
    cases h' with
    | done hPast => exact absurd hLe hPast
    | next _ hRest' => rw [ih hRest']

/-- How the hull is drawn: the frame grows around the panels, gone through in this order, and then
its rows and columns are counted. -/
def DrawnAlong (r : Robot) (order : List (Point × Int64)) (rows : List (List Char)) : Prop :=
  ∃ f xs ys, Frame.around order = some f ∧ Counts f.high.x f.low.x xs ∧
    Counts f.high.y f.low.y ys ∧ rows = ys.map fun y => xs.map fun x => r.mark ⟨x, y⟩

/-- **In any order, drawing comes to its end with the same drawing**, if the frame does not reach to
the largest cell. -/
theorem drawnAlong_iff {order : List (Point × Int64)} (hLists : r.Lists order)
    (h : r.frame? = some f) (hEast : f.high.x.toInt < 2 ^ 63 - 1)
    (hSouth : f.high.y.toInt < 2 ^ 63 - 1) (rows : List (List Char)) :
    r.DrawnAlong order rows ↔ rows = r.drawing := by
  have hx := counts_span f.low.x hEast
  have hy := counts_span f.low.y hSouth
  rw [DrawnAlong, hLists.around_eq, h, drawing_of_frame h]
  constructor
  · rintro ⟨f', xs, ys, hFrame, hxs, hys, rfl⟩
    obtain rfl := Option.some.inj hFrame
    rw [hxs.unique hx, hys.unique hy]
  · rintro rfl
    exact ⟨f, _, _, rfl, hx, hy, rfl⟩

/-! ### The hull -/

theorem exists_fits {vs : List Int64} (h : vs ≠ []) :
    ∃ f : Frame, f.Fits ((Track.start.marks vs).map Prod.fst) := by
  cases hAround : Frame.around (Track.start.marks vs) with
  | some f => exact ⟨f, Frame.fits_around hAround⟩
  | none =>
    have hLength := Track.length_marks .start vs
    have hPos := List.length_pos_iff.mpr h
    cases hMarks : Track.start.marks vs with
    | nil =>
      rw [hMarks, List.length_nil] at hLength
      omega
    | cons first rest =>
      rw [hMarks] at hAround
      cases hAround

theorem mark_eq_lastMark? (start : Int64) (vs : List Int64) (p : Point) :
    ((new start).writeAll vs).1.mark p =
      if lastMark? (Track.start.marks vs) p = some 1 then '#' else '.' := by
  rw [← color?_eq_lastMark? start vs p]
  rfl

/-- A panel is shown by `#` if and only if it was last painted 1. -/
theorem shown_iff (start : Int64) (vs : List Int64)
    (hFits : f.Fits ((Track.start.marks vs).map Prod.fst)) (p : Point) :
    (∃ row column : Nat, charAt ((new start).writeAll vs).1.drawing row column = some '#' ∧
        p.x.toInt = f.low.x.toInt + column ∧ p.y.toInt = f.low.y.toInt + row) ↔
      lastMark? (Track.start.marks vs) p = some 1 := by
  have hFrame := (frame?_eq_some_iff start vs f).mpr hFits
  have hMark := mark_eq_lastMark? start vs
  constructor
  · rintro ⟨row, column, hChar, hx, hy⟩
    obtain ⟨q, hqx, hqy, -, -, hq⟩ := (charAt_drawing_eq_some_iff hFrame).mp hChar
    obtain rfl : q = p := by
      obtain ⟨x, y⟩ := q
      obtain ⟨x', y'⟩ := p
      rw [show x = x' from Int64.toInt_inj.mp (hqx.trans hx.symm),
        show y = y' from Int64.toInt_inj.mp (hqy.trans hy.symm)]
    by_contra hOther
    rw [hMark, if_neg hOther] at hq
    exact absurd hq (by decide)
  · intro hLast
    have hMarked : p ∈ (Track.start.marks vs).map Prod.fst := by
      rw [← isSome_lastMark?, hLast]
      rfl
    obtain ⟨hWest, hEast, hNorth, hSouth⟩ := hFits.holds hMarked
    rw [Int64.le_iff_toInt_le] at hWest hNorth
    have hx : p.x.toInt = f.low.x.toInt + (p.x.toInt - f.low.x.toInt).toNat := by omega
    have hy : p.y.toInt = f.low.y.toInt + (p.y.toInt - f.low.y.toInt).toNat := by omega
    refine ⟨_, _, (charAt_drawing_eq_some_iff hFrame).mpr ⟨p, hx, hy, hEast, hSouth, ?_⟩, hx, hy⟩
    rw [hMark, if_pos hLast]

/-- **The drawing is a picture of the hull.**  Its frame holds all marked panels and has one on each
side.  It has a character for each panel of the frame, which is `#` if the panel was last painted 1
and `.` otherwise.  The panels may be gone through in any order.  And a sink gets as much of the
drawing as it has room for, and fails if that is not all. -/
theorem drawing_shows_hull (start : Int64) (vs : List Int64) (hSome : vs ≠ [])
    (hShort : vs.length < 2 ^ 63) :
    let r := ((new start).writeAll vs).1
    let marks := Track.start.marks vs
    let marked := marks.map Prod.fst
    let text := Decimal.asciiBytes (r.drawing.flatMap fun row => row ++ ['\n'])
    ∃ low high : Point,
      (∀ p ∈ marked, low.x ≤ p.x ∧ p.x ≤ high.x ∧ low.y ≤ p.y ∧ p.y ≤ high.y) ∧
      ((∃ p ∈ marked, p.x = low.x) ∧ (∃ p ∈ marked, p.x = high.x) ∧
        (∃ p ∈ marked, p.y = low.y) ∧ ∃ p ∈ marked, p.y = high.y) ∧
      (r.drawing.length : Int) = high.y.toInt - low.y.toInt + 1 ∧
      (∀ row ∈ r.drawing, (row.length : Int) = high.x.toInt - low.x.toInt + 1) ∧
      (∀ row column c, charAt r.drawing row column = some c →
        ∃ p : Point, p.x.toInt = low.x.toInt + column ∧ p.y.toInt = low.y.toInt + row ∧
          c = if lastMark? marks p = some 1 then '#' else '.') ∧
      (∀ p, (∃ row column : Nat, charAt r.drawing row column = some '#' ∧
          p.x.toInt = low.x.toInt + column ∧ p.y.toInt = low.y.toInt + row) ↔
        lastMark? marks p = some 1) ∧
      (∀ order, r.Lists order → ∀ rows, r.DrawnAlong order rows ↔ rows = r.drawing) ∧
      ∀ sink, (leaves (r.draw sink)).received.toList =
          sink.received.toList ++ ByteSink.fitting sink.room text ∧
        (failure? (r.draw sink) = none ↔ ∀ n, sink.room = some n → text.length ≤ n) := by
  intro r marks marked text
  obtain ⟨f, hFits⟩ := exists_fits hSome
  have hFrame : r.frame? = some f := (frame?_eq_some_iff start vs f).mpr hFits
  obtain ⟨hRows, hColumns⟩ := size_drawing hFrame hFits
  obtain ⟨hEast, hSouth⟩ := frame_small hShort hFits
  refine ⟨f.low, f.high, fun p => hFits.holds, hFits.sides, hRows, hColumns, ?_,
    shown_iff start vs hFits, fun order hLists => drawnAlong_iff hLists hFrame hEast hSouth, ?_⟩
  · intro row column c hChar
    obtain ⟨p, hx, hy, -, -, hMark⟩ := (charAt_drawing_eq_some_iff hFrame).mp hChar
    exact ⟨p, hx, hy, hMark.symm.trans (mark_eq_lastMark? start vs p)⟩
  · intro sink
    rw [draw_eq_write]
    exact ⟨sink.received_leaves_write r.drawn, sink.failure?_write r.drawn⟩

/-- Three panels around a corner, drawn from the last one to the first, and into a sink that has no
room for the second row. -/
theorem drawing_shows_hull_corner :
    let vs : List Int64 := [1, 0, 1, 0, 1]
    let r := ((new 0).writeAll vs).1
    vs ≠ [] ∧ vs.length < 2 ^ 63 ∧ r.DrawnAlong r.panelList.reverse [['#', '#'], ['#', '.']] ∧
      (leaves (r.draw { room := some 4 })).received.toList =
        Decimal.asciiBytes ['#', '#', '\n', '#'] ∧
      failure? (r.draw { room := some 4 }) ≠ none := by
  intro vs r
  have hSome : vs ≠ [] := by decide
  have hShort : vs.length < 2 ^ 63 := by decide
  obtain ⟨low, high, -, -, -, -, -, -, hOrder, hSink⟩ := drawing_shows_hull 0 vs hSome hShort
  have hDrawing : r.drawing = [['#', '#'], ['#', '.']] := by decide +kernel
  have hReverse : r.Lists r.panelList.reverse := by
    refine ⟨?_, fun p color => ?_⟩
    · rw [List.map_reverse, List.nodup_reverse]
      exact r.lists_panelList.nodup
    · rw [List.mem_reverse, mem_panelList]
  obtain ⟨hReceived, hFailure⟩ := hSink { room := some 4 }
  refine ⟨hSome, hShort, (hOrder _ hReverse _).mpr hDrawing.symm, ?_, ?_⟩
  · rw [hReceived, hDrawing]
    rfl
  · rw [ne_eq, hFailure, hDrawing]
    exact fun h => absurd (h 4 rfl) (by decide)

end HullRobot.Robot
