import HullRobot.Proofs.Robot.Camera
import Mathlib.Algebra.Group.Int.Defs
import Mathlib.Algebra.Group.Nat.Defs
import Mathlib.Tactic.Common

/-!
# The walk of the robot

The coordinates of the robot are cells, which wrap round.  Here its walk is compared with a walk
over an unbounded hull, where the step ahead is a vector that is rotated and then made.

* `Track`: a walk over an unbounded hull.  `Follows.after`, `Follows.marks`: **the robot is where
  the track is and paints what is painted along the track**, up to wrapping.
* `Paced`: how a track stands after a number of moves.  `Paced.turn`, `Paced.after`: **moves go
  sideways and up or down in turns**, which bounds both coordinates and gives their parities.
* `Track.toInt_panel`: so no coordinate wraps round.
-/

namespace HullRobot

/-! ### Tracks -/

/-- A place on an unbounded hull, and the step ahead of it. -/
structure Track where
  x : Int
  y : Int
  dx : Int
  dy : Int
  deriving DecidableEq

namespace Track

def start : Track := ⟨0, 0, 0, -1⟩

/-- The step ahead is rotated, against the clock on 0 and else with it, and then it is made. -/
def turn (t : Track) (command : Int64) : Track :=
  if command = 0 then ⟨t.x + t.dy, t.y - t.dx, t.dy, -t.dx⟩
  else ⟨t.x - t.dy, t.y + t.dx, -t.dy, t.dx⟩

/-- The track after values: every second one is a command. -/
def after : Track → List Int64 → Track
  | t, _ :: command :: rest => (t.turn command).after rest
  | t, _ => t

/-- The panel at a place. -/
def panel (t : Track) : Point := ⟨Int64.ofInt t.x, Int64.ofInt t.y⟩

/-- What values paint along a track, in order: the first, the third and so on. -/
def marks : Track → List Int64 → List (Point × Int64)
  | t, color :: command :: rest => (t.panel, color) :: (t.turn command).marks rest
  | t, [color] => [(t.panel, color)]
  | _, [] => []

theorem length_marks (t : Track) (vs : List Int64) : (t.marks vs).length = (vs.length + 1) / 2 := by
  induction t, vs using marks.induct with
  | case1 t color command rest ih =>
    simp only [marks, List.length_cons, ih]
    omega
  | case2 t color => rw [marks, List.length_singleton, List.length_singleton]
  | case3 t => rfl

/-- Mark number `k` is made where the track is after `k` moves. -/
theorem getElem?_marks (t : Track) (vs : List Int64) (k : Nat) :
    (t.marks vs)[k]? =
      (vs[2 * k]?).map fun color => ((t.after (vs.take (2 * k))).panel, color) := by
  induction t, vs using marks.induct generalizing k with
  | case1 t color command rest ih =>
    cases k with
    | zero => rfl
    | succ k =>
      have hTwice : 2 * (k + 1) = 2 * k + 1 + 1 := by omega
      rw [marks, List.getElem?_cons_succ, ih, hTwice, List.getElem?_cons_succ,
        List.getElem?_cons_succ, List.take_succ_cons, List.take_succ_cons, after]
  | case2 t color =>
    cases k with
    | zero => rfl
    | succ k =>
      have hTwice : 2 * (k + 1) = 2 * k + 1 + 1 := by omega
      rw [marks, hTwice]
      rfl
  | case3 t =>
    rw [marks, List.getElem?_nil, List.getElem?_nil, Option.map_none]

end Track

/-! ### The robot on its track -/

namespace Heading

/-- How far to the east a direction leads. -/
def dx : Heading → Int
  | .east => 1
  | .west => -1
  | _ => 0

/-- How far to the south a direction leads. -/
def dy : Heading → Int
  | .south => 1
  | .north => -1
  | _ => 0

theorem left_vector (h : Heading) : h.left.dx = h.dy ∧ h.left.dy = -h.dx := by
  cases h <;> exact ⟨rfl, rfl⟩

theorem right_vector (h : Heading) : h.right.dx = -h.dy ∧ h.right.dy = h.dx := by
  cases h <;> exact ⟨rfl, rfl⟩

theorem vertical_iff (h : Heading) : h = .north ∨ h = .south ↔ h.dx = 0 := by
  cases h <;> decide

theorem ahead_ofInt (h : Heading) (x y : Int) :
    h.ahead ⟨Int64.ofInt x, Int64.ofInt y⟩ =
      ⟨Int64.ofInt (x + h.dx), Int64.ofInt (y + h.dy)⟩ := by
  cases h <;> simp only [ahead, dx, dy, Int.add_zero, Int64.ofInt_add, Int64.sub_eq_add_neg] <;> rfl

end Heading

/-- The pose is the one on the track, up to wrapping. -/
structure Pose.Follows (pose : Pose) (t : Track) : Prop where
  position_eq : pose.position = t.panel
  dx_eq : pose.heading.dx = t.dx
  dy_eq : pose.heading.dy = t.dy

namespace Pose.Follows

variable {pose : Pose} {t : Track}

theorem start : Pose.start.Follows .start := ⟨rfl, rfl, rfl⟩

/-- **A turn and a move lead to the same place on the track.** -/
theorem next (h : pose.Follows t) (command : Int64) :
    (pose.next command).Follows (t.turn command) := by
  obtain ⟨hPosition, hx, hy⟩ := h
  unfold Pose.next Track.turn
  by_cases hLeft : command = 0
  · obtain ⟨hx', hy'⟩ := pose.heading.left_vector
    have hAhead := pose.heading.left.ahead_ofInt t.x t.y
    rw [hx', hy', hx, hy] at hAhead
    rw [if_pos hLeft, if_pos hLeft]
    exact ⟨(congrArg _ hPosition).trans hAhead, hx'.trans hy, by rw [hy', hx]⟩
  · obtain ⟨hx', hy'⟩ := pose.heading.right_vector
    have hAhead := pose.heading.right.ahead_ofInt t.x t.y
    rw [hx', hy', hx, hy] at hAhead
    rw [if_neg hLeft, if_neg hLeft]
    exact ⟨(congrArg _ hPosition).trans hAhead, by rw [hx', hy], hy'.trans hx⟩

theorem after (h : pose.Follows t) (vs : List Int64) : (pose.after vs).Follows (t.after vs) := by
  induction t, vs using Track.marks.induct generalizing pose with
  | case1 t color command rest ih => exact ih (h.next command)
  | case2 t color => exact h
  | case3 t => exact h

theorem marks (h : pose.Follows t) (vs : List Int64) : pose.marks vs = t.marks vs := by
  induction t, vs using Track.marks.induct generalizing pose with
  | case1 t color command rest ih =>
    rw [Pose.marks, Track.marks, h.position_eq, ih (h.next command)]
  | case2 t color => rw [Pose.marks, Track.marks, h.position_eq]
  | case3 t => rfl

end Pose.Follows

namespace Robot

/-- The robot is where its track is, and looks the same way. -/
theorem follows_track (start : Int64) (vs : List Int64) :
    ((new start).writeAll vs).1.pose.Follows (Track.start.after vs) := by
  rw [writeAll_fst, ((truthful_new start).taken vs).1]
  exact Pose.Follows.start.after vs

/-- **The robot remembers what was painted last along its track.** -/
theorem color?_eq_lastMark? (start : Int64) (vs : List Int64) (p : Point) :
    ((new start).writeAll vs).1.color? p = lastMark? (Track.start.marks vs) p := by
  have hBare : (new start).color? p = none := Std.TreeMap.getElem?_emptyc
  rw [writeAll_fst, ((truthful_new start).taken vs).2.2 p, hBare, Option.or_none]
  exact congrArg (lastMark? · p) (Pose.Follows.start.marks vs)

theorem turning_write (r : Robot) (v : Int64) : (r.write v).1.turning = !r.turning := by
  unfold write
  cases hTurning : r.turning <;> rfl

theorem turning_taken (r : Robot) (vs : List Int64) :
    (r.taken vs).turning = (r.turning ^^ decide (vs.length % 2 = 1)) := by
  induction vs generalizing r with
  | nil => simp [taken]
  | cons v rest ih =>
    have hParity : (v :: rest).length % 2 = 1 ↔ ¬rest.length % 2 = 1 := by
      rw [List.length_cons]
      omega
    refine (ih (r.write v).1).trans ?_
    rw [turning_write, decide_eq_decide.mpr hParity, decide_not]
    cases r.turning <;> simp

end Robot

/-! ### Codes of directions -/

namespace Heading

/-- The code of a direction after values, reckoned from a code to the next. -/
def codeAfter : UInt8 → List Int64 → UInt8
  | code, _ :: command :: rest =>
    codeAfter (if command = 0 then (code + 3) % 4 else (code + 1) % 4) rest
  | code, _ => code

theorem cases_of_ofCode? {code : UInt8} {h : Heading} (hCode : ofCode? code = some h) :
    code = 0 ∧ h = .north ∨ code = 1 ∧ h = .east ∨ code = 2 ∧ h = .south ∨
      code = 3 ∧ h = .west := by
  unfold ofCode? at hCode
  split at hCode
  · next hn => exact .inl ⟨UInt8.toNat_inj.mp hn, (Option.some.inj hCode).symm⟩
  · next hn => exact .inr (.inl ⟨UInt8.toNat_inj.mp hn, (Option.some.inj hCode).symm⟩)
  · next hn => exact .inr (.inr (.inl ⟨UInt8.toNat_inj.mp hn, (Option.some.inj hCode).symm⟩))
  · next hn => exact .inr (.inr (.inr ⟨UInt8.toNat_inj.mp hn, (Option.some.inj hCode).symm⟩))
  · cases hCode

theorem ofCode?_next {code : UInt8} {h : Heading} (hCode : ofCode? code = some h)
    (command : Int64) :
    ofCode? (if command = 0 then (code + 3) % 4 else (code + 1) % 4) =
      some (if command = 0 then h.left else h.right) := by
  rcases cases_of_ofCode? hCode with ⟨rfl, rfl⟩ | ⟨rfl, rfl⟩ | ⟨rfl, rfl⟩ | ⟨rfl, rfl⟩ <;>
    split <;> rfl

/-- **Reckoning with codes leads to the direction of the pose**, and to no other code. -/
theorem ofCode?_codeAfter {code : UInt8} {pose : Pose} (hCode : ofCode? code = some pose.heading)
    (vs : List Int64) : ofCode? (codeAfter code vs) = some (pose.after vs).heading := by
  induction pose, vs using Pose.marks.induct generalizing code with
  | case1 pose color command rest ih => exact ih (ofCode?_next hCode command)
  | case2 pose color => exact hCode
  | case3 pose => exact hCode

end Heading

/-! ### Paces -/

/-- The integer may be a sum of `n` ones with any signs. -/
structure UnitSum (n : Nat) (i : Int) : Prop where
  le : i.natAbs ≤ n
  parity : i.natAbs % 2 = n % 2

theorem UnitSum.add {n : Nat} {i s : Int} (h : UnitSum n i) (hs : s.natAbs = 1) :
    UnitSum (n + 1) (i + s) := by
  obtain ⟨hLe, hParity⟩ := h
  constructor <;> omega

theorem UnitSum.sub {n : Nat} {i s : Int} (h : UnitSum n i) (hs : s.natAbs = 1) :
    UnitSum (n + 1) (i - s) := by
  rw [Int.sub_eq_add_neg]
  exact h.add (by rwa [Int.natAbs_neg])

/-- How a track stands after `moves` moves from the start: the odd ones went sideways and the even
ones up or down. -/
structure Track.Paced (moves : Nat) (t : Track) : Prop where
  even_ahead : moves % 2 = 0 → t.dx = 0 ∧ t.dy.natAbs = 1
  odd_ahead : moves % 2 = 1 → t.dx.natAbs = 1 ∧ t.dy = 0
  sideways : UnitSum ((moves + 1) / 2) t.x
  vertical : UnitSum (moves / 2) t.y

namespace Track.Paced

variable {moves : Nat} {t : Track}

theorem start : Paced 0 .start :=
  ⟨fun _ => ⟨rfl, rfl⟩, nofun, ⟨Nat.le_refl _, rfl⟩, ⟨Nat.le_refl _, rfl⟩⟩

/-- **A move goes to the side of the one before.** -/
theorem turn (h : Paced moves t) (command : Int64) : Paced (moves + 1) (t.turn command) := by
  unfold Track.turn
  rcases Nat.mod_two_eq_zero_or_one moves with hEven | hOdd
  · -- The step before was vertical, so this one goes sideways.
    obtain ⟨hdx, hdy⟩ := h.even_ahead hEven
    have hNext : (moves + 1) % 2 ≠ 0 := by omega
    have hx : (moves + 1 + 1) / 2 = (moves + 1) / 2 + 1 := by omega
    have hy : (moves + 1) / 2 = moves / 2 := by omega
    by_cases hLeft : command = 0
    · rw [if_pos hLeft, hdx, Int.sub_zero]
      exact ⟨fun h => absurd h hNext, fun _ => ⟨hdy, rfl⟩, hx ▸ h.sideways.add hdy, hy ▸ h.vertical⟩
    · rw [if_neg hLeft, hdx, Int.add_zero]
      refine ⟨fun h => absurd h hNext, fun _ => ⟨?_, rfl⟩, hx ▸ h.sideways.sub hdy, hy ▸ h.vertical⟩
      rwa [Int.natAbs_neg]
  · obtain ⟨hdx, hdy⟩ := h.odd_ahead hOdd
    have hNext : (moves + 1) % 2 ≠ 1 := by omega
    have hx : (moves + 1 + 1) / 2 = (moves + 1) / 2 := by omega
    have hy : (moves + 1) / 2 = moves / 2 + 1 := by omega
    by_cases hLeft : command = 0
    · rw [if_pos hLeft, hdy, Int.add_zero]
      refine ⟨fun _ => ⟨rfl, ?_⟩, fun h => absurd h hNext, hx ▸ h.sideways, hy ▸ h.vertical.sub hdx⟩
      rwa [Int.natAbs_neg]
    · rw [if_neg hLeft, hdy, Int.sub_zero]
      exact ⟨fun _ => ⟨rfl, hdx⟩, fun h => absurd h hNext, hx ▸ h.sideways, hy ▸ h.vertical.add hdx⟩

/-- **A walk goes sideways and up or down in turns.** -/
theorem after (h : Paced moves t) (vs : List Int64) :
    Paced (moves + vs.length / 2) (t.after vs) := by
  induction t, vs using Track.marks.induct generalizing moves with
  | case1 t color command rest ih =>
    have hMoves : moves + (color :: command :: rest).length / 2 = moves + 1 + rest.length / 2 := by
      rw [List.length_cons, List.length_cons]
      omega
    rw [hMoves]
    exact ih (h.turn command)
  | case2 t color => rwa [List.length_singleton]
  | case3 t => exact h

end Track.Paced

theorem Track.paced_after (vs : List Int64) : Paced (vs.length / 2) (start.after vs) := by
  have hPaced := Paced.start.after vs
  rwa [Nat.zero_add] at hPaced

theorem toInt_ofInt_of_natAbs {i : Int} (h : i.natAbs < 2 ^ 63) : (Int64.ofInt i).toInt = i :=
  Int64.toInt_ofInt_of_le (by omega) (by omega)

namespace Track

/-- **No coordinate wraps round** in a walk that one can make. -/
theorem toInt_panel {vs : List Int64} (h : vs.length < 2 ^ 63) :
    (start.after vs).panel.x.toInt = (start.after vs).x ∧
      (start.after vs).panel.y.toInt = (start.after vs).y := by
  have hPaced := paced_after vs
  have hx := hPaced.sideways.le
  have hy := hPaced.vertical.le
  exact ⟨toInt_ofInt_of_natAbs (by omega), toInt_ofInt_of_natAbs (by omega)⟩

/-- All panels of such a walk are near the origin. -/
theorem natAbs_of_mem_marks {vs : List Int64} (h : vs.length < 2 ^ 63) {p : Point}
    (hp : p ∈ (start.marks vs).map Prod.fst) :
    p.x.toInt.natAbs < 2 ^ 62 ∧ p.y.toInt.natAbs < 2 ^ 62 := by
  obtain ⟨mark, hMark, rfl⟩ := List.mem_map.mp hp
  obtain ⟨k, hk⟩ := List.getElem?_of_mem hMark
  rw [getElem?_marks] at hk
  obtain ⟨color, -, rfl⟩ := Option.map_eq_some_iff.mp hk
  have hPart : (vs.take (2 * k)).length < 2 ^ 63 :=
    Nat.lt_of_le_of_lt (List.length_take_le' (2 * k) vs) h
  have hPaced := paced_after (vs.take (2 * k))
  have hx := hPaced.sideways.le
  have hy := hPaced.vertical.le
  obtain ⟨hx', hy'⟩ := toInt_panel hPart
  rw [hx', hy']
  omega

end Track

theorem Robot.toInt_position (start : Int64) {vs : List Int64} (h : vs.length < 2 ^ 63) :
    ((new start).writeAll vs).1.position.x.toInt = (Track.start.after vs).x ∧
      ((new start).writeAll vs).1.position.y.toInt = (Track.start.after vs).y := by
  have hPlace : ((new start).writeAll vs).1.position = _ := (follows_track start vs).position_eq
  rw [hPlace]
  exact Track.toInt_panel h

end HullRobot
