import HullRobot.Robot.Basic

/-!
# What the camera sees

The camera is set when the robot moves, from the panels it has painted, and at the start it is set
from outside.  Here it is compared with a hull on which every panel has a colour: the start colour
at the origin, 0 elsewhere, and what was painted last on the panels that were painted.

* `marks`: the panels that values paint, with their colours, in order.
* `Truthful`: the camera shows the panel under the robot, and the painted panels tell the colour of
  all others.  `Truthful.stride`: **a paint and a move keep it so.**
* `camera_shows_hull`: so the camera tells the truth after any values.
-/

namespace HullRobot

/-! ### The hull -/

/-- Where a robot is and looks. -/
structure Pose where
  position : Point
  heading : Heading
  deriving DecidableEq

namespace Pose

def start : Pose := ⟨⟨0, 0⟩, .north⟩

/-- The pose after a turn, to the left on 0 and else to the right, and a move. -/
def next (pose : Pose) (command : Int64) : Pose :=
  let heading := if command = 0 then pose.heading.left else pose.heading.right
  ⟨heading.ahead pose.position, heading⟩

/-- The pose after values: every second one is a command. -/
def after : Pose → List Int64 → Pose
  | pose, _ :: command :: rest => (pose.next command).after rest
  | pose, _ => pose

/-- What values paint, in order: the first, the third and so on, where the robot is at that time. -/
def marks : Pose → List Int64 → List (Point × Int64)
  | pose, color :: command :: rest => (pose.position, color) :: (pose.next command).marks rest
  | pose, [color] => [(pose.position, color)]
  | _, [] => []

theorem marks_ne_nil (pose : Pose) {vs : List Int64} (h : vs ≠ []) : pose.marks vs ≠ [] := by
  cases vs with
  | nil => exact absurd rfl h
  | cons color rest => cases rest <;> exact List.cons_ne_nil _ _

end Pose

/-- A hull: the colour of every panel. -/
abbrev Hull := Point → Int64

namespace Hull

def bare (start : Int64) : Hull := fun p => if p = ⟨0, 0⟩ then start else 0

def paint (hull : Hull) (mark : Point × Int64) : Hull :=
  fun p => if mark.1 = p then mark.2 else hull p

/-- The hull after marks were painted in order. -/
def paintAll (hull : Hull) (marks : List (Point × Int64)) : Hull := marks.foldl paint hull

end Hull

/-- The colour that was painted last on a panel. -/
def lastMark? (marks : List (Point × Int64)) (p : Point) : Option Int64 :=
  (marks.reverse.find? fun mark => mark.1 = p).map Prod.snd

theorem lastMark?_cons (mark : Point × Int64) (rest : List (Point × Int64)) (p : Point) :
    lastMark? (mark :: rest) p =
      (lastMark? rest p).or (if mark.1 = p then some mark.2 else none) := by
  unfold lastMark?
  rw [List.reverse_cons, List.find?_append]
  cases rest.reverse.find? fun mark => mark.1 = p with
  | some found => rfl
  | none => by_cases hHere : mark.1 = p <;> simp [hHere]

/-! ### One stride -/

theorem Point.rowOrder_eq_iff (p q : Point) : rowOrder p q = .eq ↔ p = q := by
  obtain ⟨x, y⟩ := p
  obtain ⟨x', y'⟩ := q
  rw [rowOrder, compareLex_eq_eq, compareOn, compareOn, Std.compare_eq_iff_eq,
    Std.compare_eq_iff_eq, Point.mk.injEq, and_comm]

namespace Robot

theorem getElem?_panels_insert (panels : Std.TreeMap Point Int64 Point.rowOrder) (p q : Point)
    (color : Int64) : (panels.insert p color)[q]? = if p = q then some color else panels[q]? := by
  simp only [Std.TreeMap.getElem?_insert, Point.rowOrder_eq_iff]

def pose (r : Robot) : Pose := ⟨r.position, r.heading⟩

/-- The robot waits for a colour, its camera shows the panel under it, and what it painted tells the
colours of all other panels. -/
structure Truthful (r : Robot) (hull : Hull) : Prop where
  waiting : r.turning = false
  camera_eq : r.camera = hull r.position
  panels_eq : ∀ p, r.position ≠ p → (r.panels[p]?).getD 0 = hull p

theorem truthful_new (start : Int64) : Truthful (new start) (.bare start) := by
  refine ⟨rfl, rfl, fun p hp => ?_⟩
  rw [Hull.bare, if_neg (show ¬p = ⟨0, 0⟩ from Ne.symm hp), new, Std.TreeMap.getElem?_emptyc]
  rfl

def taken (r : Robot) (vs : List Int64) : Robot := vs.foldl (fun r v => (r.write v).1) r

theorem writeAll_fst (r : Robot) (vs : List Int64) : (r.writeAll vs).1 = r.taken vs := by
  have hFold : ∀ (events : List Event), (vs.foldl (fun (acc : Robot × List Event) v =>
      ((acc.1.write v).1, (acc.1.write v).2 :: acc.2)) (r, events)).1 = r.taken vs := by
    induction vs generalizing r with
    | nil => intro events; rfl
    | cons v rest ih => intro events; exact ih _ _
  exact hFold []

theorem write_of_waiting {r : Robot} (h : r.turning = false) (color : Int64) :
    (r.write color).1 = r.paint color := by
  rw [write, h]
  rfl

theorem write_paint (r : Robot) (color command : Int64) :
    ((r.paint color).write command).1 = (r.paint color).turn command := rfl

/-- **A paint and a move keep the camera truthful.** -/
theorem Truthful.stride {r : Robot} {hull : Hull} (h : Truthful r hull) (color command : Int64) :
    Truthful ((r.paint color).turn command) (hull.paint (r.position, color)) := by
  have hPanels : ∀ p, ((r.paint color).panels[p]?).getD 0 = hull.paint (r.position, color) p := by
    intro p
    rw [paint, getElem?_panels_insert, Hull.paint]
    by_cases hHere : r.position = p
    · rw [if_pos hHere, if_pos hHere, Option.getD_some]
    · rw [if_neg hHere, if_neg hHere, h.panels_eq p hHere]
  exact ⟨rfl, hPanels _, fun p _ => hPanels p⟩

theorem pose_turn (r : Robot) (color command : Int64) :
    ((r.paint color).turn command).pose = r.pose.next command := rfl

theorem color?_turn (r : Robot) (color command : Int64) (p : Point) :
    ((r.paint color).turn command).color? p = (r.paint color).color? p := rfl

theorem color?_paint (r : Robot) (color : Int64) (p : Point) :
    (r.paint color).color? p =
      (if r.position = p then some color else none).or (r.color? p) := by
  rw [color?, color?, paint, getElem?_panels_insert]
  by_cases hHere : r.position = p
  · rw [if_pos hHere, if_pos hHere, Option.some_or]
  · rw [if_neg hHere, if_neg hHere, Option.none_or]

/-- **What a truthful robot sees and remembers after values.** -/
theorem Truthful.taken {r : Robot} {hull : Hull} (h : Truthful r hull) (vs : List Int64) :
    (r.taken vs).pose = r.pose.after vs ∧
    (r.taken vs).camera = hull.paintAll (if vs.length % 2 = 0 then r.pose.marks vs
      else (r.pose.marks vs).dropLast) (r.taken vs).position ∧
    ∀ p, (r.taken vs).color? p = (lastMark? (r.pose.marks vs) p).or (r.color? p) := by
  generalize hPose : r.pose = pose
  -- Two values make a stride, and a single one at the end is a paint that the camera does not see.
  induction pose, vs using Pose.marks.induct generalizing r hull with
  | case1 pose color command rest ih =>
    have hTaken : r.taken (color :: command :: rest) =
        ((r.paint color).turn command).taken rest := by
      rw [Robot.taken, List.foldl_cons, List.foldl_cons, write_of_waiting h.waiting, write_paint]
      rfl
    have hNext : ((r.paint color).turn command).pose = pose.next command := by
      rw [pose_turn, hPose]
    have hHere : r.position = pose.position := congrArg Pose.position hPose
    obtain ⟨hAfter, hCamera, hColor⟩ := ih (h.stride color command) hNext
    rw [hTaken]
    refine ⟨hAfter, ?_, fun p => ?_⟩
    · have hParity : (color :: command :: rest).length % 2 = rest.length % 2 := by
        simp only [List.length_cons]
        omega
      rw [hCamera, hParity, Pose.marks, hHere]
      by_cases hEven : rest.length % 2 = 0
      · rw [if_pos hEven, if_pos hEven]
        rfl
      · have hSome : rest ≠ [] := List.ne_nil_of_length_pos (by omega)
        rw [if_neg hEven, if_neg hEven,
          List.dropLast_cons_of_ne_nil (Pose.marks_ne_nil _ hSome)]
        rfl
    · rw [hColor p, color?_turn, color?_paint, Pose.marks, lastMark?_cons, Option.or_assoc, hHere]
  | case2 pose color =>
    have hTaken : r.taken [color] = r.paint color := write_of_waiting h.waiting color
    have hHere : r.position = pose.position := congrArg Pose.position hPose
    rw [hTaken]
    refine ⟨hPose, h.camera_eq, fun p => ?_⟩
    rw [color?_paint, Pose.marks, lastMark?_cons, hHere]
    rfl
  | case3 pose => exact ⟨hPose, h.camera_eq, fun p => rfl⟩

/-- **The camera tells the truth about the hull.**  After an even number of values it shows the
colour of the panel under the robot, after an odd number the colour from before the last paint; and
the robot remembers exactly the panels that were painted, with the colour that was painted last. -/
theorem camera_shows_hull (start : Int64) (vs : List Int64) :
    let r := ((new start).writeAll vs).1
    let marks := Pose.start.marks vs
    r.pose = Pose.start.after vs ∧
      r.camera = (Hull.bare start).paintAll (if vs.length % 2 = 0 then marks else marks.dropLast)
        r.position ∧
      ∀ p, r.color? p = lastMark? marks p := by
  intro r marks
  obtain ⟨hPose, hCamera, hColor⟩ := (truthful_new start).taken vs
  rw [← writeAll_fst] at hPose hCamera hColor
  refine ⟨hPose, hCamera, fun p => ?_⟩
  have hBare : (new start).color? p = none := Std.TreeMap.getElem?_emptyc
  rw [hColor p, hBare, Option.or_none]
  rfl

end Robot

end HullRobot
