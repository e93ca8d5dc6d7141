import HullRobot.Proofs.Robot.Walk
import Mathlib.Data.Finset.Card

/-!
# The painted panels

The robot counts and lists the panels that it has painted.  Both are compared with the marks along
its track: the list has every panel that was ever marked, once, with its last colour.

* `Lists`: an order in which the painted panels can be gone through.  `Lists.perm`: two of them have
  the same entries.
* `Lists.eq_of_sorted`: **however the panels are gone through, sorting them gives one list.**
* `panels_are_exact`: so count and list tell what was painted.
-/

namespace HullRobot

/-! ### Rows -/

namespace Point

theorem rowOrder_lt_iff (p q : Point) :
    rowOrder p q = .lt ↔ p.y < q.y ∨ p.y = q.y ∧ p.x < q.x := by
  simp only [rowOrder, compareLex, Ordering.then_eq_lt, compareOn, Std.compare_eq_lt,
    Std.compare_eq_iff_eq]

instance : Std.LawfulEqCmp rowOrder where
  eq_of_compare := fun {p q} h => (rowOrder_eq_iff p q).mp h

/-- The point comes first: rows are compared, and within a row columns. -/
def before (p q : Point) : Bool := if p.y ≠ q.y then p.y < q.y else p.x < q.x

theorem before_iff (p q : Point) : p.before q = true ↔ rowOrder p q = .lt := by
  rw [rowOrder_lt_iff, before]
  by_cases hRow : p.y = q.y
  · simp [hRow]
  · simp [hRow]

/-- Of two points one comes first. -/
theorem eq_of_not_before {p q : Point} (h : p.before q = false) (h' : q.before p = false) :
    p = q := by
  rw [← rowOrder_eq_iff]
  cases hOrder : rowOrder p q with
  | eq => rfl
  | lt => rw [(before_iff p q).mpr hOrder] at h; cases h
  | gt => rw [(before_iff q p).mpr (Std.OrientedCmp.lt_of_gt hOrder)] at h'; cases h'

end Point

/-! ### Marks -/

/-- A panel has a last colour if and only if it was marked. -/
theorem isSome_lastMark? (marks : List (Point × Int64)) (p : Point) :
    (lastMark? marks p).isSome = true ↔ p ∈ marks.map Prod.fst := by
  rw [lastMark?, Option.isSome_map, List.find?_isSome, List.mem_map]
  constructor
  · rintro ⟨mark, hMark, hHere⟩
    exact ⟨mark, List.mem_reverse.mp hMark, of_decide_eq_true hHere⟩
  · rintro ⟨mark, hMark, hHere⟩
    exact ⟨mark, List.mem_reverse.mpr hMark, decide_eq_true hHere⟩

namespace Robot

variable {r : Robot} {order order' : List (Point × Int64)}

/-! ### Orders of the panels -/

theorem painted_eq_length (r : Robot) : r.painted = r.panelList.length :=
  Std.TreeMap.length_toList.symm

/-- A value paints one panel at most. -/
theorem painted_write_le (r : Robot) (v : Int64) : (r.write v).1.painted ≤ r.painted + 1 := by
  unfold write
  split
  · exact Nat.le_succ _
  · exact Std.TreeMap.size_insert_le

theorem painted_taken_le (r : Robot) (vs : List Int64) :
    (r.taken vs).painted ≤ r.painted + vs.length := by
  induction vs generalizing r with
  | nil => exact Nat.le_refl _
  | cons v rest ih =>
    have hRest : (r.taken (v :: rest)).painted ≤ (r.write v).1.painted + rest.length := ih _
    have hFirst := r.painted_write_le v
    rw [List.length_cons]
    omega

theorem panelList_increasing (r : Robot) : r.panelList.Pairwise fun a b =>
    a.1.y < b.1.y ∨ a.1.y = b.1.y ∧ a.1.x < b.1.x :=
  Std.TreeMap.ordered_keys_toList.imp fun h => (Point.rowOrder_lt_iff _ _).mp h

theorem mem_panelList (r : Robot) (p : Point) (color : Int64) :
    (p, color) ∈ r.panelList ↔ r.color? p = some color :=
  Std.TreeMap.mem_toList_iff_getElem?_eq_some

/-- The list has every painted panel once, with its colour, and nothing else. -/
structure Lists (r : Robot) (order : List (Point × Int64)) : Prop where
  nodup : (order.map Prod.fst).Nodup
  mem_iff : ∀ p color, (p, color) ∈ order ↔ r.color? p = some color

theorem lists_panelList (r : Robot) : r.Lists r.panelList := by
  refine ⟨?_, r.mem_panelList⟩
  rw [List.Nodup, List.pairwise_map]
  refine Std.TreeMap.ordered_keys_toList.imp fun {a b} hLt hEq => ?_
  rw [(Point.rowOrder_eq_iff a.1 b.1).mpr hEq] at hLt
  cases hLt

theorem Lists.perm (h : r.Lists order) (h' : r.Lists order') : order.Perm order' := by
  rw [List.perm_ext_iff_of_nodup h.nodup.of_map h'.nodup.of_map]
  rintro ⟨p, color⟩
  rw [h.mem_iff, h'.mem_iff]

theorem Lists.mem_keys_iff (h : r.Lists order) (p : Point) :
    p ∈ order.map Prod.fst ↔ (r.color? p).isSome = true := by
  rw [List.mem_map, Option.isSome_iff_exists]
  constructor
  · rintro ⟨⟨q, color⟩, hMem, rfl⟩
    exact ⟨color, (h.mem_iff q color).mp hMem⟩
  · rintro ⟨color, hColor⟩
    exact ⟨(p, color), (h.mem_iff p color).mpr hColor, rfl⟩

/-- **However the panels are gone through, sorting them gives one list.** -/
theorem Lists.eq_of_sorted (h : r.Lists order) {sorted : List (Point × Int64)}
    (hPerm : sorted.Perm order)
    (hSorted : sorted.Pairwise fun a b => b.1.before a.1 = false) : sorted = r.panelList := by
  have hSame : sorted.Perm r.panelList := hPerm.trans (h.perm r.lists_panelList)
  have hList : r.panelList.Pairwise fun a b => b.1.before a.1 = false := by
    refine Std.TreeMap.ordered_keys_toList.imp fun {a b} hLt => ?_
    rw [Bool.eq_false_iff, ne_eq, Point.before_iff]
    exact Std.OrientedCmp.not_lt_of_lt hLt
  refine List.Perm.eq_of_pairwise ?_ hSorted hList hSame
  rintro ⟨p, color⟩ ⟨q, color'⟩ hp hq hpq hqp
  obtain rfl : p = q := Point.eq_of_not_before hqp hpq
  have hColor := (r.mem_panelList p color).mp (hSame.mem_iff.mp hp)
  have hColor' := (r.mem_panelList p color').mp hq
  obtain rfl : color = color' := Option.some.inj (hColor.symm.trans hColor')
  rfl

/-- **Count and list of the panels tell what was painted.**  The marks are made where the robot is
at its paints, which is where its track is.  The count is the number of marked panels.  The list is
strictly increasing, row by row, and has every marked panel with its last colour and nothing else;
and it is what any sorting gives of the panels, in whatever order they are gone through. -/
theorem panels_are_exact (start : Int64) (vs : List Int64) :
    let r := ((new start).writeAll vs).1
    let marks := Track.start.marks vs
    marks.length = (vs.length + 1) / 2 ∧
      (∀ k color, vs[2 * k]? = some color →
        marks[k]? = some (((new start).writeAll (vs.take (2 * k))).1.position, color)) ∧
      r.painted = r.panelList.length ∧
      r.painted = (marks.map Prod.fst).toFinset.card ∧
      (r.panelList.Pairwise fun a b => a.1.y < b.1.y ∨ a.1.y = b.1.y ∧ a.1.x < b.1.x) ∧
      (∀ p color, (p, color) ∈ r.panelList ↔ lastMark? marks p = some color) ∧
      r.Lists r.panelList ∧
      ∀ order sorted, r.Lists order → sorted.Perm order →
        (sorted.Pairwise fun a b => b.1.before a.1 = false) → sorted = r.panelList := by
  intro r marks
  have hColor : ∀ p, r.color? p = lastMark? marks p := color?_eq_lastMark? start vs
  have hLists := r.lists_panelList
  refine ⟨Track.length_marks _ _, ?_, r.painted_eq_length, ?_, r.panelList_increasing, ?_, hLists,
    fun order sorted h hPerm hSorted => h.eq_of_sorted hPerm hSorted⟩
  · intro k color hk
    have hPlace := (follows_track start (vs.take (2 * k))).position_eq
    rw [Track.getElem?_marks, hk, Option.map_some, ← hPlace]
    rfl
  · have hKeys : (r.panelList.map Prod.fst).toFinset = (marks.map Prod.fst).toFinset := by
      ext p
      rw [List.mem_toFinset, List.mem_toFinset, hLists.mem_keys_iff, hColor, isSome_lastMark?]
    rw [← hKeys, List.toFinset_card_of_nodup hLists.nodup, List.length_map, painted_eq_length]
  · intro p color
    rw [r.mem_panelList, hColor]

end Robot

end HullRobot
