import HullRobot.Proofs.Stream.Buffer
import HullRobot.Robot.Drawing

/-!
# Drawings that arrive

The hull is drawn into a buffer line by line, and only the flush at the end tells whether that
worked.

* `stands_drawLines`: the buffer is given the lines one after the other.
* `draw_eq_write`: **drawing is a single write of the whole drawing.**  So a drawing that works has
  arrived as a whole (`draw_received`).
-/

namespace HullRobot.Robot

/-- The bytes of the drawing. -/
def drawn (r : Robot) : List UInt8 :=
  Decimal.asciiBytes (r.drawing.flatMap fun row => row ++ ['\n'])

theorem drawn_eq_flatMap (r : Robot) :
    r.drawn = r.drawing.flatMap fun row => Decimal.asciiBytes (row ++ ['\n']) :=
  List.map_flatMap

/-- The next line of a drawing is written, whether that works or not. -/
theorem drawLines_cons (b : Buffered) (row : List Char) (rows : List (List Char)) :
    drawLines b (row :: rows) =
      drawLines (leaves (b.write (Decimal.asciiBytes (row ++ ['\n'])))) rows := by
  rw [drawLines]
  cases b.write (Decimal.asciiBytes (row ++ ['\n'])) <;> rfl

theorem stands_drawLines {s : ByteSink} {b : Buffered} {given : List UInt8} (h : b.Stands s given)
    (rows : List (List Char)) :
    (drawLines b rows).Stands s
      (given ++ rows.flatMap fun row => Decimal.asciiBytes (row ++ ['\n'])) := by
  induction rows generalizing b given with
  | nil => rwa [List.flatMap_nil, List.append_nil]
  | cons row rows ih =>
    rw [drawLines_cons, List.flatMap_cons, ← List.append_assoc]
    exact ih (h.write _).1

/-- **Drawing is a single write of the whole drawing**, as far as the sink can tell. -/
theorem draw_eq_write (r : Robot) (sink : ByteSink) : r.draw sink = sink.write r.drawn := by
  have hStands := stands_drawLines (Buffered.stands_fresh sink) r.drawing
  rw [List.nil_append, ← drawn_eq_flatMap] at hStands
  obtain ⟨hSink, hFailure⟩ := hStands.flush_eq
  unfold draw
  cases hFlush : (drawLines { sink } r.drawing).flush with
  | ok u b =>
    rw [hFlush] at hSink hFailure
    rw [eq_ok_of_failure? hFailure.symm, ← hSink]
    rfl
  | error e b =>
    rw [hFlush] at hSink hFailure
    rw [eq_error_of_failure? hFailure.symm, ← hSink]
    rfl

variable {r : Robot} {sink sink' : ByteSink}

/-- **A drawing that works has arrived as a whole.** -/
theorem draw_received (h : r.draw sink = .ok () sink') :
    sink'.received.toList = sink.received.toList ++ r.drawn := by
  rw [draw_eq_write] at h
  exact ByteSink.received_write h

end HullRobot.Robot
