import HullRobot.LineLog
import Mathlib.Data.List.Basic

/-!
# Lines that come in pieces

A line log takes bytes in pieces, and it does not matter where they are cut.

* `Cuts bytes lines tail`: the bytes are these lines, each with its line feed, and then the tail.
  `Cuts.splitOn_eq`: there is one such cut, the one at all line feeds.  `Cuts.append`: a cut of what
  was there goes on as a cut of what comes.
* `write_cuts`, `writeAll_cuts`: **a write, and all writes, log the lines of the bytes so far**, and
  the tail stays pending.
* `pieces_do_not_matter`: so the lines are those of the whole, and each is logged by the write that
  ends it.
-/

namespace HullRobot.LineLog

/-! ### Cuts at line feeds -/

/-- The bytes are these lines, each ended by a line feed, and then the tail of a line. -/
structure Cuts (bytes : List UInt8) (lines : List (List UInt8)) (tail : List UInt8) : Prop where
  whole : lines.flatMap (· ++ [10]) ++ tail = bytes
  ended : ∀ line ∈ lines, 10 ∉ line
  unended : 10 ∉ tail

variable {bytes more tail tail' : List UInt8} {lines lines' : List (List UInt8)}

theorem Cuts.of_unended (h : 10 ∉ tail) : Cuts tail [] tail where
  whole := rfl
  ended := by simp
  unended := h

/-- The tail is the start of the next line. -/
theorem Cuts.append (h : Cuts bytes lines tail) (h' : Cuts (tail ++ more) lines' tail') :
    Cuts (bytes ++ more) (lines ++ lines') tail' where
  whole := by
    rw [List.flatMap_append, List.append_assoc, h'.whole, ← List.append_assoc, h.whole]
  ended := List.forall_mem_append.mpr ⟨h.ended, h'.ended⟩
  unended := h'.unended

/-- **The bytes are cut at all line feeds.** -/
theorem Cuts.splitOn_eq (h : Cuts bytes lines tail) : bytes.splitOn 10 = lines ++ [tail] := by
  induction lines generalizing bytes with
  | nil =>
    rw [← h.whole]
    exact List.splitOn_eq_singleton h.unended
  | cons line lines ih =>
    obtain ⟨hLine, hLines⟩ := List.forall_mem_cons.mp h.ended
    rw [← h.whole, List.flatMap_cons, List.append_assoc, List.append_assoc, List.singleton_append,
      List.splitOn_append_cons_self_of_not_mem hLine, ih ⟨rfl, hLines, h.unended⟩]
    rfl

theorem cut_cuts (bytes : List UInt8) : Cuts bytes (cut bytes).1 (cut bytes).2 := by
  induction bytes with
  | nil => exact .of_unended List.not_mem_nil
  | cons b rest ih =>
    rcases hCut : cut rest with ⟨lines, tail⟩
    simp only [hCut] at ih
    simp only [cut, hCut]
    by_cases hFeed : b = 10
    · subst hFeed
      exact ⟨congrArg (10 :: ·) ih.whole, List.forall_mem_cons.mpr ⟨List.not_mem_nil, ih.ended⟩,
        ih.unended⟩
    · rw [if_neg hFeed]
      have hKept : ∀ {line : List UInt8}, 10 ∉ line → 10 ∉ b :: line := fun hLine hMem =>
        (List.mem_cons.mp hMem).elim (fun hHere => hFeed hHere.symm) hLine
      cases lines with
      | nil => exact ⟨congrArg (b :: ·) ih.whole, by simp, hKept ih.unended⟩
      | cons line later =>
        obtain ⟨hLine, hLater⟩ := List.forall_mem_cons.mp ih.ended
        exact ⟨congrArg (b :: ·) ih.whole, List.forall_mem_cons.mpr ⟨hKept hLine, hLater⟩,
          ih.unended⟩

/-! ### Writes -/

/-- **A write logs the lines that it ends.** -/
theorem write_cuts (l : LineLog) (piece : List UInt8) :
    ∃ lines, Cuts (l.pending ++ piece) lines (l.write piece).2.pending ∧
      (l.write piece).1 = lines.map (l.label ++ ·) ∧ (l.write piece).2.label = l.label :=
  ⟨_, cut_cuts (l.pending ++ piece), rfl, rfl⟩

/-- Takes pieces one after the other.  Gives what each write logs. -/
def writeAll : LineLog → List (List UInt8) → List (List (List UInt8)) × LineLog
  | l, [] => ([], l)
  | l, piece :: pieces =>
    ((l.write piece).1 :: (writeAll (l.write piece).2 pieces).1,
      (writeAll (l.write piece).2 pieces).2)

theorem take_writeAll (j : Nat) (l : LineLog) (pieces : List (List UInt8)) :
    (l.writeAll pieces).1.take j = (l.writeAll (pieces.take j)).1 := by
  induction pieces generalizing l j with
  | nil => rw [List.take_nil]; exact List.take_nil
  | cons piece pieces ih =>
    cases j with
    | zero => rfl
    | succ j => exact congrArg ((l.write piece).1 :: ·) (ih j (l.write piece).2)

/-- **Writes log the lines that they end**, wherever the pieces are cut. -/
theorem writeAll_cuts (l : LineLog) (h : 10 ∉ l.pending) (pieces : List (List UInt8)) :
    ∃ lines, Cuts (l.pending ++ pieces.flatten) lines (l.writeAll pieces).2.pending ∧
      (l.writeAll pieces).1.flatten = lines.map (l.label ++ ·) ∧
      (l.writeAll pieces).2.label = l.label := by
  induction pieces generalizing l with
  | nil =>
    refine ⟨[], ?_, rfl, rfl⟩
    rw [List.flatten_nil, List.append_nil]
    exact .of_unended h
  | cons piece pieces ih =>
    obtain ⟨first, hFirst, hLogged, hLabel⟩ := l.write_cuts piece
    obtain ⟨later, hLater, hLoggedLater, hLabelLater⟩ := ih (l.write piece).2 hFirst.unended
    refine ⟨first ++ later, ?_, ?_, hLabelLater.trans hLabel⟩
    · rw [List.flatten_cons, ← List.append_assoc]
      exact hFirst.append hLater
    · rw [writeAll, List.flatten_cons, hLogged, hLoggedLater, hLabel, List.map_append]

theorem length_writeAll (l : LineLog) (pieces : List (List UInt8)) :
    (l.writeAll pieces).1.length = pieces.length := by
  induction pieces generalizing l with
  | nil => rfl
  | cons piece pieces ih => exact congrArg Nat.succ (ih (l.write piece).2)

theorem sync_eq (l : LineLog) :
    l.sync = (if l.pending = [] then [] else [l.label ++ l.pending], { l with pending := [] }) := by
  obtain ⟨label, pending⟩ := l
  cases pending <;> rfl

theorem sync_sync (l : LineLog) : l.sync.2.sync = ([], l.sync.2) := by
  rw [sync_eq l]
  rfl

/-- **It does not matter how bytes are cut into pieces.**  The messages of all writes are the lines
of the whole, the empty ones too, each with the label before it.  When the log is closed, what
follows the last line feed is one more message unless it is empty, and closing again logs nothing.
The messages hold every byte once, in order.  What the first writes have logged are the lines that
their pieces end, so each line is logged by the write that ends it. -/
theorem pieces_do_not_matter (label : List UInt8) (pieces : List (List UInt8)) :
    let writes := ({ label } : LineLog).writeAll pieces
    let closing := writes.2.sync
    ∃ lines tail, pieces.flatten.splitOn 10 = lines ++ [tail] ∧
      lines.flatMap (· ++ [10]) ++ tail = pieces.flatten ∧
      writes.1.flatten = lines.map (label ++ ·) ∧
      closing.1 = (if tail = [] then [] else [label ++ tail]) ∧
      closing.2.sync = ([], closing.2) ∧
      writes.1.length = pieces.length ∧
      ∀ j, (writes.1.take j).flatten =
        ((pieces.take j).flatten.splitOn 10).dropLast.map (label ++ ·) := by
  intro writes closing
  obtain ⟨lines, hCuts, hLogged, hLabel⟩ :=
    writeAll_cuts { label } List.not_mem_nil pieces
  refine ⟨lines, _, hCuts.splitOn_eq, hCuts.whole, hLogged, ?_, ?_, length_writeAll _ _,
    fun j => ?_⟩
  · show writes.2.sync.1 = _
    rw [sync_eq, show writes.2.label = label from hLabel]
  · exact sync_sync writes.2
  · obtain ⟨linesThen, hCutsThen, hLoggedThen, -⟩ :=
      writeAll_cuts { label } List.not_mem_nil (pieces.take j)
    have hSplit : (pieces.take j).flatten.splitOn 10 = linesThen ++ [_] := hCutsThen.splitOn_eq
    rw [show writes.1.take j = _ from take_writeAll j { label } pieces, hLoggedThen, hSplit,
      List.dropLast_concat]

/-- A line over three pieces, an empty line, and the tail of a line. -/
example : ({ label := [62] } : LineLog).writeAll [[65], [], [66, 10, 10, 67]] =
    ([[], [], [[62, 65, 66], [62]]], { label := [62], pending := [67] }) := by decide

end HullRobot.LineLog
