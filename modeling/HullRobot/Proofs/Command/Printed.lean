import HullRobot.Proofs.Command.Replay

/-!
# What a command prints

The result of a command reaches standard output in three ways.  In raw mode a printer takes the
values while the machine runs, and its failure shows at the latest when it is flushed.  The drawing
goes through a buffer of its own, which is flushed as well.  Only the count is written directly, and
a failure there goes unnoticed.

* `printed_after`: **in raw mode a run without an error has printed a line for each value.**
* `report_cut`: where there is no room for the count, a report that works is a part of the count.
* `success_prints_result`: what a command has printed that succeeds.
* `success_without_count`: the count may be missing.
-/

namespace HullRobot

namespace Device

theorem fresh_printer (limit : Option Int) :
    (Command.Plan.printer limit).Fresh (Command.stdoutSink limit).room := by
  cases limit with
  | none => exact .memory
  | some n => exact .buffered _

/-- **A printer on standard output that can be flushed has printed a line for each value.** -/
theorem received_of_flush {limit : Option Int} {vs : List Int64}
    (h : ((printer (Command.Plan.printer limit)).offeredAll vs).flushError? = none) :
    ∃ channel, ((printer (Command.Plan.printer limit)).offeredAll vs).flushed = .printer channel ∧
      channel.received.toList = vs.flatMap Channel.line := by
  obtain ⟨channel, hPrinter, hReceived, hError⟩ := flushed_printer (fresh_printer limit) vs
  exact ⟨channel, hPrinter, hReceived.trans (ByteSink.fitting_of_room (hError.mp h))⟩

end Device

namespace Command

variable {r : Request} {p : Plan} {m : Machine}

/-- **In raw mode a run without an error has printed a line for each value.** -/
theorem printed_after {patience : Machine.Patience} (hPrepare : prepare r = .ok (p, m))
    (hMode : p.settings.raw = true) (hClean : (m.run patience).1 = none) :
    printed (m.run patience).2 Plan.mainSocket =
      (m.told patience.budget).flatMap Channel.line := by
  obtain ⟨tape, channel, hAfter, -, -, hFlushed⟩ := devices_after hPrepare hClean
  rw [Plan.mainDevice, if_pos hMode] at hAfter hFlushed
  obtain ⟨stdout, hPrinter, hLines⟩ := Device.received_of_flush hFlushed
  have hHere : (m.run patience).2.bench.devices[Plan.mainSocket]? = some (.printer stdout) := by
    rw [hAfter, hPrinter, Array.append_assoc]
    exact Array.getElem?_append_left (show 0 < 1 by decide)
  simp only [printed, hHere, hLines]

/-- Where there is no room for the count, a report that works is a part of the count. -/
theorem report_cut {s : Settings} {robot : Robot} {n : Int} {sink : ByteSink}
    (h : report s robot (stdoutSink (some n)) = .ok () sink) (hLimit : 0 ≤ n)
    (hShort : n < (countLine robot).length) :
    sink.received.toList = (countLine robot).take n.toNat := by
  obtain ⟨full, hWrite, hPart, hFull⟩ : ∃ full, (stdoutSink (some n)).write (countLine robot) =
      .error .writerFull full ∧ full.received.toList = (countLine robot).take n.toNat ∧
      full.room = some 0 := by
    simp only [stdoutSink, ByteSink.limited, if_neg (show ¬n < 0 by omega), ByteSink.write,
      if_neg (show ¬(countLine robot).length ≤ n.toNat by omega)]
    exact ⟨_, rfl, Array.toList_appendList, rfl⟩
  simp only [report, hWrite] at h
  by_cases hRender : s.render = true
  · rw [if_pos hRender] at h
    have hReceived := Robot.draw_received h
    -- The sink is full already, so that a drawing can only work if there is nothing to draw.
    have hNothing : robot.drawn.length = 0 := by
      rw [Robot.draw_eq_write] at h
      have hRoom := (full.failure?_write robot.drawn).mp (by rw [h]; rfl)
      exact Nat.le_zero.mp (hRoom 0 hFull)
    rw [hReceived, List.eq_nil_of_length_eq_zero hNothing, List.append_nil, hPart]
  · rw [if_neg hRender] at h
    cases h
    exact hPart

theorem finish_raw (hMode : p.settings.raw = true) (limit : Option Int) (log : List String)
    (files : Files) : (finish p limit m log files).stdout = printed m Plan.mainSocket := by
  unfold finish
  simp only [hMode, if_true]
  cases saveSnapshot p.settings m none files <;> rfl

theorem finish_reported {limit : Option Int} {log : List String} {files : Files} {robot : Robot}
    (hMode : p.settings.raw = false) (hRobot : m.bench.robot? = some robot)
    (h : (finish p limit m log files).conclusion = .succeeded) :
    ∃ sink, report p.settings robot (stdoutSink limit) = .ok () sink ∧
      (finish p limit m log files).stdout = sink.received.toList := by
  rw [finish_robot hMode hRobot] at h ⊢
  cases hReport : report p.settings robot (stdoutSink limit) with
  | error e sink =>
    rw [hReport] at h
    cases h
  | ok u sink =>
    refine ⟨sink, rfl, ?_⟩
    simp only
    cases saveSnapshot p.settings m (some robot) files <;> rfl

/-- A command that succeeds without a run has told about its usage. -/
theorem help_of_succeeded {outcome : Outcome} (h : prepare r = .error outcome)
    (hDone : outcome.conclusion = .succeeded) :
    Flags.parse r.args = .error .help ∧ outcome.stdout = [] ∧ outcome.stderr = usage := by
  unfold prepare at h
  split at h
  · next hParse =>
    cases h
    exact ⟨hParse, rfl, rfl⟩
  · cases h
    cases hDone
  · split at h
    · cases h
      cases hDone
    · split at h
      · cases h
        cases hDone
      · cases h

/-- **What a command has printed that succeeds.**  Unless it was asked for help, its run ended
without an error.  In raw mode there is a line for each value of the run.  Else there is the count
and, if it is asked for, the drawing; but where standard output has no room for the count, only a
part of the count is there. -/
theorem success_prints_result (r : Request) (hDone : (run r).conclusion = .succeeded) :
    (Flags.parse r.args = .error .help ∧ (run r).stdout = [] ∧ (run r).stderr = usage) ∨
    ∃ p m, prepare r = .ok (p, m) ∧
      let patience := r.clock.patience p.timed
      let robot := ((Robot.new p.settings.startColor).writeAll (m.told patience.budget)).1
      let count := Text.bytes (toString robot.painted ++ "\n")
      (m.run patience).1 = none ∧
      (p.settings.raw = true → (run r).stdout =
        (m.told patience.budget).flatMap fun v => Text.bytes (toString v ++ "\n")) ∧
      (p.settings.raw = false →
        ((∀ n, r.stdoutLimit = some n → n < 0 ∨ (count.length : Int) ≤ n) →
          (run r).stdout = count ++ if p.settings.render then robot.drawn else []) ∧
        ∀ n, r.stdoutLimit = some n → 0 ≤ n → n < count.length →
          (run r).stdout = count.take n.toNat) := by
  cases hPrepare : prepare r with
  | error outcome =>
    rw [run_unprepared hPrepare] at hDone ⊢
    exact .inl (help_of_succeeded hPrepare hDone)
  | ok q =>
    obtain ⟨p, m⟩ := q
    rw [run_prepared hPrepare] at hDone ⊢
    obtain ⟨hClean, log, hFinish⟩ := conclude_succeeded hDone
    rw [hFinish] at hDone ⊢
    refine .inr ⟨p, m, rfl, hClean, fun hMode => ?_, fun hMode => ?_⟩
    · rw [finish_raw hMode, ← Channel.line_eq]
      exact printed_after hPrepare hMode hClean
    · have hRobot := robot_after hPrepare hMode hClean
      rw [← Robot.writeAll_fst] at hRobot
      obtain ⟨sink, hReport, hStdout⟩ := finish_reported hMode hRobot hDone
      rw [hStdout, ← countLine_eq]
      refine ⟨report_full hReport, fun n hLimit hNat hShort => ?_⟩
      rw [hLimit] at hReport
      exact report_cut hReport hNat hShort

/-- A program that paints one panel, and one that prints two values in raw mode, both with just
enough room for their results. -/
theorem success_prints_result_drawn :
    let drawn : Request :=
      { args := ["-render"], stdin := Text.bytes "104,1,104,0,99", clock := .counting 9,
        stdoutLimit := some 4 }
    let raw : Request :=
      { args := ["-raw"], stdin := Text.bytes "104,-7,104,12,99", clock := .counting 9,
        stdoutLimit := some 6 }
    ((run drawn).conclusion = .succeeded ∧ ∃ p m, prepare drawn = .ok (p, m) ∧
      let robot := ((Robot.new p.settings.startColor).writeAll (m.told 9)).1
      robot.painted = 1 ∧ (run drawn).stdout = Text.bytes "1\n" ++ robot.drawn) ∧
    (run raw).conclusion = .succeeded ∧ ∃ p m, prepare raw = .ok (p, m) ∧
      m.told 9 = [-7, 12] ∧ (run raw).stdout = Text.bytes "-7\n12\n" := by
  intro drawn raw
  constructor
  · have hDone : (run drawn).conclusion = .succeeded := by decide +kernel
    have hFacts : (prepare drawn).toOption.map (fun (p, m) =>
        (p.timed, p.settings.raw, p.settings.render,
          ((Robot.new p.settings.startColor).writeAll (m.told 9)).1.painted)) =
        some (false, false, true, 1) := by decide +kernel
    have hParse : Flags.parse drawn.args = .ok { assignments := [.render true] } := by cbv
    refine ⟨hDone, ?_⟩
    rcases success_prints_result drawn hDone with ⟨hHelp, -⟩ | ⟨p, m, hPrepare, -, -, hResult⟩
    · rw [hParse] at hHelp
      cases hHelp
    · rw [hPrepare] at hFacts
      simp only [Except.toOption, Option.map_some, Option.some.injEq, Prod.mk.injEq] at hFacts
      obtain ⟨hTimed, hMode, hRender, hPainted⟩ := hFacts
      obtain ⟨hFull, -⟩ := hResult hMode
      simp only [hTimed, hRender, drawn, Clock.patience, Bool.false_eq_true, if_false, if_true,
        hPainted] at hFull
      exact ⟨p, m, hPrepare, hPainted, hFull fun n hLimit => .inr (by cases hLimit; decide +kernel)⟩
  · have hDone : (run raw).conclusion = .succeeded := by decide +kernel
    have hFacts : (prepare raw).toOption.map (fun (p, m) => (p.timed, p.settings.raw, m.told 9)) =
        some (false, true, [-7, 12]) := by decide +kernel
    have hParse : Flags.parse raw.args = .ok { assignments := [.raw true] } := by cbv
    refine ⟨hDone, ?_⟩
    rcases success_prints_result raw hDone with ⟨hHelp, -⟩ | ⟨p, m, hPrepare, -, hLines, -⟩
    · rw [hParse] at hHelp
      cases hHelp
    · rw [hPrepare] at hFacts
      simp only [Except.toOption, Option.map_some, Option.some.injEq, Prod.mk.injEq] at hFacts
      obtain ⟨hTimed, hMode, hTold⟩ := hFacts
      refine ⟨p, m, hPrepare, hTold, (hLines hMode).trans ?_⟩
      rw [hTimed]
      show List.flatMap _ (m.told 9) = _
      rw [hTold]
      decide +kernel

/-- A command that succeeds on a standard output without any room, though there is a count. -/
theorem success_without_count :
    let r : Request := { stdin := Text.bytes "104,1,104,0,99", stdoutLimit := some 0 }
    (run r).conclusion = .succeeded ∧ (run r).stdout = [] ∧
      (prepare r).toOption.map (fun (p, m) => (p.settings.raw,
        countLine ((Robot.new p.settings.startColor).writeAll (m.told 9)).1)) =
        some (false, Text.bytes "1\n") := by
  decide +kernel

end Command

end HullRobot
