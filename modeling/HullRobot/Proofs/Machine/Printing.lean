import HullRobot.Proofs.Image.Reading
import HullRobot.Proofs.Machine.Together

/-!
# Printing loses nothing

A printer writes the values of a machine line by line.  Its channel may fail at any byte.  Still
what has arrived is the start of all lines, and nothing is missing that no call has told.

* `splitOn_lines`, `parseBytes_numeral`: **the lines can be read back.**
* `offers_zero`: the first place is offered all that the machine emits.
* `run_printed`: **however a run ends, the lines have arrived that there is room for.**
  `halt_printed`: if the program halts, the run tells whether that are all.
* `printing_loses_nothing`: so nothing is lost silently.
-/

namespace HullRobot

/-! ### Lines -/

namespace Channel

/-- **The lines are what stands in front of the line feeds.** -/
theorem splitOn_lines (vs : List Int64) : (vs.flatMap line).splitOn 10 =
    (vs.map fun v => Decimal.asciiBytes (Decimal.ofInt v.toInt)) ++ [[]] := by
  have hLine : line = fun v => Decimal.asciiBytes (Decimal.ofInt v.toInt) ++ [10] :=
    funext fun v => List.map_append
  rw [hLine, ← Image.splitOn_ended, List.flatMap_map]
  intro l hl
  obtain ⟨v, -, rfl⟩ := List.mem_map.mp hl
  intro hFeed
  exact Image.feed_not_mem_numeral v.toInt
    (Decimal.mem_of_mem_asciiBytes (Decimal.ascii_ofInt v.toInt) (by decide) hFeed)

end Channel

theorem Image.parseBytes_numeral (v : Int64) :
    parseBytes (Decimal.asciiBytes (Decimal.ofInt v.toInt)) = .ok [v] := by
  have hWritten := written_numeral v
  obtain ⟨ts, -, hSplit, -⟩ := id hWritten
  rw [parseBytes_iff, latin_asciiBytes hSplit.ascii]
  exact hWritten

/-! ### Runs -/

theorem Bench.reached_pos (v : Int64) (o : Outlet) (rest : List Outlet) (devices : Array Device) :
    0 < reached v (o :: rest) devices := by
  unfold reached
  cases o.sink? devices with
  | none => exact Nat.succ_pos _
  | some d =>
    cases hRefusal : d.refusal? v with
    | none =>
      simp only [hRefusal]
      exact Nat.succ_pos _
    | some e =>
      simp only [hRefusal]
      exact Nat.one_pos

namespace Machine

variable {m : Machine}

/-- The first place is offered all that the machine emits. -/
theorem offers_zero (h : m.bench.output.outlets ≠ []) (n : Nat) : m.offers 0 n = m.told n := by
  induction n generalizing m with
  | zero => rfl
  | succ n ih =>
    have hHere : (m.emits.filter fun v =>
        0 < Bench.reached v m.bench.output.outlets m.bench.devices) = m.emits := by
      refine List.filter_eq_self.mpr fun v _ => decide_eq_true ?_
      cases hOutlets : m.bench.output.outlets with
      | nil => exact absurd hOutlets h
      | cons o rest => exact Bench.reached_pos v o rest m.bench.devices
    cases hStep : step m with
    | ok u m' =>
      obtain ⟨-, -, -, hPassed⟩ := step_ok_frame hStep
      rw [← hPassed.output_eq] at h
      rw [offers_succ_ok hStep, told_succ_ok hStep, hHere, ih h]
    | error stop m' => rw [offers_succ_error hStep, told_succ_error hStep, hHere]

section

variable {room : Option Nat} {c : Channel} {s : Socket} {patience : Patience}

/-- **However a run ends, the lines have arrived that there is room for.** -/
theorem run_printed (hFresh : c.Fresh room) (hOutput : m.bench.output = .single (.socket s))
    (hPrinter : m.bench.devices[s]? = some (.printer c)) (hReady : m.refusal? = none)
    (hSafe : ∀ failure, (m.run patience).1 = some failure → failure.isCrash = false) :
    ∃ c', (m.run patience).2.bench.devices[s]? = some (.printer c') ∧
      c'.received.toList =
        ByteSink.fitting room ((m.told patience.budget).flatMap Channel.line) := by
  have hOutlets : m.bench.output.outlets = [.socket s] := by rw [hOutput, Output.outlets]
  have hDistinct : Distinct m.bench.output.outlets := by
    rw [hOutlets]
    exact List.pairwise_singleton _ _
  have hHere : m.bench.output.outlets[0]? = some (.socket s) := by rw [hOutlets]; rfl
  have hSink := run_sink hReady patience.reason (not_crash_of_run hReady hSafe) hDistinct hHere
  rw [offers_zero (hOutlets ▸ List.cons_ne_nil _ _), Outlet.sink?, Outlet.sink?, hPrinter] at hSink
  obtain ⟨c', hFlushed, hReceived, -⟩ :=
    Device.flushed_printer hFresh (m.told patience.budget)
  exact ⟨c', hSink.trans (congrArg some hFlushed), hReceived⟩

/-- If the program halts, the run tells whether there was room for all lines. -/
theorem halt_printed (hFresh : c.Fresh room) (hOutput : m.bench.output = .single (.socket s))
    (hPrinter : m.bench.devices[s]? = some (.printer c)) (hReady : m.refusal? = none) {n : Nat}
    {before : Machine} (hWithin : n < patience.budget)
    (hReach : stepTimes n m = (none, before)) (hHalt : before.atHalt) :
    (m.run patience).1 = none ↔ ∀ limit, room = some limit →
      ((m.told patience.budget).flatMap Channel.line).length ≤ limit := by
  obtain ⟨m', hStep⟩ := step_atHalt hHalt
  obtain ⟨-, -, -, hPassed⟩ := stepTimes_frame hReach
  have hTold : m.told patience.budget = m.told n := by
    obtain ⟨rest, hBudget⟩ : ∃ k, patience.budget = n + (k + 1) :=
      ⟨patience.budget - n - 1, by omega⟩
    rw [hBudget, told_add hReach, told_succ_error hStep, emits_atHalt hHalt, List.append_nil]
  have hFlush : before.bench.flush.1 =
      ((Device.printer c).offeredAll (m.told n)).flushError? := by
    have hOutlets : m.bench.output.outlets = [.socket s] := by rw [hOutput, Output.outlets]
    have hDistinct : Distinct [Outlet.socket s] := List.pairwise_singleton _ _
    have hTaken := hPassed.taken
    rw [hOutlets] at hTaken
    have hTold := Bench.tellDevices_sink hDistinct hTaken List.mem_cons_self
    rw [Bench.flush, Bench.flushAll_devices, hPassed.output_eq, hPassed.devices_eq, hOutlets,
      Bench.flushDevices_error hDistinct, List.findSome?_singleton, hTold, Outlet.sink?, hPrinter]
    rfl
  have hResult := (run_stopped hReady patience.reason (stepTimes_stopped hWithin hReach hStep)).1
  obtain ⟨c', -, -, hError⟩ := Device.flushed_printer hFresh (m.told n)
  rw [hTold, ← hError, ← hFlush, hResult]
  cases before.bench.flush.1 with
  | none => exact iff_of_true rfl rfl
  | some e => exact iff_of_false (Option.some_ne_none _) (Option.some_ne_none _)

end

/-- **Printing loses nothing silently.**  Whatever calls are made, what has arrived is the start of
all lines, and after a flush that works it is all of them.  Once a call has failed all calls fail,
and exactly the bytes have arrived that there is room for.  The lines can be read back as the values
that were written.  So a run that does not crash leaves all lines that there is room for, however it
ends, and if the program halts then the run works if and only if there is room for all lines. -/
theorem printing_loses_nothing {room : Option Nat} {c : Channel} (hFresh : c.Fresh room) :
    (∀ calls : List Channel.Call,
      let after := c.calls calls
      let text := (Channel.written calls).flatMap Channel.line
      after.2.received.toList <+: text ∧
      (calls.getLast? = some .flush → after.1.getLast? = some none →
        after.2.received.toList = text) ∧
      (∀ e, some e ∈ after.1 →
        (∃ limit, room = some limit ∧ limit < text.length ∧
          after.2.received.toList = text.take limit) ∧
        ∀ more, after.2.calls more = (more.map fun _ => some e, after.2)) ∧
      ∃ lines, text.splitOn 10 = lines ++ [[]] ∧
        lines.map Image.parseBytes = (Channel.written calls).map fun v => .ok [v]) ∧
    ∀ (m : Machine) (patience : Patience) (s : Socket),
      m.bench.output = .single (.socket s) → m.bench.devices[s]? = some (.printer c) →
      m.refusal? = none →
      (∀ failure, (m.run patience).1 = some failure → failure.isCrash = false) →
      let text := (m.told patience.budget).flatMap Channel.line
      (∃ c', (m.run patience).2.bench.devices[s]? = some (.printer c') ∧
        c'.received.toList = ByteSink.fitting room text) ∧
      ∀ n before, n < patience.budget → stepTimes n m = (none, before) → before.atHalt →
        ((m.run patience).1 = none ↔ ∀ limit, room = some limit → text.length ≤ limit) := by
  constructor
  · intro calls after text
    have hStands : after.2.Stands room text := hFresh.stands.calls calls
    refine ⟨hStands.received_prefix, hFresh.stands.received_of_flush, fun e hFailed => ?_,
      _, Channel.splitOn_lines _, ?_⟩
    · have hBroken := hFresh.stands.broken_of_failed hFailed
      exact ⟨hStands.received_broken hBroken, Channel.calls_broken hBroken⟩
    · rw [List.map_map]
      exact List.map_congr_left fun v _ => Image.parseBytes_numeral v
  · intro m patience s hOutput hPrinter hReady hSafe text
    exact ⟨run_printed hFresh hOutput hPrinter hReady hSafe,
      fun n before => halt_printed hFresh hOutput hPrinter hReady⟩

/-- A channel with room for five bytes.  It cannot take the least cell, and it misses the last line
feed of a program that emits 7 and -12. -/
theorem printing_loses_nothing_cut :
    let c : Channel := .buffered { sink := { room := some 5 } }
    let m : Machine :=
      { memory := { pageSize := 8, extents := #[⟨0, 8⟩],
                    blocks := #[#[104, 7, 104, -12, 99, 0, 0, 0]] },
        bench := { output := .single (.socket 0), devices := #[.printer c] } }
    c.Fresh (some 5) ∧
      c.calls [.write Int64.minValue, .flush] = ([none, some .writerFull],
        (c.calls [.write Int64.minValue, .flush]).2) ∧
      (c.calls [.write Int64.minValue, .flush]).2.received.toList =
        Decimal.asciiBytes ['-', '9', '2', '2', '3'] ∧
      m.told 9 = [7, -12] ∧ (m.run ⟨9, .canceled⟩).1 ≠ none ∧
      ∃ c', (m.run ⟨9, .canceled⟩).2.bench.devices[0]? = some (.printer c') ∧
        c'.received.toList = Decimal.asciiBytes ['7', '\n', '-', '1', '2'] := by
  intro c m
  have hFresh : c.Fresh (some 5) := .buffered (some 5)
  have hTold : m.told 9 = [7, -12] := by decide +kernel
  have hCalls : (c.calls [.write Int64.minValue, .flush]).1 = [none, some .writerFull] := by
    decide +kernel
  obtain ⟨hChannel, hRun⟩ := printing_loses_nothing hFresh
  obtain ⟨-, -, hFailed, -⟩ := hChannel [.write Int64.minValue, .flush]
  obtain ⟨⟨limit, hLimit, -, hTaken⟩, -⟩ := hFailed .writerFull (by rw [hCalls]; decide)
  cases hLimit
  have hSafe : ∀ failure, (m.run ⟨9, .canceled⟩).1 = some failure → failure.isCrash = false := by
    have hFlush : (m.run ⟨9, .canceled⟩).1 = some (.plain (.flush .writerFull)) := by decide +kernel
    intro failure hFailure
    cases hFlush.symm.trans hFailure
    rfl
  obtain ⟨⟨c', hDevice, hPrinted⟩, hClean⟩ := hRun m ⟨9, .canceled⟩ 0 rfl rfl (by decide) hSafe
  rw [hTold] at hPrinted hClean
  have hReach : stepTimes 2 m = (none, (stepTimes 2 m).2) :=
    Prod.ext (show (stepTimes 2 m).1 = none by decide +kernel) rfl
  have hHalt : (stepTimes 2 m).2.atHalt := by
    have hOpcode : (stepTimes 2 m).2.instruction?.map (·.opcode) = some .halt := by decide +kernel
    exact Option.map_eq_some_iff.mp hOpcode
  refine ⟨hFresh, Prod.ext hCalls rfl, hTaken.trans (by decide +kernel), hTold, ?_, c', hDevice,
    hPrinted.trans (by decide +kernel)⟩
  rw [ne_eq, hClean 2 _ (by decide) hReach hHalt]
  exact fun h => absurd (h 5 rfl) (by decide +kernel)

end Machine

end HullRobot
