import HullRobot.Command
import HullRobot.Proofs.Machine.Together
import HullRobot.Proofs.Robot.Drawn
import HullRobot.Proofs.Robot.Panels
import HullRobot.Proofs.Snapshot.RoundTrip

/-!
# Snapshots can be replayed

A command with a snapshot gives the values of its machine to the robot, to a tape and maybe to a
file.  When it succeeds, all of them have taken the same values.  So the values in the snapshot lead
a new robot to the panels in the snapshot, and the snapshot can be read from its file.

* `bench_setUpAll`: what setups do to the bench.  `bench_of_setups`: **all devices of a command are
  sinks of its machine.**
* `offeredAll_robot`: what values make of a robot.
* `devices_after`, `robot_after`: what a run without an error leaves of them.
* `run_agrees`: **robot, tape and file agree after a run without an error.**
* `finish_succeeded`: what a command that succeeds does with them.  `report_full`: the count and the
  drawing on standard output.
* `within_take`: a snapshot has no more panels than values, so that only these must not be too many
  for a reader.
* `snapshot_replays`: so the snapshot fits the robot, the count and the file.
-/

namespace HullRobot

/-! ### Files -/

namespace Files

variable {fs : Files} {path other : Path} {content : List UInt8}

theorem content?_put_self (h : path ≠ nullDevice) :
    (fs.put path content).content? path = some content := by
  rw [content?, put, if_neg h, if_neg h, List.find?_append]
  have hNone : (fs.entries.filter fun e => e.1 != path).find? (fun e => e.1 == path) = none := by
    rw [List.find?_eq_none]
    intro e he
    have := (List.mem_filter.mp he).2
    simpa using this
  rw [hNone]
  simp

theorem content?_put_other (h : other ≠ path) :
    (fs.put path content).content? other = fs.content? other := by
  unfold content? put
  by_cases hNull : other = nullDevice
  · rw [if_pos hNull, if_pos hNull]
  · rw [if_neg hNull, if_neg hNull]
    by_cases hPut : path = nullDevice
    · rw [if_pos hPut]
    · rw [if_neg hPut, List.find?_append, List.find?_filter]
      have hLast : [(path, content)].find? (fun e => e.1 == other) = none := by
        simp [Ne.symm h]
      rw [hLast, Option.or_none]
      congr 2
      funext e
      by_cases hHere : e.1 = other
      · simp [hHere, h]
      · simp [hHere]

end Files

/-! ### Setups -/

/-- What a setup does to the bench. -/
def Bench.setUp (b : Bench) : Machine.Setup → Bench
  | .attach device => b.attach device
  | .input input => { b with input }
  | .output output => { b.flush.2 with output }
  | .tee output => { b with output := b.output.join output }
  | .journal => { b with journal := { b.journal with kept := true } }
  | _ => b

namespace Machine

theorem bench_setUp {m m' : Machine} {s : Setup} (h : m.setUp s = .ok () m') :
    m'.bench = m.bench.setUp s := by
  cases s with
  | image cells =>
    simp only [setUp] at h
    split at h <;> cases h <;> rfl
  | store address cells =>
    simp only [setUp] at h
    split at h <;> cases h <;> rfl
  | memoryLimit limit => cases h; rfl
  | pageSize size => cases h; rfl
  | attach device => cases h; rfl
  | input input => cases h; rfl
  | output output => cases h; rfl
  | tee output => cases h; rfl
  | journal => cases h; rfl
  | ip address => cases h; rfl
  | base base => cases h; rfl

theorem bench_setUpAll {m m' : Machine} {setups : List Setup}
    (h : m.setUpAll setups = .ok () m') : m'.bench = setups.foldl Bench.setUp m.bench := by
  induction setups generalizing m with
  | nil =>
    cases h
    rfl
  | cons s rest ih =>
    unfold setUpAll at h
    cases hFirst : m.setUp s with
    | ok u m₁ =>
      rw [hFirst] at h
      rw [List.foldl_cons, ← bench_setUp hFirst]
      exact ih h
    | error crash m₁ =>
      rw [hFirst] at h
      cases h

end Machine

/-! ### Devices -/

namespace Device

theorem offeredAll_robot (r : Robot) (traced : Bool) (vs : List Int64) :
    (robot r traced).offeredAll vs = .robot (r.taken vs) traced := by
  induction vs generalizing r with
  | nil => rfl
  | cons v vs ih => exact ih (r.write v).1

end Device

namespace Command

variable {r : Request} {p : Plan} {m : Machine}

/-! ### The machine of a command -/

theorem foldl_settings (s : Settings) (b : Bench) : s.setups.foldl Bench.setUp b = b := by
  unfold Settings.setups
  by_cases hPages : s.pageSize = 0 <;> by_cases hLimit : s.memoryLimit = 0 <;>
    simp only [hPages, hLimit, if_true, if_false] <;> rfl

/-- **All devices of a command are sinks of its machine.** -/
theorem bench_of_setups (p : Plan) (limit : Option Int) :
    let b := (p.setups limit).foldl Bench.setUp {}
    b.devices = #[p.mainDevice limit] ++
      (if p.settings.snapshot.isEmpty then #[] else #[.tape #[]]) ++
      (if p.tracePath?.isSome then #[.printer (.buffered { sink := {} })] else #[]) ∧
    b.output.outlets = (List.range b.devices.size).map .socket := by
  simp only [Plan.setups, Plan.traceSocket, List.foldl_append, foldl_settings]
  cases p.settings.trace <;> cases p.settings.snapshot.isEmpty <;> cases p.tracePath? <;>
    exact ⟨rfl, rfl⟩

theorem prepare_setUpAll (h : prepare r = .ok (p, m)) :
    ({} : Machine).setUpAll (p.setups r.stdoutLimit) = .ok () m := by
  unfold prepare at h
  split at h
  · cases h
  · cases h
  · split at h
    · cases h
    · split at h
      · cases h
      · next p' _ _ hSetUp =>
        cases h
        exact hSetUp

/-- If `f` gives a value for a command, then the command has a plan and a machine. -/
theorem exists_prepared {α : Type} {f : Plan × Machine → α} {a : α}
    (h : (prepare r).toOption.map f = some a) : ∃ p m, prepare r = .ok (p, m) ∧ f (p, m) = a := by
  cases hPrepare : prepare r with
  | error outcome =>
    rw [hPrepare] at h
    cases h
  | ok q =>
    rw [hPrepare] at h
    exact ⟨q.1, q.2, rfl, Option.some.inj h⟩

/-- What a run without an error leaves of the devices of a command. -/
theorem devices_after {patience : Machine.Patience} (hPrepare : prepare r = .ok (p, m))
    (hClean : (m.run patience).1 = none) :
    ∃ tape channel, (m.run patience).2.bench.devices =
      #[((p.mainDevice r.stdoutLimit).offeredAll (m.told patience.budget)).flushed] ++
        (if p.settings.snapshot.isEmpty then #[] else #[.tape tape]) ++
        (if p.tracePath?.isSome then #[.printer channel] else #[]) ∧
      tape.toList = m.told patience.budget ∧
      channel.received.toList = (m.told patience.budget).flatMap Channel.line ∧
      ((p.mainDevice r.stdoutLimit).offeredAll (m.told patience.budget)).flushError? = none := by
  have hBench := Machine.bench_setUpAll (prepare_setUpAll hPrepare)
  obtain ⟨hDevices, hOutlets⟩ := bench_of_setups p r.stdoutLimit
  rw [← hBench] at hDevices hOutlets
  obtain ⟨hAfter, hFlushed⟩ := Machine.run_clean hOutlets hClean
  generalize m.told patience.budget = vs at hAfter hFlushed ⊢
  obtain ⟨channel, hPrinter, hLines, -⟩ := Device.flushed_printer (.buffered none) vs
  have hTape : ((Device.tape #[]).offeredAll vs).flushed = .tape vs.toArray := by
    rw [Device.offeredAll_tape]
    simp [Device.flushed, Device.flush]
  refine ⟨vs.toArray, channel, ?_, rfl, hLines, hFlushed _ (by simp [hDevices])⟩
  rw [hAfter, hDevices, Array.map_append, Array.map_append]
  cases p.settings.snapshot.isEmpty <;> cases p.tracePath?.isSome <;>
    simp only [Bool.false_eq_true, if_true, if_false, List.map_toArray, List.map_cons, List.map_nil,
      hTape, hPrinter]

/-- **A run without an error has led the robot by what it emits.** -/
theorem robot_after {patience : Machine.Patience} (hPrepare : prepare r = .ok (p, m))
    (hMode : p.settings.raw = false) (hClean : (m.run patience).1 = none) :
    (m.run patience).2.bench.robot? =
      some ((Robot.new p.settings.startColor).taken (m.told patience.budget)) := by
  obtain ⟨tape, channel, hAfter, -⟩ := devices_after hPrepare hClean
  simp only [Plan.mainDevice, hMode, Bool.false_eq_true, if_false, Device.offeredAll_robot]
    at hAfter
  rw [Bench.robot?, hAfter]
  cases p.settings.snapshot.isEmpty <;> cases p.tracePath?.isSome <;> rfl

/-- **A run without an error leaves robot, tape and file with the same values.** -/
theorem run_agrees {patience : Machine.Patience} (hPrepare : prepare r = .ok (p, m))
    (hMode : p.settings.raw = false) (hAsked : p.settings.snapshot.isEmpty = false)
    (hClean : (m.run patience).1 = none) :
    let vs := m.told patience.budget
    (m.run patience).2.bench.robot? = some ((Robot.new p.settings.startColor).taken vs) ∧
      taped? (m.run patience).2 Plan.tapeSocket = (if vs = [] then none else some vs) ∧
      ∀ path, p.tracePath? = some path →
        printed (m.run patience).2 p.traceSocket = vs.flatMap Channel.line := by
  intro vs
  obtain ⟨tape, channel, hAfter, hTape, hLines, -⟩ := devices_after hPrepare hClean
  simp only [hAsked, Bool.false_eq_true, if_false] at hAfter
  refine ⟨robot_after hPrepare hMode hClean, ?_, fun path hPath => ?_⟩
  · have hHere : (m.run patience).2.bench.devices[Plan.tapeSocket]? = some (.tape tape) := by
      rw [hAfter, Array.getElem?_append_left (show 1 < 2 by decide)]
      rfl
    have hEmpty : tape.isEmpty = true ↔ vs = [] := by
      rw [Array.isEmpty_iff, ← Array.toList_eq_nil_iff, hTape]
    simp only [taped?, hHere, hEmpty, hTape, vs]
  · have hSocket : p.traceSocket = 2 := by rw [Plan.traceSocket, hAsked]; rfl
    have hHere : (m.run patience).2.bench.devices[p.traceSocket]? = some (.printer channel) := by
      rw [hAfter, hSocket, hPath]
      rfl
    simp only [printed, hHere, hLines, vs]

/-! ### After the run -/

theorem run_prepared (h : prepare r = .ok (p, m)) :
    run r = conclude r p (m.run (r.clock.patience p.timed)).1
      (m.run (r.clock.patience p.timed)).2 := by
  simp only [run, runBy, h]
  rfl

theorem run_unprepared {outcome : Outcome} (h : prepare r = .error outcome) : run r = outcome := by
  simp only [run, runBy, h]
  rfl

theorem conclude_succeeded {failure? : Option (Failure RunError)}
    (h : (conclude r p failure? m).conclusion = .succeeded) :
    failure? = none ∧ ∃ log, conclude r p failure? m =
      finish p r.stdoutLimit m log (p.filesAfter r.files (printed m p.traceSocket)) := by
  unfold conclude at h ⊢
  cases hDump : dumpLog p.settings m with
  | error crash =>
    rw [hDump] at h
    cases h
  | ok dumped =>
    rw [hDump] at h
    cases failure? with
    | some failure => cases h
    | none => exact ⟨rfl, _, rfl⟩

/-- Standard output, when nothing is written yet. -/
def stdoutSink : Option Int → ByteSink
  | none => {}
  | some limit => ByteSink.limited limit

theorem finish_robot {robot : Robot} (hMode : p.settings.raw = false)
    (hRobot : m.bench.robot? = some robot) (limit : Option Int) (log : List String)
    (files : Files) :
    finish p limit m log files = match report p.settings robot (stdoutSink limit) with
      | .error e sink =>
        { conclusion := .failed (.drawing e), stdout := sink.received.toList, log, files }
      | .ok () sink =>
        match saveSnapshot p.settings m (some robot) files with
        | .error e files =>
          { conclusion := .failed e, stdout := sink.received.toList, log, files }
        | .ok () files =>
          { conclusion := .succeeded, stdout := sink.received.toList, log, files } := by
  unfold finish
  simp only [hMode, hRobot, Bool.false_eq_true, if_false]
  cases limit with
  | none =>
    simp only [stdoutSink]
    cases report p.settings robot {} <;> rfl
  | some n =>
    simp only [stdoutSink]
    cases report p.settings robot (ByteSink.limited n) <;> rfl

/-- What a command with a robot and a snapshot does when it succeeds. -/
theorem finish_succeeded {limit : Option Int} {log : List String} {files : Files} {robot : Robot}
    (hMode : p.settings.raw = false) (hAsked : p.settings.snapshot.isEmpty = false)
    (hRobot : m.bench.robot? = some robot)
    (h : (finish p limit m log files).conclusion = .succeeded) :
    ∃ sink path, report p.settings robot (stdoutSink limit) = .ok () sink ∧
      (finish p limit m log files).stdout = sink.received.toList ∧
      files.writable p.settings.snapshot = .ok path ∧
      (finish p limit m log files).files = files.put path
        (Snapshot.take (some robot) (taped? m Plan.tapeSocket) m.steps).encode := by
  rw [finish_robot hMode hRobot] at h ⊢
  cases hReport : report p.settings robot (stdoutSink limit) with
  | error e sink =>
    rw [hReport] at h
    cases h
  | ok u sink =>
    rw [hReport] at h
    simp only [saveSnapshot, hAsked, Bool.false_eq_true, if_false, Snapshot.save] at h ⊢
    cases hPath : files.writable p.settings.snapshot with
    | error e =>
      rw [hPath] at h
      cases h
    | ok path => exact ⟨sink, path, rfl, rfl, rfl, rfl⟩

/-- **A report arrives as a whole**, if there is room for the count. -/
theorem report_full {s : Settings} {robot : Robot} {limit : Option Int} {sink : ByteSink}
    (h : report s robot (stdoutSink limit) = .ok () sink)
    (hRoom : ∀ n, limit = some n → n < 0 ∨ ((countLine robot).length : Int) ≤ n) :
    sink.received.toList = countLine robot ++ if s.render then robot.drawn else [] := by
  have hFits : ∀ room, (stdoutSink limit).room = some room → (countLine robot).length ≤ room := by
    intro room hSome
    cases limit with
    | none => cases hSome
    | some n =>
      simp only [stdoutSink, ByteSink.limited] at hSome
      rcases hRoom n rfl with hNegative | hEnough
      · rw [if_pos hNegative] at hSome
        cases hSome
      · rw [if_neg (by omega)] at hSome
        cases hSome
        omega
  have hEmpty : (stdoutSink limit).received.toList = [] := by cases limit <;> rfl
  obtain ⟨counted, hWrite, hBytes⟩ := ByteSink.write_of_room hFits
  rw [hEmpty, List.nil_append] at hBytes
  simp only [report, hWrite] at h
  by_cases hRender : s.render = true
  · rw [if_pos hRender] at h ⊢
    rw [Robot.draw_received h, hBytes]
  · rw [if_neg hRender] at h ⊢
    cases h
    rw [hBytes, List.append_nil]

/-- The count comes first on standard output, if there is room for it. -/
theorem report_prefix {s : Settings} {robot : Robot} {limit : Option Int} {sink : ByteSink}
    (h : report s robot (stdoutSink limit) = .ok () sink)
    (hRoom : ∀ n, limit = some n → n < 0 ∨ ((countLine robot).length : Int) ≤ n) :
    countLine robot <+: sink.received.toList :=
  report_full h hRoom ▸ List.prefix_append _ _

/-- The count on standard output is a numeral and a line feed. -/
theorem countLine_eq (robot : Robot) :
    countLine robot = Text.bytes (toString robot.painted ++ "\n") :=
  Decimal.bytes_feed (Decimal.ascii_digits robot.painted)

/-- A snapshot has no more panels than values. -/
theorem within_take (start : Int64) (steps : UInt64) {vs : List Int64} {bound : Nat}
    (h : vs.length ≤ bound) :
    (Snapshot.take (some ((Robot.new start).taken vs)) (if vs = [] then none else some vs)
      steps).Within bound := by
  constructor
  · intro panels hPanels
    cases hPanels
    have hPainted := (Robot.new start).painted_taken_le vs
    rw [List.length_map, ← Robot.painted_eq_length]
    exact hPainted.trans ((Nat.zero_add _).trans_le h)
  · intro outputs hOutputs
    by_cases hNone : vs = []
    · rw [Snapshot.take, if_pos hNone] at hOutputs
      cases hOutputs
    · rw [Snapshot.take, if_neg hNone] at hOutputs
      cases hOutputs
      exact h

/-- What a command with a robot and a snapshot leaves behind when it succeeds. -/
theorem run_saved (hPrepare : prepare r = .ok (p, m)) (hMode : p.settings.raw = false)
    (hAsked : p.settings.snapshot.isEmpty = false) (hDone : (run r).conclusion = .succeeded) :
    let patience := r.clock.patience p.timed
    let after := (m.run patience).2
    let vs := m.told patience.budget
    let robot := (Robot.new p.settings.startColor).taken vs
    let files := p.filesAfter r.files (vs.flatMap Channel.line)
    after.bench.robot? = some robot ∧
      taped? after Plan.tapeSocket = (if vs = [] then none else some vs) ∧
      ∃ sink path, report p.settings robot (stdoutSink r.stdoutLimit) = .ok () sink ∧
        (run r).stdout = sink.received.toList ∧
        files.writable p.settings.snapshot = .ok path ∧
        (run r).files = files.put path
          (Snapshot.take (some robot) (if vs = [] then none else some vs) after.steps).encode := by
  intro patience after vs robot files
  rw [run_prepared hPrepare] at hDone ⊢
  obtain ⟨hClean, log, hFinish⟩ := conclude_succeeded hDone
  obtain ⟨hRobot, hTape, hTrace⟩ := run_agrees hPrepare hMode hAsked hClean
  -- The file for the values is written before the snapshot, which must find its own path then.
  have hFiles : p.filesAfter r.files (printed after p.traceSocket) = files := by
    unfold files Plan.filesAfter
    cases hSome : p.tracePath? with
    | none => rfl
    | some trace => rw [hTrace trace hSome]
  rw [hFinish, hFiles] at hDone ⊢
  have hSaved := finish_succeeded hMode hAsked hRobot hDone
  rw [hTape] at hSaved
  exact ⟨hRobot, hTape, hSaved⟩

/-- **A snapshot can be replayed.**  When a command with a robot and a snapshot succeeds, the
snapshot is that of the machine after its run.  Its outputs are the values of the run, and they lead
a new robot to its panels and its count.  The panels are in order, the count is what is printed, and
the file for all output values has a line for each of them.  The file of the snapshot gives the
snapshot again, if there are no more outputs than the reader allows. -/
theorem snapshot_replays (r : Request) (p : Plan) (m : Machine) (hPrepare : prepare r = .ok (p, m))
    (hMode : p.settings.raw = false) (hAsked : p.settings.snapshot.isEmpty = false)
    (hDone : (run r).conclusion = .succeeded) :
    let patience := r.clock.patience p.timed
    let after := (m.run patience).2
    let outputs := m.told patience.budget
    let robot := ((Robot.new p.settings.startColor).writeAll outputs).1
    let panels : List Panel := robot.panelList.map fun (q, color) => ⟨q.x, q.y, color⟩
    let snap : Snapshot :=
      { painted := Int64.ofNat robot.painted, panels := some panels,
        outputs := if outputs = [] then none else some outputs, steps := after.steps }
    let count := Text.bytes (toString robot.painted ++ "\n")
    let lines := outputs.flatMap fun v => Text.bytes (toString v ++ "\n")
    snap = .take after.bench.robot? (taped? after Plan.tapeSocket) after.steps ∧
      robot.painted = panels.length ∧
      panels.Pairwise (fun a b => a.y < b.y ∨ a.y = b.y ∧ a.x < b.x) ∧
      ((∀ n, r.stdoutLimit = some n → n < 0 ∨ (count.length : Int) ≤ n) →
        count <+: (run r).stdout) ∧
      ∃ path, (p.filesAfter r.files lines).writable p.settings.snapshot = .ok path ∧
        (path ≠ Files.nullDevice → (run r).files.content? path = some snap.encode ∧
          (outputs.length ≤ 131072 → Snapshot.decode snap.encode = (snap, none)) ∧
          ∀ bound, 4 ≤ bound → bound < Cbor.headStop → outputs.length ≤ bound →
            Snapshot.ofRead (Cbor.decodeWithin bound snap.encode) = (snap, none)) ∧
        ∀ trace, p.tracePath? = some trace → trace ≠ path → trace ≠ Files.nullDevice →
          (run r).files.content? trace = some lines := by
  intro patience after outputs robot panels snap count lines
  obtain ⟨hRobot, hTape, sink, path, hReport, hStdout, hPath, hFiles⟩ :=
    run_saved hPrepare hMode hAsked hDone
  rw [Channel.line_eq] at hPath hFiles
  have hWithin : ∀ {bound}, outputs.length ≤ bound → snap.Within bound := by
    intro bound hLength
    have hTaken := within_take p.settings.startColor after.steps hLength
    rwa [← Robot.writeAll_fst] at hTaken
  rw [← Robot.writeAll_fst] at hRobot hReport hFiles
  refine ⟨?_, ?_, ?_, fun hRoom => ?_, path, hPath,
    fun hNull => ⟨?_, fun hShort => ?_, fun bound hLow hHigh hLength => ?_⟩,
    fun trace hSome hApart hNull => ?_⟩
  · rw [hRobot, hTape]
    rfl
  · rw [robot.painted_eq_length, List.length_map]
  · rw [List.pairwise_map]
    exact robot.panelList_increasing
  · have hCount : countLine robot = count := countLine_eq robot
    rw [hStdout]
    exact hCount ▸ report_prefix hReport (hCount ▸ hRoom)
  · rw [hFiles]
    exact Files.content?_put_self hNull
  · exact Snapshot.ofRead_decodeWithin_encode (by decide) (by decide) (hWithin hShort)
  · exact Snapshot.ofRead_decodeWithin_encode hLow hHigh (hWithin hLength)
  · rw [hFiles, Files.content?_put_other hApart, Plan.filesAfter, hSome,
      Files.content?_put_self hNull]

/-- A program that paints one panel and moves on, with a snapshot and a file for its values. -/
theorem snapshot_replays_stroke :
    let r : Request :=
      { args := ["-snapshot", "s", "-trace-out", "t"], stdin := Text.bytes "104,1,104,0,99" }
    let snap : Snapshot :=
      { painted := 1, panels := some [⟨0, 0, 1⟩], outputs := some [1, 0], steps := 3 }
    ∃ p m, prepare r = .ok (p, m) ∧ p.settings.raw = false ∧
      p.settings.snapshot.isEmpty = false ∧ (run r).conclusion = .succeeded ∧
      Text.bytes "1\n" <+: (run r).stdout ∧
      (∃ bytes, (run r).files.content? ["s"] = some bytes ∧
        Snapshot.decode bytes = (snap, none)) ∧
      (run r).files.content? ["t"] = some (Text.bytes "1\n0\n") := by
  intro r snap
  have hPlan : (prepare r).toOption.map (fun (p, _) =>
      (p.settings.raw, p.settings.snapshot, p.settings.startColor, p.tracePath?)) =
      some (false, "s", 0, some ["t"]) := by decide +kernel
  have hRun : (prepare r).toOption.map (fun (p, m) =>
      (m.told (r.clock.patience p.timed).budget, (m.run (r.clock.patience p.timed)).2.steps)) =
      some ([1, 0], 3) := by decide +kernel
  have hDone : (run r).conclusion = .succeeded := by decide +kernel
  have hPainted : ((Robot.new 0).writeAll [1, 0]).1.painted = 1 := by decide +kernel
  have hPanels : ((Robot.new 0).writeAll [1, 0]).1.panelList = [(⟨0, 0⟩, 1)] := by decide +kernel
  obtain ⟨p, m, hPrepare, hFacts⟩ := exists_prepared hPlan
  obtain ⟨hMode, hName, hStart, hTrace⟩ : p.settings.raw = false ∧ p.settings.snapshot = "s" ∧
      p.settings.startColor = 0 ∧ p.tracePath? = some ["t"] := by simpa using hFacts
  rw [hPrepare] at hRun
  obtain ⟨hTold, hSteps⟩ := Prod.mk.inj (Option.some.inj hRun)
  have hAsked : p.settings.snapshot.isEmpty = false := by
    rw [hName]
    rfl
  obtain ⟨-, -, -, hCount, path, hPath, hFile, hValues⟩ :=
    snapshot_replays r p m hPrepare hMode hAsked hDone
  simp only [hTold, hSteps, hStart, hPainted, hPanels] at hCount hFile hValues
  rw [Plan.filesAfter, hTrace, hTold, hName] at hPath
  obtain rfl : ["s"] = path := Except.ok.inj (Eq.trans (by decide +kernel) hPath)
  obtain ⟨hBytes, hRead, -⟩ := hFile (by decide)
  refine ⟨p, m, hPrepare, hMode, hAsked, hDone, hCount nofun, ⟨_, hBytes, hRead (by decide)⟩, ?_⟩
  rw [hValues ["t"] hTrace (by decide) (by decide)]
  decide +kernel

end Command

end HullRobot
