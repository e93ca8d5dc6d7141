import HullRobot.Proofs.Command.Crashes
import HullRobot.Proofs.Command.Tracing
import HullRobot.Proofs.Machine.Sturdy

/-!
# Refused commands

A command first looks for everything that can be wrong with its request, and only then makes the
file for its values and a machine.  The snapshot comes last, when the run has given its results.

* `run_sorts`: **a robot stays a robot**, and nothing else becomes one.  So a failed run has not
  written to the standard output of a command with a robot.
* `Refused`: all that can be wrong with a request.  `Refused.prepare_eq`, `refused_of_prepare`:
  **these are just the errors of a command without a machine**, and such a command does nothing.
* `content?_filesAfter`: the only file that a run makes is that for its values.
* `refusal_leaves_no_trace`: what a refused command and a failed run leave behind.
* `snapshot_file_made_for_values`: a snapshot's file that a failed run makes, as one for its values.
-/

namespace HullRobot

/-! ### What devices stay -/

namespace Machine

variable {m : Machine}

/-- Which devices are robots. -/
def sorts (m : Machine) : Array Bool := m.bench.devices.map Device.isRobot

theorem sorts_closed (cause : Option RunError) (m : Machine) :
    (m.closed cause).sorts = m.sorts := by
  unfold sorts
  rw [closed_devices]
  exact Bench.map_flushDevices Device.isRobot_flushed _ _

theorem sorts_tell {b : Bench} {v : Int64}
    (h : b.devices = Bench.tellDevices m.bench.output.outlets [v] m.bench.devices) :
    (m.onto b).sorts = m.sorts := by
  show b.devices.map Device.isRobot = _
  rw [h]
  exact Bench.map_offerDevices (fun d => d.isRobot_offered v) _ _

theorem store_sorts (address v : Int64) (m : Machine) :
    (leaves (store address v m)).sorts = m.sorts := by
  rw [store_eq]
  cases m.memory.store address [v] with
  | ok u memory => rfl
  | error e memory =>
    cases e with
    | fault f => exact sorts_closed _ { m with memory }
    | crash c => rfl

theorem read_sorts (address : Int64) (m : Machine) :
    (leaves (act (.read address) m)).sorts = m.sorts := by
  rw [act_read_eq]
  rcases m.bench.read_same with ⟨v, b, hRead, -, hDevices⟩ | ⟨e, b, hRead, -, hDevices⟩
  · have hSame : (m.onto b).sorts = m.sorts := congrArg (·.map Device.isRobot) hDevices
    rw [hRead]
    exact (store_sorts address v (m.onto b)).trans hSame
  · have hSame : (m.onto b).sorts = m.sorts := congrArg (·.map Device.isRobot) hDevices
    rw [hRead]
    cases e with
    | io e => exact (sorts_closed _ (m.onto b)).trans hSame
    | crash c => exact hSame

theorem emit_sorts (v : Int64) (m : Machine) : (leaves (emit v m)).sorts = m.sorts := by
  rw [emit_eq]
  rcases (m.bench.note (.emitted v)).emit_cases v with
    ⟨b, hEmit, hPassed⟩ | ⟨e, b, hEmit, -, hDevices, -⟩ | ⟨-, hEmit⟩
  · rw [hEmit]
    exact sorts_tell hPassed.devices_eq
  · rw [hEmit]
    exact (sorts_closed _ (m.onto b)).trans (sorts_tell hDevices)
  · rw [hEmit]
    rfl

theorem act_sorts (effect : FlatMachine.Effect) (m : Machine) :
    (leaves (act effect m)).sorts = m.sorts := by
  cases effect with
  | assign address v => exact store_sorts address v m
  | read address => exact read_sorts address m
  | emit v => exact emit_sorts v m
  | rebase offset => rfl
  | pass => rfl
  | halt => exact sorts_closed none m

/-- A step makes no robot of another device, and nothing else of a robot. -/
theorem step_sorts (m : Machine) : (leaves (step m)).sorts = m.sorts := by
  obtain ⟨course, -, -, hCourse⟩ := step_course m
  have hStep := (hCourse m.bench).1
  rw [onto_bench] at hStep
  rw [hStep]
  cases course with
  | lost setback => exact sorts_closed _ m.atWork
  | wrecked crash => rfl
  | works ins verdict =>
    cases verdict with
    | halts setback ip => exact sorts_closed _ { m.begun ins with ip }
    | crashes crash ip => rfl
    | done effect ip => exact act_sorts effect { m.begun ins with ip }

theorem runSteps_sorts (reason : RunError) (budget : Nat) (m : Machine) :
    (runSteps reason budget m).2.sorts = m.sorts := by
  induction budget generalizing m with
  | zero => exact sorts_closed (some reason) m
  | succ budget ih =>
    have hFirst := step_sorts m
    unfold runSteps
    cases hStep : step m with
    | ok u m₁ =>
      rw [hStep] at hFirst
      exact (ih m₁).trans hFirst
    | error stop m₁ =>
      rw [hStep] at hFirst
      exact hFirst

/-- **A run makes no robot of another device, and nothing else of a robot.** -/
theorem run_sorts (patience : Patience) (m : Machine) : (m.run patience).2.sorts = m.sorts := by
  cases hRefusal : m.refusal? with
  | some e => rw [run_of_refusal hRefusal]
  | none =>
    rw [run_eq hRefusal]
    exact runSteps_sorts _ _ (setRunning true m)

end Machine

namespace Command

variable {r : Request} {flags : Flags} {s : Settings} {p : Plan} {m : Machine} {e : Error}

theorem printed_of_robot (hMode : p.settings.raw = false) (hPrepare : prepare r = .ok (p, m))
    (patience : Machine.Patience) : printed (m.run patience).2 Plan.mainSocket = [] := by
  have hDevices := (bench_of_setups p r.stdoutLimit).1
  rw [← Machine.bench_setUpAll (prepare_setUpAll hPrepare)] at hDevices
  have hRobot : (p.mainDevice r.stdoutLimit).isRobot = true := by
    rw [Plan.mainDevice, hMode]
    rfl
  have hFirst : m.sorts[Plan.mainSocket]? = some true := by
    rw [Machine.sorts, Array.getElem?_map, hDevices, Array.append_assoc,
      Array.getElem?_append_left (show 0 < 1 by decide), ← hRobot]
    rfl
  rw [← Machine.run_sorts patience, Machine.sorts, Array.getElem?_map] at hFirst
  unfold printed
  split
  · next channel hPrinter =>
    rw [hPrinter] at hFirst
    cases hFirst
  · rfl

/-! ### What can be wrong with a request -/

/-- The request has these flags, and with them these settings. -/
structure Configured (r : Request) (flags : Flags) (s : Settings) : Prop where
  parsed : Flags.parse r.args = .ok flags
  settled : settings flags r.files = .ok s

/-- Where the image comes from: what it is called in errors, and its bytes. -/
inductive Source (r : Request) : List String → String → List UInt8 → Prop
  | stdin : Source r [] "<stdin>" r.stdin
  | dash {name : String} (hName : name = "" ∨ name = "-") : Source r [name] "<stdin>" r.stdin
  | file {name : String} {bytes : List UInt8} (hName : ¬(name = "" ∨ name = "-"))
      (hRead : r.files.read name = .ok bytes) : Source r [name] name bytes

/-- **What can be wrong with a request.**  The first thing wrong with it counts. -/
inductive Refused (r : Request) : Error → Prop
  | flags {e : Flags.Error} (hFlags : Flags.parse r.args = .error (.error e)) : Refused r (.flags e)
  /-- The file of the settings cannot be read, or has other things than settings in it. -/
  | config {flags : Flags} {e : Settings.Error} (hFlags : Flags.parse r.args = .ok flags)
      (hLoad : Settings.load r.files flags.configName = .error e) : Refused r (.settings e)
  /-- A setting has a value that is not allowed. -/
  | invalid {flags : Flags} {s : Settings} {e : Settings.Error}
      (hFlags : Flags.parse r.args = .ok flags)
      (hLoad : Settings.load r.files flags.configName = .ok s)
      (hInvalid : (flags.change s).validate = .error e) : Refused r (.settings e)
  | inputWithoutRaw {flags : Flags} {s : Settings} (h : Configured r flags s)
      (hText : flags.inputText ≠ "") (hMode : s.raw = false) : Refused r .inputWithoutRaw
  | tooManyImages {flags : Flags} {s : Settings} (h : Configured r flags s)
      (hText : flags.inputText = "" ∨ s.raw = true) (hMany : 1 < flags.rest.length) :
      Refused r (.tooManyImages flags.rest.length)
  | imageFile {flags : Flags} {s : Settings} {name : String} {e : Files.Error}
      (h : Configured r flags s) (hText : flags.inputText = "" ∨ s.raw = true)
      (hRest : flags.rest = [name]) (hName : ¬(name = "" ∨ name = "-"))
      (hRead : r.files.read name = .error e) : Refused r (.file e)
  | image {flags : Flags} {s : Settings} {source : String} {bytes : List UInt8} {e : Image.Error}
      (h : Configured r flags s) (hText : flags.inputText = "" ∨ s.raw = true)
      (hSource : Source r flags.rest source bytes) (hParse : Image.parseBytes bytes = .error e) :
      Refused r (.image source e)
  | input {flags : Flags} {s : Settings} {cells : List Int64} {e : Image.Error}
      (h : Configured r flags s) (hImage : readImage r flags.rest = .ok cells)
      (hMode : s.raw = true) (hParse : Image.parse flags.inputText.toList = .error e) :
      Refused r (.input e)
  /-- The file for the values cannot be made. -/
  | valuesFile {flags : Flags} {s : Settings} {cells inputs : List Int64} {e : Files.Error}
      (h : Configured r flags s) (hText : flags.inputText = "" ∨ s.raw = true)
      (hImage : readImage r flags.rest = .ok cells)
      (hInputs : readInputs s flags.inputText = .ok inputs) (hAsked : s.traceFile.isEmpty = false)
      (hPath : r.files.writable s.traceFile = .error e) : Refused r (.file e)

theorem cellsOf_error {source : String} {bytes : List UInt8} :
    cellsOf source bytes = .error e ↔
      ∃ cause, e = .image source cause ∧ Image.parseBytes bytes = .error cause := by
  unfold cellsOf
  cases Image.parseBytes bytes with
  | error cause =>
    constructor
    · intro h
      cases h
      exact ⟨cause, rfl, rfl⟩
    · rintro ⟨_, rfl, hCause⟩
      cases hCause
      rfl
  | ok cells =>
    constructor
    · intro h
      cases h
    · rintro ⟨_, -, hCause⟩
      cases hCause

theorem Source.readImage_eq {names : List String} {source : String} {bytes : List UInt8}
    (h : Source r names source bytes) : readImage r names = cellsOf source bytes := by
  cases h with
  | stdin => rfl
  | dash hName => exact if_pos hName
  | file hName hRead => rw [readImage, if_neg hName, hRead]

theorem plan_of_settings (h : settings flags r.files = .error e) : plan r flags = .error e := by
  show (settings flags r.files).bind (planOf r flags.rest flags.inputText) = _
  rw [h]
  rfl

theorem Configured.plan_eq (h : Configured r flags s) :
    plan r flags = planOf r flags.rest flags.inputText s := by
  show (settings flags r.files).bind (planOf r flags.rest flags.inputText) = _
  rw [h.settled]
  rfl

theorem planOf_eq {text : String} (hText : text = "" ∨ s.raw = true) (rest : List String) :
    planOf r rest text s = (readImage r rest).bind fun cells =>
      (readInputs s text).bind fun inputs => (tracePath? s r.files).bind fun tracePath? =>
        .ok { settings := s, cells, inputs, tracePath? } := by
  unfold planOf
  rw [if_neg]
  · rfl
  · rintro ⟨hSome, hMode⟩
    rcases hText with hNone | hRaw
    · exact hSome hNone
    · rw [hRaw] at hMode
      cases hMode

theorem refused_of_readImage (h : Configured r flags s)
    (hText : flags.inputText = "" ∨ s.raw = true) (hImage : readImage r flags.rest = .error e) :
    Refused r e := by
  -- What the bytes of an image can be refused for, wherever they come from.
  have hCells : ∀ {names source bytes}, flags.rest = names → Source r names source bytes →
      Refused r e := by
    rintro _ source bytes rfl hSource
    rw [hSource.readImage_eq, cellsOf_error] at hImage
    obtain ⟨cause, rfl, hParse⟩ := hImage
    exact .image h hText hSource hParse
  match hRest : flags.rest with
  | [] => exact hCells hRest .stdin
  | [name] =>
    by_cases hName : name = "" ∨ name = "-"
    · exact hCells hRest (.dash hName)
    · cases hRead : r.files.read name with
      | error cause =>
        rw [hRest, readImage, if_neg hName, hRead] at hImage
        cases hImage
        exact .imageFile h hText hRest hName hRead
      | ok bytes => exact hCells hRest (.file hName hRead)
  | first :: second :: more =>
    rw [hRest] at hImage
    cases hImage
    rw [← hRest]
    exact .tooManyImages h hText (by rw [hRest]; simp)

theorem refused_of_planOf (h : Configured r flags s)
    (hPlan : planOf r flags.rest flags.inputText s = .error e) : Refused r e := by
  by_cases hText : flags.inputText = "" ∨ s.raw = true
  · rw [planOf_eq hText] at hPlan
    cases hImage : readImage r flags.rest with
    | error cause =>
      rw [hImage] at hPlan
      cases hPlan
      exact refused_of_readImage h hText hImage
    | ok cells =>
      rw [hImage] at hPlan
      cases hInputs : readInputs s flags.inputText with
      | error cause =>
        rw [hInputs] at hPlan
        cases hPlan
        unfold readInputs at hInputs
        split at hInputs
        · next hMode =>
          split at hInputs
          · next hParse =>
            cases hInputs
            exact .input h hImage hMode hParse
          · cases hInputs
        · cases hInputs
      | ok inputs =>
        rw [hInputs] at hPlan
        unfold tracePath? at hPlan
        by_cases hAsked : s.traceFile.isEmpty = true
        · rw [if_pos hAsked] at hPlan
          cases hPlan
        · rw [if_neg hAsked] at hPlan
          cases hPath : r.files.writable s.traceFile with
          | error cause =>
            rw [hPath] at hPlan
            cases hPlan
            exact .valuesFile h hText hImage hInputs (Bool.eq_false_iff.mpr hAsked) hPath
          | ok path =>
            rw [hPath] at hPlan
            cases hPlan
  · rw [not_or, Bool.not_eq_true] at hText
    unfold planOf at hPlan
    rw [if_pos ⟨hText.1, by rw [hText.2]; rfl⟩] at hPlan
    cases hPlan
    exact .inputWithoutRaw h hText.1 hText.2

/-- A command without a machine that fails has something wrong with its request. -/
theorem refused_of_prepare {outcome : Outcome} (hPrepare : prepare r = .error outcome)
    (hFailed : outcome.conclusion = .failed e) : Refused r e := by
  unfold prepare at hPrepare
  split at hPrepare
  · cases hPrepare
    cases hFailed
  · next hFlags =>
    cases hPrepare
    cases hFailed
    exact .flags hFlags
  · next flags hFlags =>
    split at hPrepare
    · next hPlan =>
      cases hPrepare
      cases hFailed
      cases hLoad : Settings.load r.files flags.configName with
      | error cause =>
        have hSettings : settings flags r.files = .error (.settings cause) := by
          simp only [settings, hLoad]
        rw [plan_of_settings hSettings] at hPlan
        cases hPlan
        exact .config hFlags hLoad
      | ok s =>
        cases hValid : (flags.change s).validate with
        | error cause =>
          have hSettings : settings flags r.files = .error (.settings cause) := by
            simp only [settings, hLoad, hValid]
          rw [plan_of_settings hSettings] at hPlan
          cases hPlan
          exact .invalid hFlags hLoad hValid
        | ok u =>
          have hHere : Configured r flags (flags.change s) :=
            ⟨hFlags, by simp only [settings, hLoad, hValid]⟩
          exact refused_of_planOf hHere (hHere.plan_eq ▸ hPlan)
    · split at hPrepare
      · cases hPrepare
        cases hFailed
      · cases hPrepare

/-- A command whose request has something wrong with it does nothing. -/
theorem Refused.prepare_eq (h : Refused r e) :
    ∃ stderr, prepare r = .error { conclusion := .failed e, stderr, files := r.files } := by
  -- Once there are settings, it is enough to look at the plan.
  have hPlanned : ∀ {flags s}, Configured r flags s →
      planOf r flags.rest flags.inputText s = .error e →
      ∃ stderr, prepare r = .error { conclusion := .failed e, stderr, files := r.files } := by
    intro flags s hHere hPlan
    rw [← hHere.plan_eq] at hPlan
    exact ⟨"", by simp only [prepare, hHere.parsed, hPlan]⟩
  cases h with
  | @flags cause hFlags =>
    exact ⟨cause.message ++ "\n" ++ usage, by simp only [prepare, hFlags]⟩
  | @config flags cause hFlags hLoad =>
    have hPlan : plan r flags = .error (.settings cause) := plan_of_settings (by
      simp only [settings, hLoad])
    exact ⟨"", by simp only [prepare, hFlags, hPlan]⟩
  | @invalid flags s cause hFlags hLoad hInvalid =>
    have hPlan : plan r flags = .error (.settings cause) := plan_of_settings (by
      simp only [settings, hLoad, hInvalid])
    exact ⟨"", by simp only [prepare, hFlags, hPlan]⟩
  | inputWithoutRaw hHere hText hMode =>
    refine hPlanned hHere ?_
    unfold planOf
    rw [if_pos ⟨hText, by rw [hMode]; rfl⟩]
    rfl
  | @tooManyImages flags s hHere hText hMany =>
    refine hPlanned hHere ?_
    rw [planOf_eq hText]
    cases hRest : flags.rest with
    | nil =>
      rw [hRest] at hMany
      simp at hMany
    | cons first others =>
      cases others with
      | nil =>
        rw [hRest] at hMany
        simp at hMany
      | cons second more => rfl
  | imageFile hHere hText hRest hName hRead =>
    refine hPlanned hHere ?_
    rw [planOf_eq hText, hRest, readImage, if_neg hName, hRead]
    rfl
  | image hHere hText hSource hParse =>
    refine hPlanned hHere ?_
    rw [planOf_eq hText, hSource.readImage_eq, cellsOf_error.mpr ⟨_, rfl, hParse⟩]
    rfl
  | input hHere hImage hMode hParse =>
    refine hPlanned hHere ?_
    rw [planOf_eq (.inr hMode), hImage, readInputs, if_pos hMode, hParse]
    rfl
  | valuesFile hHere hText hImage hInputs hAsked hPath =>
    refine hPlanned hHere ?_
    rw [planOf_eq hText, hImage, hInputs, tracePath?, hAsked, hPath]
    rfl

/-! ### What a run leaves behind -/

theorem content?_filesAfter {path : Path} (h : p.tracePath? ≠ some path) (files : Files)
    (traced : List UInt8) : (p.filesAfter files traced).content? path = files.content? path := by
  unfold Plan.filesAfter
  cases hTrace : p.tracePath? with
  | none => rfl
  | some other =>
    refine Files.content?_put_other fun hSame => h ?_
    rw [hTrace, hSame]

/-- A run that fails is the end of its command. -/
theorem run_of_failure {failure : Failure RunError} (hPrepare : prepare r = .ok (p, m))
    (hFailed : (m.run (r.clock.patience p.timed)).1 = some failure) :
    let last := (m.run (r.clock.patience p.timed)).2
    (run r).conclusion = .failed (.run failure) ∧
      (run r).stdout = printed last Plan.mainSocket ∧
      (run r).files = p.filesAfter r.files (printed last p.traceSocket) := by
  obtain ⟨lines, hDump⟩ := dumpLog_ok (mapped_after hPrepare (r.clock.patience p.timed)) p.settings
  rw [run_prepared hPrepare, conclude, hDump, hFailed]
  exact ⟨rfl, rfl, rfl⟩

/-- A time limit that is up in the middle of a run. -/
example :
    let r : Request :=
      { args := ["-timeout", "1s", "-trace-out", "t"], stdin := Text.bytes "104,1,104,0,99",
        clock := .expiring 1 }
    (run r).conclusion = .failed (.run (.plain .expired)) ∧ (run r).stdout = [] ∧
      (run r).files.content? ["t"] = some (Text.bytes "1\n") := by
  decide +kernel

/-- **What a refused command and a failed run leave behind.**  A command without a machine that
fails has one of the listed things wrong with its request, and then there is nothing on standard
output and in the log, and all files are as they were.  If a run fails, nothing is on the standard
output of a command with a robot, and all files are as they were but for the file for the values of
the run; so is that of the snapshot, if it is another one. -/
theorem refusal_leaves_no_trace (r : Request) :
    (∀ e, Refused r e → (run r).conclusion = .failed e ∧ (run r).stdout = [] ∧ (run r).log = [] ∧
      (run r).files = r.files) ∧
    (∀ e, (run r).conclusion = .failed e → Refused r e ∨ ∃ p m, prepare r = .ok (p, m)) ∧
    ∀ p m failure, prepare r = .ok (p, m) →
      (m.run (r.clock.patience p.timed)).1 = some failure →
      (run r).conclusion = .failed (.run failure) ∧
      (p.settings.raw = false → (run r).stdout = []) ∧
      (p.tracePath? = none → (run r).files = r.files) ∧
      ∀ path, p.tracePath? ≠ some path → (run r).files.content? path = r.files.content? path := by
  refine ⟨fun e hRefused => ?_, fun e hFailed => ?_, fun p m failure hPrepare hFailed => ?_⟩
  · obtain ⟨stderr, hPrepare⟩ := hRefused.prepare_eq
    rw [run_unprepared hPrepare]
    exact ⟨rfl, rfl, rfl, rfl⟩
  · cases hPrepare : prepare r with
    | ok start => exact .inr ⟨start.1, start.2, rfl⟩
    | error outcome =>
      rw [run_unprepared hPrepare] at hFailed
      exact .inl (refused_of_prepare hPrepare hFailed)
  · obtain ⟨hConclusion, hStdout, hFiles⟩ := run_of_failure hPrepare hFailed
    refine ⟨hConclusion, fun hMode => ?_, fun hNone => ?_, fun path hOther => ?_⟩
    · rw [hStdout]
      exact printed_of_robot hMode hPrepare _
    · rw [hFiles, Plan.filesAfter, hNone]
    · rw [hFiles]
      exact content?_filesAfter hOther _ _

/-- A command with too many images, and a run that fails with a snapshot and a file for its
values. -/
theorem refusal_leaves_no_trace_both :
    let refused : Request := { args := ["-dump", "a", "b"], files := { entries := [(["a"], [1])] } }
    let failed : Request :=
      { args := ["-snapshot", "s", "-trace-out", "t"], stdin := Text.bytes "104,1,0" }
    (Refused refused (.tooManyImages 2) ∧ (run refused).stdout = [] ∧ (run refused).log = [] ∧
      (run refused).files = refused.files) ∧
    ∃ p m failure, prepare failed = .ok (p, m) ∧
      (m.run (failed.clock.patience p.timed)).1 = some failure ∧ p.settings.raw = false ∧
      failed.files.writable p.settings.snapshot = .ok ["s"] ∧ p.tracePath? = some ["t"] ∧
      (run failed).stdout = [] ∧ (run failed).files.content? ["s"] = none := by
  intro refused failed
  have hFlags : Flags.parse refused.args =
      .ok { assignments := [.dump true], rest := ["a", "b"] } := by cbv
  have hRefused : Refused refused (.tooManyImages 2) :=
    .tooManyImages ⟨hFlags, rfl⟩ (.inl (by decide +kernel)) (by decide)
  obtain ⟨-, hStdout, hLog, hFiles⟩ := (refusal_leaves_no_trace refused).1 _ hRefused
  refine ⟨⟨hRefused, hStdout, hLog, hFiles⟩, ?_⟩
  have hPlan : (prepare failed).toOption.map (fun start =>
      ((start.2.run (failed.clock.patience start.1.timed)).1.isSome, start.1.settings.raw,
        start.1.settings.snapshot, start.1.tracePath?)) = some (true, false, "s", some ["t"]) := by
    decide +kernel
  obtain ⟨p, m, hPrepare, hFacts⟩ := exists_prepared hPlan
  obtain ⟨hFails, hRest⟩ := Prod.mk.inj hFacts
  obtain ⟨hMode, hRest⟩ := Prod.mk.inj hRest
  obtain ⟨hSnapshot, hTrace⟩ := Prod.mk.inj hRest
  obtain ⟨failure, hFailure⟩ := Option.isSome_iff_exists.mp hFails
  obtain ⟨-, hStdout, -, hOthers⟩ :=
    (refusal_leaves_no_trace failed).2.2 p m failure hPrepare hFailure
  refine ⟨p, m, failure, hPrepare, hFailure, hMode, ?_, hTrace, hStdout hMode, ?_⟩
  · rw [hSnapshot]
    decide +kernel
  · exact hOthers ["s"] (by rw [hTrace]; decide)

/-- A run that fails, with one file for its values and for its snapshot.  The file is there then,
with nothing in it. -/
theorem snapshot_file_made_for_values :
    let r : Request := { args := ["-snapshot", "s", "-trace-out", "s"], stdin := Text.bytes "0" }
    (run r).conclusion = .failed (.run (.plain (.decoding (.unknownOpcode 0 0)))) ∧
      r.files.writable "s" = .ok ["s"] ∧
      r.files.content? ["s"] = none ∧ (run r).files.content? ["s"] = some [] := by
  decide +kernel

end Command

end HullRobot
