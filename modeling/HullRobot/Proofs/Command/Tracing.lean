import HullRobot.Proofs.Command.Replay
import HullRobot.Proofs.Machine.Silence

/-!
# Tracing changes nothing

Commands whose settings differ in tracing only set up machines that differ in tracing only.  These
make the same runs, and what a command does after the run does not look at the trace.

* `untraced_setups`: the setups of a plan without tracing are those of the plan that does not trace.
* `conclude_untraced`: the end of a command is the same for the silenced machine, but for the log.
* `fulfil_untraced`: **a plan has the same outcome with and without tracing**, but for the log.
* `tracing_changes_nothing`: so it is for every machine and for every command.
-/

namespace HullRobot

namespace Machine

variable {m m' : Machine}

theorem silenced_silenced (m : Machine) : m.silenced.silenced = m.silenced := by
  have hDevice : Device.silenced ∘ Device.silenced = Device.silenced := by
    funext d
    cases d <;> rfl
  unfold silenced through onto Bench.silenced
  simp only [Array.map_map, hDevice]

theorem silenced_blank : ({} : Machine).silenced = {} := by
  unfold silenced through onto Bench.silenced
  simp only [Array.map_empty]

/-- **Machines that are alike make the same runs.** -/
theorem Alike.run (h : m.Alike m') (patience : Patience) :
    (m.run patience).1 = (m'.run patience).1 ∧ (m.run patience).2.Alike (m'.run patience).2 := by
  obtain ⟨hResult, hState⟩ :=
    run_through Bench.unseen_silenced silenced_setRunning (alike_iff.1 h) patience
  exact ⟨hResult, alike_iff.2 hState⟩

/-- **Machines that are alike take the same steps**, with the same values read and emitted. -/
theorem Alike.calls (h : m.Alike m') (n : Nat) :
    (repeated call n m).1 = (repeated call n m').1 ∧
      (repeated call n m).2.Alike (repeated call n m').2 := by
  obtain ⟨hCalls, hState⟩ := calls_through Bench.unseen_silenced (alike_iff.1 h) n
  exact ⟨hCalls, alike_iff.2 hState⟩

/-- Setups that differ in tracing only make machines that are alike. -/
theorem setUpAll_untraced {setups setups' : List Setup} (h : untraced setups = untraced setups')
    (hSetUp : ({} : Machine).setUpAll setups = .ok () m) :
    ∃ m', ({} : Machine).setUpAll setups' = .ok () m' ∧ m.Alike m' := by
  have hHere := setUpAll_silenced {} setups
  have hThere := setUpAll_silenced {} setups'
  rw [h, hThere, hSetUp] at hHere
  cases hOther : ({} : Machine).setUpAll setups' with
  | ok u m' =>
    rw [hOther] at hHere
    injection hHere with _ hState
    exact ⟨m', rfl, alike_iff.2 hState.symm⟩
  | error crash m' =>
    rw [hOther] at hHere
    cases hHere

end Machine

namespace Command

/-! ### Plans -/

/-- The settings without tracing. -/
def untrace (s : Settings) : Settings := { s with trace := false }

/-- The plan without tracing. -/
def Plan.untraced (p : Plan) : Plan := { p with settings := untrace p.settings }

theorem untraced_settings_setups (s : Settings) : Machine.untraced s.setups = s.setups := by
  unfold Machine.untraced Settings.setups
  by_cases hPages : s.pageSize = 0 <;> by_cases hLimit : s.memoryLimit = 0 <;>
    simp only [hPages, hLimit, if_true, if_false] <;> rfl

theorem mainDevice_untraced (p : Plan) (limit : Option Int) :
    (p.mainDevice limit).silenced = p.untraced.mainDevice limit := by
  have hSame : p.untraced.settings.raw = p.settings.raw := rfl
  unfold Plan.mainDevice
  rw [hSame]
  cases p.settings.raw <;> rfl

theorem untraced_setups (p : Plan) (limit : Option Int) :
    Machine.untraced (p.setups limit) = p.untraced.setups limit := by
  have hSettings := untraced_settings_setups p.settings
  have hFixed : p.untraced.settings.setups = p.settings.setups ∧
      p.untraced.settings.snapshot = p.settings.snapshot ∧ p.untraced.settings.trace = false ∧
      p.untraced.tracePath? = p.tracePath? ∧ p.untraced.cells = p.cells ∧
      p.untraced.input = p.input ∧ p.untraced.traceSocket = p.traceSocket :=
    ⟨rfl, rfl, rfl, rfl, rfl, rfl, rfl⟩
  unfold Machine.untraced at hSettings ⊢
  unfold Plan.setups
  simp only [List.filterMap_append, hSettings, hFixed, ← mainDevice_untraced]
  cases p.settings.snapshot.isEmpty <;> cases p.settings.trace <;> cases p.tracePath?.isSome <;> rfl

/-- A plan from its settings on. -/
def planOf (r : Request) (rest : List String) (text : String) (s : Settings) :
    Except Error Plan := do
  if text ≠ "" ∧ !s.raw then throw .inputWithoutRaw
  let cells ← readImage r rest
  let inputs ← readInputs s text
  let tracePath? ← tracePath? s r.files
  pure { settings := s, cells, inputs, tracePath? }

theorem planOf_untrace (r : Request) (rest : List String) (text : String) (s : Settings) :
    (planOf r rest text s).map Plan.untraced = planOf r rest text (untrace s) := by
  have hFixed : (untrace s).raw = s.raw ∧ readInputs (untrace s) text = readInputs s text ∧
      tracePath? (untrace s) r.files = tracePath? s r.files := ⟨rfl, rfl, rfl⟩
  unfold planOf
  simp only [hFixed]
  split
  · rfl
  · cases readImage r rest with
    | error e => rfl
    | ok cells =>
      cases readInputs s text with
      | error e => rfl
      | ok inputs => cases tracePath? s r.files <;> rfl

/-- The plan of a command does not depend on tracing, but for the setting itself. -/
theorem plan_untraced (r : Request) (flags : Flags) :
    (plan r flags).map Plan.untraced =
      ((settings flags r.files).map untrace).bind (planOf r flags.rest flags.inputText) := by
  have hPlan : plan r flags =
      (settings flags r.files).bind (planOf r flags.rest flags.inputText) := rfl
  rw [hPlan]
  cases settings flags r.files with
  | error e => rfl
  | ok s => exact planOf_untrace r flags.rest flags.inputText s

/-! ### After the run -/

/-- The outcome without the log. -/
def Outcome.unlogged (o : Outcome) : Outcome := { o with log := [] }

theorem printed_silenced (m : Machine) (socket : Socket) :
    printed m.silenced socket = printed m socket := by
  unfold printed
  have hDevice : m.silenced.bench.devices[socket]? =
      (m.bench.devices[socket]?).map Device.silenced := Array.getElem?_map
  rw [hDevice]
  cases m.bench.devices[socket]? with
  | none => rfl
  | some d => cases d <;> rfl

theorem taped?_silenced (m : Machine) (socket : Socket) :
    taped? m.silenced socket = taped? m socket := by
  unfold taped?
  have hDevice : m.silenced.bench.devices[socket]? =
      (m.bench.devices[socket]?).map Device.silenced := Array.getElem?_map
  rw [hDevice]
  cases m.bench.devices[socket]? with
  | none => rfl
  | some d => cases d <;> rfl

theorem finish_untraced (p : Plan) (limit : Option Int) (m : Machine) (log log' : List String)
    (files : Files) :
    (finish p limit m log files).unlogged =
      (finish p.untraced limit m.silenced log' files).unlogged := by
  have hRobot : m.silenced.bench.robot? = m.bench.robot? := m.bench.robot?_silenced
  have hSave : ∀ robot?, saveSnapshot p.untraced.settings m.silenced robot? files =
      saveSnapshot p.settings m robot? files := by
    intro robot?
    unfold saveSnapshot
    rw [taped?_silenced]
    rfl
  unfold finish
  rw [hRobot, printed_silenced]
  simp only [hSave, show p.untraced.settings.raw = p.settings.raw from rfl,
    show ∀ robot sink, report p.untraced.settings robot sink = report p.settings robot sink from
      fun _ _ => rfl]
  generalize (if p.settings.raw = true then none else m.bench.robot?) = robot?
  split
  · rfl
  · cases saveSnapshot p.settings m robot? files <;> rfl

theorem conclude_untraced (r : Request) (p : Plan) (failure? : Option (Failure RunError))
    (m : Machine) :
    (conclude r p failure? m).unlogged = (conclude r p.untraced failure? m.silenced).unlogged := by
  unfold conclude
  rw [printed_silenced, show p.untraced.traceSocket = p.traceSocket from rfl, printed_silenced,
    show dumpLog p.untraced.settings m.silenced = dumpLog p.settings m from rfl,
    show p.untraced.filesAfter = p.filesAfter from rfl]
  cases dumpLog p.settings m with
  | error crash => rfl
  | ok dumped =>
    cases failure? with
    | some failure => rfl
    | none => exact finish_untraced p _ m _ _ _

/-! ### Whole commands -/

/-- A command from its plan on. -/
def fulfil (r : Request) : Except Error Plan → Outcome
  | .error e => { conclusion := .failed e, files := r.files }
  | .ok p =>
    match ({} : Machine).setUpAll (p.setups r.stdoutLimit) with
    | .error crash _ => { conclusion := .crashed crash, files := p.filesAfter r.files [] }
    | .ok () m =>
      conclude r p (m.run (r.clock.patience p.timed)).1 (m.run (r.clock.patience p.timed)).2

theorem run_eq_fulfil {r : Request} {flags : Flags} (h : Flags.parse r.args = .ok flags) :
    run r = fulfil r (plan r flags) := by
  unfold run runBy prepare
  rw [h]
  simp only
  cases plan r flags with
  | error e => rfl
  | ok p =>
    simp only [fulfil]
    cases ({} : Machine).setUpAll (p.setups r.stdoutLimit) <;> rfl

/-- **A plan has the same outcome with and without tracing**, but for the log. -/
theorem fulfil_untraced (r : Request) (planned : Except Error Plan) :
    (fulfil r planned).unlogged = (fulfil r (planned.map Plan.untraced)).unlogged := by
  cases planned with
  | error e => rfl
  | ok p =>
    have hSetUp := Machine.setUpAll_silenced {} (p.setups r.stdoutLimit)
    rw [untraced_setups, Machine.silenced_blank] at hSetUp
    simp only [Except.map, fulfil, hSetUp]
    cases ({} : Machine).setUpAll (p.setups r.stdoutLimit) with
    | error crash m => rfl
    | ok u m =>
      obtain ⟨hResult, hAlike⟩ :=
        (Machine.alike_iff.2 m.silenced_silenced).run (r.clock.patience p.timed)
      have hHere := conclude_untraced r p (m.run (r.clock.patience p.timed)).1
        (m.run (r.clock.patience p.timed)).2
      have hThere := conclude_untraced r p.untraced
        (m.silenced.run (r.clock.patience p.timed)).1
        (m.silenced.run (r.clock.patience p.timed)).2
      refine hHere.trans (Eq.trans ?_ hThere.symm)
      rw [hResult, Machine.alike_iff.1 hAlike]
      rfl

/-- Commands that differ in tracing only have the same outcome, but for the log. -/
theorem run_untraced {r : Request} {args' : List String} {flags flags' : Flags}
    (hParse : Flags.parse r.args = .ok flags) (hParse' : Flags.parse args' = .ok flags')
    (hRest : flags.rest = flags'.rest) (hText : flags.inputText = flags'.inputText)
    (hSettings : (settings flags r.files).map untrace = (settings flags' r.files).map untrace) :
    (run r).unlogged = (run { r with args := args' }).unlogged := by
  have hPlans : (plan r flags).map Plan.untraced =
      (plan { r with args := args' } flags').map Plan.untraced := by
    rw [plan_untraced, plan_untraced, hSettings, hRest, hText]
    rfl
  rw [run_eq_fulfil hParse, run_eq_fulfil (r := { r with args := args' }) hParse',
    fulfil_untraced, fulfil_untraced { r with args := args' }, ← hPlans]
  rfl

/-! ### Tracing -/

/-- **Tracing changes nothing.**  Setups that differ in tracing make machines that are alike.
Machines that are alike read and emit the same values in every sequence of steps, end every run in
the same way, and stay alike.  Commands whose settings differ in tracing only end in the same way,
with the same output and the same files. -/
theorem tracing_changes_nothing :
    (∀ (setups setups' : List Machine.Setup) (m : Machine),
      Machine.untraced setups = Machine.untraced setups' →
      ({} : Machine).setUpAll setups = .ok () m →
      ∃ m', ({} : Machine).setUpAll setups' = .ok () m' ∧ m.Alike m') ∧
    (∀ m m' : Machine, m.Alike m' →
      (∀ n, (repeated Machine.call n m).1 = (repeated Machine.call n m').1 ∧
        (repeated Machine.call n m).2.Alike (repeated Machine.call n m').2) ∧
      ∀ patience, (m.run patience).1 = (m'.run patience).1 ∧
        (m.run patience).2.Alike (m'.run patience).2) ∧
    ∀ (r : Request) (args' : List String) (flags flags' : Flags),
      Flags.parse r.args = .ok flags → Flags.parse args' = .ok flags' →
      flags.rest = flags'.rest → flags.inputText = flags'.inputText →
      (settings flags r.files).map untrace = (settings flags' r.files).map untrace →
      (run r).conclusion = (run { r with args := args' }).conclusion ∧
        (run r).stdout = (run { r with args := args' }).stdout ∧
        (run r).stderr = (run { r with args := args' }).stderr ∧
        (run r).files = (run { r with args := args' }).files := by
  refine ⟨?_, ?_, ?_⟩
  · intro setups setups' m h hSetUp
    exact Machine.setUpAll_untraced h hSetUp
  · intro m m' h
    exact ⟨h.calls, h.run⟩
  · intro r args' flags flags' hParse hParse' hRest hText hSettings
    have hSame := run_untraced hParse hParse' hRest hText hSettings
    unfold Outcome.unlogged at hSame
    injection hSame with hConclusion hStdout hStderr _ hFiles
    exact ⟨hConclusion, hStdout, hStderr, hFiles⟩

/-- A program that paints one panel, run with and without tracing: the logs are different. -/
theorem tracing_changes_nothing_stroke :
    let plain : Request := { args := ["-render"], stdin := Text.bytes "104,1,104,0,99" }
    let traced : Request := { plain with args := ["-render", "-trace"] }
    let setups : List Machine.Setup :=
      [.attach (.robot (Robot.new 0) false), .image [104, 1, 104, 0, 99], .input (.camera 0),
        .output (.single (.socket 0))]
    let setups' : List Machine.Setup :=
      [.attach (.robot (Robot.new 0) true), .image [104, 1, 104, 0, 99], .journal,
        .input (.camera 0), .output (.single (.socket 0))]
    (run plain).log ≠ (run traced).log ∧ (run plain).stdout = (run traced).stdout ∧
      (run plain).conclusion = (run traced).conclusion ∧
      ∃ m m', ({} : Machine).setUpAll setups = .ok () m ∧
        ({} : Machine).setUpAll setups' = .ok () m' ∧ (m.run ⟨9, .canceled⟩).1 = none ∧
        (m'.run ⟨9, .canceled⟩).1 = none ∧
        (m.run ⟨9, .canceled⟩).2.Alike (m'.run ⟨9, .canceled⟩).2 := by
  intro plain traced setups setups'
  obtain ⟨hSetUps, hMachines, hCommands⟩ := tracing_changes_nothing
  have hParse : Flags.parse plain.args = .ok { assignments := [.render true] } := by cbv
  have hParse' : Flags.parse traced.args = .ok { assignments := [.render true, .trace true] } := by
    cbv
  obtain ⟨hConclusion, hStdout, -⟩ :=
    hCommands plain traced.args _ _ hParse hParse' rfl rfl (by decide +kernel)
  have hRun : (match ({} : Machine).setUpAll setups with
      | .ok _ m => decide ((m.run ⟨9, .canceled⟩).1 = none)
      | .error .. => false) = true := by decide +kernel
  refine ⟨by decide +kernel, hStdout, hConclusion, ?_⟩
  cases hSetUp : ({} : Machine).setUpAll setups with
  | error crash m =>
    rw [hSetUp] at hRun
    cases hRun
  | ok u m =>
    rw [hSetUp] at hRun
    have hNone : (m.run ⟨9, .canceled⟩).1 = none := of_decide_eq_true hRun
    obtain ⟨m', hSetUp', hAlike⟩ := hSetUps setups setups' m rfl hSetUp
    obtain ⟨hResult, hAfter⟩ := (hMachines m m' hAlike).2 ⟨9, .canceled⟩
    exact ⟨m, m', rfl, hSetUp', hNone, hResult ▸ hNone, hAfter⟩

end Command

end HullRobot
