import HullRobot.Proofs.Machine.Turns
import HullRobot.Proofs.Machine.Unseen

/-!
# Runs

A run asks before each instruction whether it may go on.  So it makes steps until the machine stops
or the budget is used up, and in the end it halts, which flushes the output once.

* `runSteps_eq`: the steps of a run are the steps that `stepTimes` makes.
* `Ends`: how a run comes to its end, and on which machine.  `runSteps_cases`: **every run ends so,
  or crashes.**
* `told`: the values that a run emits.  `told_prefix`: a longer run emits more of the same.
* `run_is_iterated_step`: a run is a number of steps, and can be cut between any two of them.
-/

namespace HullRobot

/-! ### Indentation -/

namespace Journal

/-- A line without the mark that it was made within a run. -/
def Line.unindented : Line → Line
  | .machine _ entry => .machine false entry
  | .robot event => .robot event

def unindented (j : Journal) : Journal :=
  { j with running := false, lines := j.lines.map Line.unindented }

theorem unindented_enter (j : Journal) (entry : Entry) :
    j.unindented.enter entry = (j.enter entry).unindented := by
  unfold enter unindented
  by_cases hKept : j.kept = true
  · simp only [if_pos hKept, Array.map_push, Line.unindented]
  · simp only [if_neg hKept]

theorem unindented_enterRobot (j : Journal) (event : Robot.Event) :
    j.unindented.enterRobot event = (j.enterRobot event).unindented := by
  simp only [enterRobot, unindented, Array.map_push, Line.unindented]

end Journal

namespace Machine

variable {m m' : Machine}

/-- The machine without the indentation of its journal. -/
def unindented (m : Machine) : Machine := m.through (Bench.withJournal Journal.unindented)

theorem unseen_unindented : Bench.Unseen (Bench.withJournal Journal.unindented) :=
  Bench.unseen_withJournal Journal.unindented_enter Journal.unindented_enterRobot

theorem unindented_setRunning (running : Bool) (m : Machine) :
    (setRunning running m).unindented = m.unindented := rfl

/-- Machines that differ in indentation only make the same steps. -/
theorem stepTimes_unindented (n : Nat) (h : m.unindented = m'.unindented) :
    (stepTimes n m).1 = (stepTimes n m').1 ∧
      (stepTimes n m).2.unindented = (stepTimes n m').2.unindented := by
  have hHere := stepTimes_through unseen_unindented n m
  have hThere := stepTimes_through unseen_unindented n m'
  rw [show m.through _ = m'.through _ from h, hThere] at hHere
  exact ⟨(Prod.mk.inj hHere).1.symm, (Prod.mk.inj hHere).2.symm⟩

/-! ### Halting -/

/-- The error that a machine halts with: a failed flush counts if there is no other. -/
def lastError (cause : Option RunError) (m : Machine) : Option RunError :=
  cause <|> m.bench.flush.1.map .flush

/-- The machine when it has halted. -/
def closed (cause : Option RunError) (m : Machine) : Machine :=
  { m with halted := true, bench := m.bench.flush.2.note (farewell m.steps (m.lastError cause)) }

theorem halt_eq {α : Type} (cause : Option RunError) (m : Machine) :
    (halt cause m : EStateM.Result Stop Machine α) =
      .error (.halt (m.lastError cause)) (m.closed cause) := rfl

theorem unindented_closed (cause : Option RunError) (h : m.unindented = m'.unindented) :
    (m.closed cause).unindented = (m'.closed cause).unindented := by
  have hHere := halt_through unseen_unindented cause m
  have hThere := halt_through unseen_unindented cause m'
  rw [show m.through _ = m'.through _ from h, hThere] at hHere
  simp only [halt_eq, mapState] at hHere
  injection hHere with _ hState
  exact hState.symm

/-! ### The steps of a run -/

theorem runSteps_eq (reason : RunError) (n : Nat) (m : Machine) :
    runSteps reason n m = match stepTimes n m with
      | (some stop, m') => (stop, m')
      | (none, m') => (.halt (some reason), m'.closed (some reason)) := by
  induction n generalizing m with
  | zero => rfl
  | succ n ih =>
    unfold runSteps stepTimes
    cases step m with
    | ok u m' => exact ih m'
    | error stop m' => rfl

theorem stepTimes_succ_ok (h : step m = .ok () m') (n : Nat) :
    stepTimes (n + 1) m = stepTimes n m' := by
  simp only [stepTimes, h]

theorem stepTimes_succ_error {stop : Stop} (h : step m = .error stop m') (n : Nat) :
    stepTimes (n + 1) m = (some stop, m') := by
  simp only [stepTimes, h]

theorem stepTimes_succ_none {n : Nat} (h : stepTimes (n + 1) m = (none, m')) :
    ∃ m₁, step m = .ok () m₁ ∧ stepTimes n m₁ = (none, m') := by
  cases hStep : step m with
  | ok u m₁ => exact ⟨m₁, rfl, (stepTimes_succ_ok hStep n).symm.trans h⟩
  | error stop m₁ =>
    rw [stepTimes_succ_error hStep] at h
    cases h

theorem stepTimes_add {k : Nat} (h : stepTimes k m = (none, m')) (n : Nat) :
    stepTimes (k + n) m = stepTimes n m' := by
  induction k generalizing m with
  | zero =>
    cases h
    rw [Nat.zero_add]
  | succ k ih =>
    obtain ⟨m₁, hStep, hRest⟩ := stepTimes_succ_none h
    rw [Nat.succ_add, stepTimes_succ_ok hStep, ih hRest]

theorem stepTimes_stopped {n budget : Nat} {before : Machine} {stop : Stop} (hWithin : n < budget)
    (hReach : stepTimes n m = (none, before)) (hStep : step before = .error stop m') :
    stepTimes budget m = (some stop, m') := by
  obtain ⟨rest, rfl⟩ : ∃ k, budget = n + (k + 1) := ⟨budget - n - 1, by omega⟩
  rw [stepTimes_add hReach, stepTimes_succ_error hStep]

/-! ### What a run emits -/

/-- The values that a machine emits within `n` steps. -/
def told : Nat → Machine → List Int64
  | 0, _ => []
  | n + 1, m => m.emits ++
    match step m with
    | .ok () m' => told n m'
    | .error .. => []

theorem told_succ_ok (h : step m = .ok () m') (n : Nat) :
    m.told (n + 1) = m.emits ++ m'.told n := by
  simp only [told, h]

theorem told_succ_error {stop : Stop} (h : step m = .error stop m') (n : Nat) :
    m.told (n + 1) = m.emits := by
  simp only [told, h, List.append_nil]

theorem told_add {k : Nat} (h : stepTimes k m = (none, m')) (n : Nat) :
    m.told (k + n) = m.told k ++ m'.told n := by
  induction k generalizing m with
  | zero =>
    cases h
    rw [Nat.zero_add]
    rfl
  | succ k ih =>
    obtain ⟨m₁, hStep, hRest⟩ := stepTimes_succ_none h
    rw [Nat.succ_add, told_succ_ok hStep, told_succ_ok hStep, ih hRest, List.append_assoc]

/-- **A longer run emits more of the same.** -/
theorem told_prefix {n k : Nat} (h : n ≤ k) (m : Machine) : m.told n <+: m.told k := by
  induction n generalizing m k with
  | zero => exact List.nil_prefix
  | succ n ih =>
    obtain ⟨k, rfl⟩ : ∃ j, k = j + 1 := ⟨k - 1, by omega⟩
    cases hStep : step m with
    | ok u m' =>
      rw [told_succ_ok hStep, told_succ_ok hStep]
      exact (List.prefix_append_right_inj m.emits).mpr (ih (by omega) m')
    | error stop m' =>
      have hSame : m.told (n + 1) = m.told (k + 1) := by
        rw [told_succ_error hStep, told_succ_error hStep]
      exact hSame ▸ List.prefix_refl _

theorem step_ok_frame (h : step m = .ok () m') :
    m'.halted = m.halted ∧ m'.imageFault = m.imageFault ∧ m'.steps = m.steps + 1 ∧
      Bench.Passed m.emits m.bench m'.bench := by
  have hTurn := step_turn m
  rw [h] at hTurn
  cases hTurn with
  | ok hFrame hPassed _ => exact ⟨hFrame.1, hFrame.2.1, hFrame.2.2, hPassed⟩

/-- **What steps keep and what they pass on.** -/
theorem stepTimes_frame {n : Nat} (h : stepTimes n m = (none, m')) :
    m'.halted = m.halted ∧ m'.imageFault = m.imageFault ∧
      m'.steps = m.steps + UInt64.ofNat n ∧ Bench.Passed (m.told n) m.bench m'.bench := by
  induction n generalizing m with
  | zero =>
    cases h
    exact ⟨rfl, rfl, (UInt64.add_zero _).symm, .nothing rfl rfl⟩
  | succ n ih =>
    obtain ⟨m₁, hStep, hRest⟩ := stepTimes_succ_none h
    obtain ⟨hHalted, hFault, hSteps, hPassed⟩ := step_ok_frame hStep
    obtain ⟨hHalted', hFault', hSteps', hPassed'⟩ := ih hRest
    rw [told_succ_ok hStep]
    refine ⟨hHalted'.trans hHalted, hFault'.trans hFault, ?_, hPassed.trans hPassed'⟩
    rw [hSteps', hSteps, UInt64.ofNat_add, UInt64.add_assoc, UInt64.add_comm 1]
    rfl

/-! ### The end of a run -/

/-- A run of at most `budget` steps comes to its end on the machine `last`, for `cause`. -/
inductive Ends (m : Machine) (reason : RunError) (budget : Nat) : Option RunError → Machine → Prop
  /-- The budget is used up. -/
  | canceled {last : Machine} (hReach : stepTimes budget m = (none, last)) :
      Ends m reason budget (some reason) last
  /-- A step halts. -/
  | stopped {n : Nat} {before last : Machine} {cause : Option RunError} (hWithin : n < budget)
      (hReach : stepTimes n m = (none, before)) (hStep : step before = halt cause last)
      (hClosing : Closing before.emits cause before.bench last.bench)
      (hCause : cause = none ↔ before.atHalt) : Ends m reason budget cause last

theorem Ends.after_step {reason : RunError} {budget : Nat} {cause : Option RunError}
    {last : Machine} (hStep : step m = .ok () m') (h : Ends m' reason budget cause last) :
    Ends m reason (budget + 1) cause last := by
  cases h with
  | canceled hReach => exact .canceled ((stepTimes_succ_ok hStep budget).trans hReach)
  | stopped hWithin hReach hLast hClosing hCause =>
    exact .stopped (Nat.succ_lt_succ hWithin) ((stepTimes_succ_ok hStep _).trans hReach) hLast
      hClosing hCause

/-- **Every run comes to its end and then halts, or it crashes.** -/
theorem runSteps_cases (reason : RunError) (budget : Nat) (m : Machine) :
    (∃ crash m', runSteps reason budget m = (.crash crash, m')) ∨
    ∃ cause last, Ends m reason budget cause last ∧
      runSteps reason budget m = (.halt (last.lastError cause), last.closed cause) := by
  induction budget generalizing m with
  | zero => exact .inr ⟨some reason, m, .canceled rfl, rfl⟩
  | succ budget ih =>
    have hTurn := step_turn m
    generalize hStep : step m = r at hTurn
    unfold runSteps
    rw [hStep]
    cases hTurn with
    | @ok m' hFrame hPassed hGoes =>
      rcases ih m' with hCrash | ⟨cause, last, hEnds, hRun⟩
      · exact .inl hCrash
      · exact .inr ⟨cause, last, hEnds.after_step hStep, hRun⟩
    | @halt cause last hClosing hCause =>
      exact .inr ⟨cause, last, .stopped (Nat.succ_pos _) rfl hStep hClosing hCause, rfl⟩
    | @crash c m' hGoes => exact .inl ⟨c, m', rfl⟩

/-- The sinks have been offered what the run emits when it comes to its end. -/
theorem Ends.sinks {reason : RunError} {budget : Nat} {cause : Option RunError} {last : Machine}
    (h : Ends m reason budget cause last) :
    last.bench.output = m.bench.output ∧ last.bench.devices =
      Bench.tellDevices m.bench.output.outlets (m.told budget) m.bench.devices := by
  cases h with
  | canceled hReach =>
    obtain ⟨-, -, -, hPassed⟩ := stepTimes_frame hReach
    exact ⟨hPassed.output_eq, hPassed.devices_eq⟩
  | @stopped n before last cause hWithin hReach hStep hClosing hCause =>
    obtain ⟨-, -, -, hPassed⟩ := stepTimes_frame hReach
    obtain ⟨rest, rfl⟩ : ∃ k, budget = n + (k + 1) := ⟨budget - n - 1, by omega⟩
    rw [told_add hReach, told_succ_error hStep, Bench.tellDevices_append]
    refine ⟨hClosing.output_eq.trans hPassed.output_eq, ?_⟩
    rw [hClosing.devices_eq, hPassed.devices_eq, hPassed.output_eq]

/-! ### Runs -/

theorem run_eq (h : m.refusal? = none) (patience : Patience) :
    m.run patience =
      endRun (runSteps patience.reason patience.budget (setRunning true m)).1
        (runSteps patience.reason patience.budget (setRunning true m)).2 := by
  simp only [run, runBy, h]
  rfl

theorem run_of_refusal {e : RunError} (h : m.refusal? = some e) (patience : Patience) :
    m.run patience = (some (.plain e), m) := by
  simp only [run, runBy, h]
  rfl

theorem run_stopped {budget : Nat} {stop : Stop} (hReady : m.refusal? = none) (reason : RunError)
    (h : stepTimes budget m = (some stop, m')) :
    (m.run ⟨budget, reason⟩).1 = (Stop.ending stop).recovered "VM" ∧
      (m.run ⟨budget, reason⟩).2.unindented = m'.unindented := by
  -- The run starts from a machine that indents, and the steps do not notice.
  have hSame := stepTimes_unindented budget (unindented_setRunning true m)
  rw [run_eq hReady, runSteps_eq]
  cases hSteps : stepTimes budget (setRunning true m) with
  | mk stop? last =>
    rw [hSteps, h] at hSame
    obtain ⟨rfl, hState⟩ := hSame
    exact ⟨rfl, hState⟩

theorem run_canceled {budget : Nat} (hReady : m.refusal? = none) (reason : RunError)
    (h : stepTimes budget m = (none, m')) :
    (m.run ⟨budget, reason⟩).1 = some (.plain reason) ∧
      (m.run ⟨budget, reason⟩).2.unindented = (m'.closed (some reason)).unindented := by
  have hSame := stepTimes_unindented budget (unindented_setRunning true m)
  rw [run_eq hReady, runSteps_eq]
  cases hSteps : stepTimes budget (setRunning true m) with
  | mk stop? last =>
    rw [hSteps, h] at hSame
    obtain ⟨rfl, hState⟩ := hSame
    exact ⟨rfl, unindented_closed (some reason) hState⟩

/-- A machine that can run can still do so after steps. -/
theorem refusal?_stepTimes {n : Nat} (hReady : m.refusal? = none)
    (h : stepTimes n m = (none, m')) : m'.refusal? = none := by
  obtain ⟨hHalted, hFault, -, -⟩ := stepTimes_frame h
  unfold refusal? at hReady ⊢
  rw [hFault, hHalted]
  exact hReady

/-- **A run can be cut between any two steps.** -/
theorem run_after_steps {k budget : Nat} (hReady : m.refusal? = none) (reason : RunError)
    (hk : k ≤ budget) (h : stepTimes k m = (none, m')) :
    (m'.run ⟨budget - k, reason⟩).1 = (m.run ⟨budget, reason⟩).1 ∧
      (m'.run ⟨budget - k, reason⟩).2.unindented = (m.run ⟨budget, reason⟩).2.unindented := by
  have hReady' := refusal?_stepTimes hReady h
  have hRest := stepTimes_add h (budget - k)
  rw [Nat.add_sub_cancel' hk] at hRest
  cases hEnd : stepTimes (budget - k) m' with
  | mk stop? last =>
    rw [hEnd] at hRest
    cases stop? with
    | none =>
      obtain ⟨hResult, hState⟩ := run_canceled hReady reason hRest
      obtain ⟨hResult', hState'⟩ := run_canceled hReady' reason hEnd
      exact ⟨hResult'.trans hResult.symm, hState'.trans hState.symm⟩
    | some stop =>
      obtain ⟨hResult, hState⟩ := run_stopped hReady reason hRest
      obtain ⟨hResult', hState'⟩ := run_stopped hReady' reason hEnd
      exact ⟨hResult'.trans hResult.symm, hState'.trans hState.symm⟩

theorem closing_atHalt (h : m.atHalt) :
    ∃ last, step m = halt none last ∧ Closing m.emits none m.bench last.bench := by
  have hTurn := step_turn m
  generalize step m = r at hTurn
  cases hTurn with
  | ok hFrame hPassed hGoes => exact absurd h hGoes
  | crash hGoes => exact absurd h hGoes
  | @halt cause last hClosing hCause =>
    obtain rfl := hCause.mpr h
    exact ⟨last, rfl, hClosing⟩

/-- The halt instruction emits nothing. -/
theorem emits_atHalt (h : m.atHalt) : m.emits = [] := by
  obtain ⟨last, -, hClosing⟩ := closing_atHalt h
  exact hClosing.eq_nil

/-- A step of the halt instruction halts, and only the flush can fail. -/
theorem step_atHalt (h : m.atHalt) :
    ∃ m', step m = .error (.halt (m.bench.flush.1.map .flush)) m' := by
  obtain ⟨last, hStep, hClosing⟩ := closing_atHalt h
  have hFlush : last.bench.flush.1 = m.bench.flush.1 := by
    have hDevices := hClosing.devices_eq
    rw [emits_atHalt h] at hDevices
    simp only [Bench.flush, Bench.flushAll_devices, hClosing.output_eq, hDevices]
    rfl
  refine ⟨last.closed none, hStep.trans ((halt_eq none last).trans ?_)⟩
  rw [lastError, hFlush]
  rfl

/-- **A run that does not crash comes to its end and then halts.** -/
theorem run_ends {budget : Nat} (hReady : m.refusal? = none) (reason : RunError)
    (hSafe : ∀ crash m', stepTimes budget m ≠ (some (.crash crash), m')) :
    ∃ cause last, Ends m reason budget cause last ∧
      (m.run ⟨budget, reason⟩).1 = (last.lastError cause).map .plain ∧
      (m.run ⟨budget, reason⟩).2.unindented = (last.closed cause).unindented := by
  rcases runSteps_cases reason budget m with ⟨crash, m', hRun⟩ | ⟨cause, last, hEnds, -⟩
  · rw [runSteps_eq] at hRun
    cases hSteps : stepTimes budget m with
    | mk stop? last =>
      rw [hSteps] at hRun
      cases stop? with
      | none => cases hRun
      | some stop =>
        cases hRun
        exact absurd hSteps (hSafe crash m')
  · refine ⟨cause, last, hEnds, ?_⟩
    cases hEnds with
    | canceled hReach => exact run_canceled hReady reason hReach
    | @stopped n before last cause hWithin hReach hStep hClosing hCause =>
      have hStopped := stepTimes_stopped hWithin hReach (hStep.trans (halt_eq cause last))
      obtain ⟨hResult, hState⟩ := run_stopped hReady reason hStopped
      refine ⟨hResult.trans ?_, hState⟩
      cases last.lastError cause <;> rfl

/-- The devices after a run, if it did not crash: they took what was emitted and were flushed. -/
theorem run_devices {budget : Nat} (hReady : m.refusal? = none) (reason : RunError)
    (hSafe : ∀ crash m', stepTimes budget m ≠ (some (.crash crash), m')) :
    (m.run ⟨budget, reason⟩).2.bench.devices = (Bench.flushDevices m.bench.output.outlets
      (Bench.tellDevices m.bench.output.outlets (m.told budget) m.bench.devices)).2 := by
  obtain ⟨cause, last, hEnds, -, hState⟩ := run_ends hReady reason hSafe
  obtain ⟨hOutput, hDevices⟩ := hEnds.sinks
  have hClosed : (m.run ⟨budget, reason⟩).2.bench.devices = last.bench.flush.2.devices :=
    congrArg (·.bench.devices) hState
  rw [hClosed, Bench.flush, Bench.flushAll_devices, hOutput, hDevices]

/-- **A run is a number of steps.**  If the machine stops within the budget, the run gives the error
of that stop and leaves the machine as that step did.  Else the run is cut between two steps, and
the machine is halted there.  So it does not matter how many of the steps are made before the run,
and a longer run emits more of the same. -/
theorem run_is_iterated_step (m : Machine) (budget : Nat) (reason : RunError)
    (hReady : m.refusal? = none) :
    let out := m.run ⟨budget, reason⟩
    (∀ stop m', stepTimes budget m = (some stop, m') →
      out.1 = (match stop with
        | .halt error => error.map .plain
        | .crash crash => some (.crashedOn "VM" crash.message)) ∧
      out.2.unindented = m'.unindented) ∧
    (∀ n before, n < budget → stepTimes n m = (none, before) → before.atHalt →
      out.1 = before.bench.flush.1.map fun e => .plain (.flush e)) ∧
    (∀ m', stepTimes budget m = (none, m') →
      out.1 = some (.plain reason) ∧ out.2.halted = true ∧
      out.2.steps = m.steps + UInt64.ofNat budget ∧ out.2.memory = m'.memory ∧
      out.2.ip = m'.ip ∧ out.2.base = m'.base ∧ out.2.current = m'.current ∧
      out.2.bench.input = m'.bench.input ∧ out.2.bench.devices = m'.bench.flush.2.devices ∧
      out.2.unindented = (m'.closed (some reason)).unindented) ∧
    (∀ k m', k ≤ budget → stepTimes k m = (none, m') →
      (m'.run ⟨budget - k, reason⟩).1 = out.1 ∧
      (m'.run ⟨budget - k, reason⟩).2.unindented = out.2.unindented) ∧
    (∀ longer, budget ≤ longer → m.told budget <+: m.told longer) ∧
    ((∀ crash m', stepTimes budget m ≠ (some (.crash crash), m')) →
      out.2.bench.devices = (Bench.flushDevices m.bench.output.outlets
        (Bench.tellDevices m.bench.output.outlets (m.told budget) m.bench.devices)).2) := by
  intro out
  refine ⟨fun stop m' hSteps => ?_, fun n before hn hReach hHalt => ?_, fun m' hSteps => ?_,
    fun k m' hk hSteps => run_after_steps hReady reason hk hSteps,
    fun longer hLonger => told_prefix hLonger m, run_devices hReady reason⟩
  · obtain ⟨hResult, hState⟩ := run_stopped hReady reason hSteps
    refine ⟨hResult.trans ?_, hState⟩
    cases stop <;> rfl
  · obtain ⟨m', hStep⟩ := step_atHalt hHalt
    refine (run_stopped hReady reason (stepTimes_stopped hn hReach hStep)).1.trans ?_
    cases before.bench.flush.1 <;> rfl
  · obtain ⟨hResult, hState⟩ := run_canceled hReady reason hSteps
    obtain ⟨-, -, hCount, -⟩ := stepTimes_frame hSteps
    -- All but the journal can be read off the machine without its indentation.
    have hPart : ∀ {γ : Type} (part : Machine → γ), (∀ n : Machine, part n.unindented = part n) →
        part out.2 = part (m'.closed (some reason)) := by
      intro γ part hSame
      rw [← hSame, ← hSame (m'.closed (some reason)), hState]
    refine ⟨hResult, hPart halted fun _ => rfl, (hPart steps fun _ => rfl).trans hCount,
      hPart memory fun _ => rfl, hPart ip fun _ => rfl, hPart base fun _ => rfl,
      hPart current fun _ => rfl, (hPart (·.bench.input) fun _ => rfl).trans ?_,
      hPart (·.bench.devices) fun _ => rfl, hState⟩
    simp only [closed, Bench.flush, Bench.flushAll_devices]
    rfl

/-- A program that emits 7 for ever, cut after five steps, with two of them made before the run. -/
theorem run_is_iterated_step_endless :
    let m : Machine :=
      { memory := { pageSize := 8, extents := #[⟨0, 8⟩],
                    blocks := #[#[104, 7, 1106, 0, 0, 0, 0, 0]] },
        bench := { output := .several [.socket 0, .socket 1],
                   devices := #[.tape #[], .gauge #[] none 0 false] } }
    let m' := (stepTimes 2 m).2
    m.refusal? = none ∧ m.told 5 = [7, 7, 7] ∧
      (m.run ⟨5, .canceled⟩).1 = some (.plain .canceled) ∧
      (m.run ⟨5, .canceled⟩).2.steps = m.steps + UInt64.ofNat 5 ∧
      (m'.run ⟨3, .canceled⟩).2.unindented = (m.run ⟨5, .canceled⟩).2.unindented := by
  intro m m'
  have hReady : m.refusal? = none := by decide
  have hFive : stepTimes 5 m = (none, (stepTimes 5 m).2) :=
    Prod.ext (show (stepTimes 5 m).1 = none by decide +kernel) rfl
  have hTwo : stepTimes 2 m = (none, m') :=
    Prod.ext (show (stepTimes 2 m).1 = none by decide +kernel) rfl
  obtain ⟨-, -, hCut, hSplit, -⟩ := run_is_iterated_step m 5 .canceled hReady
  obtain ⟨hResult, -, hSteps, -⟩ := hCut _ hFive
  exact ⟨hReady, by decide +kernel, hResult, hSteps, (hSplit 2 m' (by decide) hTwo).2⟩

end Machine

end HullRobot
