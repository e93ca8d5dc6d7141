import HullRobot.Proofs.Machine.Runs

/-!
# Tracing is not noticed

A bench is silenced when its journal is thrown away and its robot is no longer traced.  Everything
that a machine does to a bench it does to the silenced bench as well, with the same result.  So
machines that are the same but for tracing stay so.

* `Device.take_silenced`, `Device.flush_silenced`: a device does the same without its trace.
* `Bench.unseen_silenced`: **silence is unseen.**
* `exchange_through`, `call_through`: what passes between a machine and its bench does not depend on
  changes that are unseen.  `calls_through`, `run_through`: neither do sequences of steps and runs.
* `setUpAll_silenced`: setups with and without tracing make machines that differ in tracing only.
-/

namespace HullRobot

/-! ### Devices -/

namespace Device

/-- The device without its trace. -/
def silenced : Device → Device
  | .robot r _ => .robot r false
  | d => d

theorem take_silenced (v : Int64) (d : Device) :
    d.silenced.take v = match d.take v with
      | .ok _ d' => .ok none d'.silenced
      | .error e d' => .error e d'.silenced := by
  cases d with
  | tape values => rfl
  | robot r traced => rfl
  | gauge values room flushes fails => rcases room with _ | _ | room <;> rfl
  | printer channel =>
    simp only [silenced, take]
    cases channel.writeValue v <;> rfl

theorem flush_silenced (d : Device) : d.silenced.flush = mapState silenced d.flush := by
  cases d with
  | tape values => rfl
  | robot r traced => rfl
  | gauge values room flushes fails => cases fails <;> rfl
  | printer channel =>
    simp only [silenced, flush]
    cases channel.flush <;> rfl

end Device

/-! ### Benches -/

namespace Bench

/-- The bench without a journal and without traces. -/
def silenced (b : Bench) : Bench :=
  { b with devices := b.devices.map Device.silenced, journal := {} }

theorem detach?_silenced (devices : Array Device) (socket : Socket) :
    detach? (devices.map Device.silenced) socket =
      (detach? devices socket).map fun p => (p.1.silenced, p.2.map Device.silenced) := by
  rw [detach?_eq, detach?_eq, Array.getElem?_map, Option.map_map, Option.map_map]
  refine congrArg (Option.map · _) (funext fun d => ?_)
  show (_, _) = (_, _)
  rw [Array.map_setIfInBounds]
  rfl

theorem read_silenced (b : Bench) : b.silenced.read = mapState silenced b.read := by
  obtain ⟨input, output, devices, journal⟩ := b
  cases input with
  | absent => rfl
  | constant v => rfl
  | queue values => cases values <;> rfl
  | camera socket =>
    simp only [read, silenced, Array.getElem?_map]
    cases devices[socket]? with
    | none => rfl
    | some d => cases d <;> rfl

theorem offer_silenced (v : Int64) (o : Outlet) (b : Bench) :
    offer v o b.silenced = mapState silenced (offer v o b) := by
  obtain ⟨input, output, devices, journal⟩ := b
  cases o with
  | drain => rfl
  | socket socket =>
    simp only [offer, silenced, detach?_silenced]
    cases detach? devices socket with
    | none => rfl
    | some p =>
      obtain ⟨d, rest⟩ := p
      simp only [Option.map_some, Device.take_silenced]
      cases d.take v with
      | error e d' => simp only [mapState, silenced, Array.map_setIfInBounds]
      | ok event d' => cases event <;> simp only [mapState, silenced, Array.map_setIfInBounds]

theorem offerAll_silenced (v : Int64) (outlets : List Outlet) (b : Bench) :
    offerAll v outlets b.silenced = mapState silenced (offerAll v outlets b) := by
  induction outlets generalizing b with
  | nil => rfl
  | cons o rest ih =>
    unfold offerAll
    rw [offer_silenced]
    cases offer v o b with
    | ok u b' => exact ih b'
    | error e b' => rfl

theorem emit_silenced (v : Int64) (b : Bench) :
    b.silenced.emit v = mapState silenced (b.emit v) := by
  by_cases hAbsent : b.output = .absent
  · obtain ⟨input, output, devices, journal⟩ := b
    cases hAbsent
    rfl
  · have hSame : b.silenced.output = b.output := rfl
    rw [emit_wired v hAbsent, emit_wired v (hSame ▸ hAbsent), hSame, offerAll_silenced]
    cases offerAll v b.output.outlets b <;> rfl

theorem flushOutlet_silenced (o : Outlet) (b : Bench) :
    flushOutlet o b.silenced = mapState silenced (flushOutlet o b) := by
  obtain ⟨input, output, devices, journal⟩ := b
  cases o with
  | drain => rfl
  | socket socket =>
    simp only [flushOutlet, silenced, detach?_silenced]
    cases detach? devices socket with
    | none => rfl
    | some p =>
      obtain ⟨d, rest⟩ := p
      simp only [Option.map_some, Device.flush_silenced]
      cases d.flush <;> simp only [mapState, silenced, Array.map_setIfInBounds]

theorem flushAll_silenced (outlets : List Outlet) (b : Bench) :
    flushAll outlets b.silenced = ((flushAll outlets b).1, (flushAll outlets b).2.silenced) := by
  induction outlets generalizing b with
  | nil => rfl
  | cons o rest ih =>
    unfold flushAll
    rw [flushOutlet_silenced]
    cases flushOutlet o b with
    | ok u b' => exact ih b'
    | error e b' => simp only [mapState, ih]

/-- **Silence is unseen.** -/
theorem unseen_silenced : Unseen silenced where
  note _ _ := rfl
  read := read_silenced
  emit := emit_silenced
  flush b := flushAll_silenced b.output.outlets b

theorem robot?_silenced (b : Bench) : b.silenced.robot? = b.robot? := by
  unfold robot? silenced
  rw [Array.toList_map, ← List.map_reverse, List.findSome?_map]
  refine congrArg (List.findSome? · _) (funext fun d => ?_)
  cases d <;> rfl

end Bench

namespace Machine

variable {m m' : Machine}

/-! ### Unseen changes -/

section

variable {f : Bench → Bench} (hf : Bench.Unseen f)
include hf

theorem answer_through (b : Bench) : (f b).answer = b.answer := by
  unfold Bench.answer
  rw [hf.read]
  cases b.read <;> rfl

theorem exchange_through (m : Machine) : (m.through f).exchange = m.exchange := by
  obtain ⟨course, -, -, hCourse⟩ := step_course m
  have hHere := (hCourse m.bench).2
  have hThere := (hCourse (f m.bench)).2
  rw [onto_bench] at hHere
  rw [hHere]
  refine hThere.trans ?_
  cases course with
  | lost setback => rfl
  | wrecked crash => rfl
  | works ins verdict =>
    cases verdict with
    | halts setback ip => rfl
    | crashes crash ip => rfl
    | done effect ip =>
      cases effect <;> simp only [Course.exchange, Verdict.exchange, FlatMachine.Effect.exchange,
        answer_through hf]

theorem call_through (m : Machine) :
    call (m.through f) = ((call m).1.through f, (call m).2) := by
  unfold call
  rw [stepTimes_through hf, exchange_through hf]

theorem repeated_through (n : Nat) (m : Machine) :
    repeated call n (m.through f) = ((repeated call n m).1, (repeated call n m).2.through f) := by
  induction n generalizing m with
  | zero => rfl
  | succ n ih => simp only [repeated, call_through hf, ih]

/-- **Machines that differ in an unseen change make the same calls.** -/
theorem calls_through (h : m.through f = m'.through f) (n : Nat) :
    (repeated call n m).1 = (repeated call n m').1 ∧
      (repeated call n m).2.through f = (repeated call n m').2.through f := by
  have hSame := repeated_through hf n m
  rw [h, repeated_through hf n m'] at hSame
  exact ⟨(congrArg Prod.fst hSame).symm, (congrArg Prod.snd hSame).symm⟩

theorem runSteps_through (reason : RunError) (n : Nat) (m : Machine) :
    runSteps reason n (m.through f) =
      ((runSteps reason n m).1, (runSteps reason n m).2.through f) := by
  induction n generalizing m with
  | zero =>
    unfold runSteps
    rw [halt_through hf]
    rfl
  | succ n ih =>
    unfold runSteps
    rw [step_through hf]
    cases step m with
    | ok u m' => exact ih m'
    | error stop m' => rfl

/-- **Machines that differ in an unseen change make the same runs**, if the change hides whether a
run is on. -/
theorem run_through (hRunning : ∀ running m, (setRunning running m).through f = m.through f)
    (h : m.through f = m'.through f) (patience : Patience) :
    (m.run patience).1 = (m'.run patience).1 ∧
      (m.run patience).2.through f = (m'.run patience).2.through f := by
  have hRefusal : m.refusal? = m'.refusal? :=
    show (m.through f).refusal? = (m'.through f).refusal? from congrArg refusal? h
  cases hReady : m.refusal? with
  | some e =>
    rw [run_of_refusal hReady, run_of_refusal (hRefusal ▸ hReady)]
    exact ⟨rfl, h⟩
  | none =>
    have hStart : (setRunning true m).through f = (setRunning true m').through f := by
      rw [hRunning, hRunning, h]
    have hHere := runSteps_through hf patience.reason patience.budget (setRunning true m)
    have hThere := runSteps_through hf patience.reason patience.budget (setRunning true m')
    rw [hStart, hThere] at hHere
    obtain ⟨hStop, hState⟩ := Prod.mk.inj hHere
    rw [run_eq hReady, run_eq (hRefusal ▸ hReady), ← hStop]
    refine ⟨rfl, ?_⟩
    simp only [endRun, hRunning, hState]

end

/-! ### Silence -/

/-- The machine without a journal and without traces. -/
def silenced (m : Machine) : Machine := m.through Bench.silenced

theorem silenced_setRunning (running : Bool) (m : Machine) :
    (setRunning running m).silenced = m.silenced := rfl

/-- Two machines are alike if they differ in their journals and in the tracing of robots only. -/
structure Alike (m m' : Machine) : Prop where
  memory : m.memory = m'.memory
  ip : m.ip = m'.ip
  base : m.base = m'.base
  current : m.current = m'.current
  steps : m.steps = m'.steps
  halted : m.halted = m'.halted
  imageFault : m.imageFault = m'.imageFault
  input : m.bench.input = m'.bench.input
  output : m.bench.output = m'.bench.output
  devices : m.bench.devices.map Device.silenced = m'.bench.devices.map Device.silenced

theorem alike_iff : m.Alike m' ↔ m.silenced = m'.silenced := by
  obtain ⟨memory, ip, base, current, steps, halted, imageFault, input, output, devices,
    journal⟩ := m
  obtain ⟨memory', ip', base', current', steps', halted', imageFault', input', output', devices',
    journal'⟩ := m'
  constructor
  · intro h
    obtain ⟨rfl, rfl, rfl, rfl, rfl, rfl, rfl, rfl, rfl, hDevices⟩ := h
    simp only [silenced, through, onto, Bench.silenced, hDevices]
  · intro h
    injection h with hMemory hIp hBase hCurrent hSteps hHalted hFault hBench
    injection hBench with hInput hOutput hDevices
    exact ⟨hMemory, hIp, hBase, hCurrent, hSteps, hHalted, hFault, hInput, hOutput, hDevices⟩

/-- What is left of a setup without tracing. -/
def Setup.silenced? : Setup → Option Setup
  | .journal => none
  | .attach device => some (.attach device.silenced)
  | s => some s

/-- Setups without tracing. -/
def untraced (setups : List Setup) : List Setup := setups.filterMap Setup.silenced?

theorem setUp_silenced {s s' : Setup} (h : s.silenced? = some s') (m : Machine) :
    m.silenced.setUp s' = mapState silenced (m.setUp s) := by
  cases s with
  | journal => cases h
  | attach device =>
    cases h
    simp only [setUp, silenced, through, onto, Bench.attach, Bench.silenced, mapState,
      Array.map_push]
  | output output =>
    cases h
    simp only [setUp, silenced, through, onto, Bench.unseen_silenced.flush, mapState]
    rfl
  | image cells =>
    cases h
    simp only [setUp, show m.silenced.memory = m.memory from rfl]
    cases m.memory.reset.store 0 cells with
    | ok u memory => rfl
    | error e memory => cases e <;> rfl
  | store address cells =>
    cases h
    simp only [setUp, show m.silenced.memory = m.memory from rfl]
    cases m.memory.store address cells with
    | ok u memory => rfl
    | error e memory => cases e <;> rfl
  | memoryLimit limit => cases h; rfl
  | pageSize size => cases h; rfl
  | input input => cases h; rfl
  | tee output => cases h; rfl
  | ip address => cases h; rfl
  | base base => cases h; rfl

/-- **Setups make the same machine with and without tracing**, but for the tracing. -/
theorem setUpAll_silenced (m : Machine) (setups : List Setup) :
    m.silenced.setUpAll (untraced setups) = mapState silenced (m.setUpAll setups) := by
  induction setups generalizing m with
  | nil => rfl
  | cons s rest ih =>
    unfold untraced
    cases hFirst : s.silenced? with
    | none =>
      rw [List.filterMap_cons_none hFirst]
      cases s with
      | journal =>
        exact ih { m with
          bench := { m.bench with journal := { m.bench.journal with kept := true } } }
      | _ => cases hFirst
    | some s' =>
      rw [List.filterMap_cons_some hFirst]
      unfold setUpAll
      rw [setUp_silenced hFirst]
      cases m.setUp s with
      | ok u m₁ => exact ih m₁
      | error crash m₁ => rfl

end Machine

end HullRobot
