import HullRobot.Proofs.Memory.Frame
import HullRobot.Proofs.Machine.Faults

/-!
# What can crash a machine

A machine whose memory is sound crashes only if a page cannot be made, or if it has no input or no
output.  Everything else that can go wrong in a step halts it.

* `Memory.Sound`: the directory of a memory and its blocks belong together, in any order and with
  any page sizes.  `Bench.Wired`: there is an input and an output.
* `Sturdy x`: from a sound memory the action `x` ends in a sound memory, and it crashes for no other
  reason.  `Sturdy.bind`: this carries over to actions that are made of others.
* `step_sturdy`, `stepTimes_endures`, `run_endures`: **steps and runs are sturdy.**
* `Reached`: what can be made of a machine as long as pages can be made.  `Reached.sound`: its
  memory is sound.
-/

namespace HullRobot

/-! ### Sound memory -/

namespace Memory

/-- The directory and the blocks are those of a list of pages. -/
def Sound (m : Memory) : Prop := ∃ pages, Built m pages

variable {m : Memory}

theorem sound_blank (pageSize limit : Int64) : Sound { pageSize, limit } :=
  ⟨[], rfl, by simp [Laid]⟩

theorem Sound.resized (h : m.Sound) (pageSize limit : Int64) :
    Sound { m with pageSize, limit } := by
  obtain ⟨pages, hBuilt⟩ := h
  refine ⟨pages, ?_, hBuilt.laid⟩
  rw [hBuilt.eq_build]
  rfl

theorem Sound.load_ne_crash (h : m.Sound) (a : Int64) (c : Crash) :
    m.load a ≠ .error (.crash c) := by
  obtain ⟨pages, hBuilt⟩ := h
  rw [hBuilt.eq_build, load_build]
  cases checkRange m.limit .load a 1 <;> nofun

/-- **What becomes of a store into a sound memory.** -/
theorem Sound.store_cases (h : m.Sound) (address : Int64) (values : List Int64) :
    (∃ m', m.store address values = .ok () m' ∧ m'.Sound) ∨
    (∃ f, m.store address values = .error (.fault f) m) ∨
    ∃ m', m.store address values = .error (.crash .allocation) m' := by
  obtain ⟨pages, hBuilt⟩ := h
  cases hMade : madePages (m.store address values) with
  | true =>
    rcases hBuilt.store_cases hMade with rfl | hRefused | ⟨-, -, result, hWalk, hStore⟩
    · exact .inl ⟨m, store_nil m address, pages, hBuilt⟩
    · exact .inr (.inl hRefused)
    · exact .inl ⟨_, hStore, _, rfl, hWalk.laid hBuilt.laid⟩
  | false =>
    unfold madePages at hMade
    split at hMade
    · rename_i m' hCrash
      exact .inr (.inr ⟨m', hCrash⟩)
    · cases hMade

end Memory

/-! ### Wired benches -/

/-- The device is a robot. -/
def Device.isRobot : Device → Bool
  | .robot .. => true
  | _ => false

theorem Device.isRobot_offered (d : Device) (v : Int64) : (d.offered v).isRobot = d.isRobot := by
  unfold offered take
  cases d with
  | tape values => rfl
  | robot r traced => rfl
  | gauge values room flushes fails => rcases room with _ | _ | room <;> rfl
  | printer channel =>
    simp only
    cases channel.writeValue v <;> rfl

theorem Device.isRobot_flushed (d : Device) : d.flushed.isRobot = d.isRobot := by
  unfold flushed flush
  cases d with
  | tape values => rfl
  | robot r traced => rfl
  | gauge values room flushes fails => cases fails <;> rfl
  | printer channel =>
    simp only
    cases channel.flush <;> rfl

namespace Bench

/-- What a device keeps is kept when it is put back in its place. -/
theorem map_put {β : Type} (f : Device → β) {devices : Array Device} {d d' : Device} {o : Outlet}
    (hSink : o.sink? devices = some d) (h : f d' = f d) :
    (o.put devices d').map f = devices.map f := by
  cases o with
  | drain => cases hSink
  | socket socket =>
    refine Array.ext_getElem? fun i => ?_
    rw [Outlet.put, Array.getElem?_map, Array.getElem?_map, Array.getElem?_setIfInBounds]
    by_cases hi : socket = i
    · subst hi
      rw [Outlet.sink?] at hSink
      rw [if_pos rfl, hSink, if_pos (Array.getElem?_eq_some_iff.mp hSink).1, Option.map_some,
        Option.map_some, h]
    · rw [if_neg hi]

theorem map_offerDevices {β : Type} {f : Device → β} {v : Int64}
    (h : ∀ d, f (d.offered v) = f d) (outlets : List Outlet) (devices : Array Device) :
    (offerDevices v outlets devices).2.map f = devices.map f := by
  fun_induction offerDevices v outlets devices with
  | case1 => rfl
  | case2 o rest devices hSink ih => exact ih
  | case3 o rest devices d hSink hRefusal ih => exact ih.trans (map_put f hSink (h d))
  | case4 o rest devices d hSink e hRefusal => exact map_put f hSink (h d)

theorem map_flushDevices {β : Type} {f : Device → β} (h : ∀ d, f d.flushed = f d)
    (outlets : List Outlet) (devices : Array Device) :
    (flushDevices outlets devices).2.map f = devices.map f := by
  fun_induction flushDevices outlets devices with
  | case1 => rfl
  | case2 o rest devices hSink ih => exact ih
  | case3 o rest devices d hSink ih => exact ih.trans (map_put f hSink (h d))

/-- There is an input and an output.  A camera belongs to a robot. -/
structure Wired (b : Bench) : Prop where
  input : b.input ≠ .absent
  camera : ∀ socket, b.input = .camera socket → (b.devices.map Device.isRobot)[socket]? = some true
  output : b.output ≠ .absent

variable {b b' : Bench}

theorem Wired.of_same (h : b.Wired) (hInput : b'.input = b.input) (hOutput : b'.output = b.output)
    (hDevices : b'.devices.map Device.isRobot = b.devices.map Device.isRobot) : b'.Wired := by
  refine ⟨hInput ▸ h.input, fun socket hCamera => ?_, hOutput ▸ h.output⟩
  rw [hDevices]
  exact h.camera socket (hInput ▸ hCamera)

theorem Wired.note (h : b.Wired) (entry : Entry) : (b.note entry).Wired := h.of_same rfl rfl rfl

theorem Wired.flush (h : b.Wired) : b.flush.2.Wired := by
  rw [Bench.flush, flushAll_devices]
  exact h.of_same rfl rfl (map_flushDevices Device.isRobot_flushed _ _)

theorem Wired.read {v : Int64} (h : b.Wired) (hRead : b.read = .ok v b') : b'.Wired := by
  have hSame : b'.output = b.output ∧ b'.devices = b.devices := by
    rcases b.read_same with ⟨_, _, hOk, hSame⟩ | ⟨_, _, hError, -⟩
    · rw [hRead] at hOk
      cases hOk
      exact hSame
    · rw [hRead] at hError
      cases hError
  rcases read_input hRead with hInput | ⟨rest, -, hQueue⟩
  · exact h.of_same hInput hSame.1 (congrArg _ hSame.2)
  · refine ⟨by rw [hQueue]; nofun, fun socket hCamera => ?_, hSame.1 ▸ h.output⟩
    rw [hQueue] at hCamera
    cases hCamera

/-- Only a bench that is not wired makes a read crash. -/
theorem not_wired_of_read_crash {c : Crash} (hRead : b.read = .error (.crash c) b') :
    c = .unwired ∧ ¬b.Wired := by
  obtain ⟨hCrash, hAbsent | ⟨socket, hCamera, hNoRobot⟩⟩ := read_crash hRead
  · exact ⟨hCrash, fun h => h.input hAbsent⟩
  · refine ⟨hCrash, fun h => ?_⟩
    have hRobot := h.camera socket hCamera
    rw [Array.getElem?_map, Option.map_eq_some_iff] at hRobot
    obtain ⟨d, hDevice, hKind⟩ := hRobot
    cases d with
    | robot r traced => exact hNoRobot r traced hDevice
    | tape values => cases hKind
    | printer channel => cases hKind
    | gauge values room flushes fails => cases hKind

/-- An emitted value leaves the wiring as it is. -/
theorem emit_wiring (v : Int64) (h : b.output ≠ .absent) :
    ∃ e? b', b.emit v = result (Option.map Error.io e?) b' ∧ (b.Wired → b'.Wired) := by
  obtain ⟨journal, hEmit⟩ := emit_devices v h
  exact ⟨_, _, hEmit, fun hWired =>
    hWired.of_same rfl rfl (map_offerDevices (fun d => d.isRobot_offered v) _ _)⟩

end Bench

/-! ### Sturdy actions -/

namespace Machine

variable {α β : Type} {m m' m'' : Machine} {stop : Option Stop}

/-- What `m'` has when `m` went on to it. -/
structure Upheld (m m' : Machine) : Prop where
  sound : m'.memory.Sound
  wired : m.bench.Wired → m'.bench.Wired
  imageFault_eq : m'.imageFault = m.imageFault

theorem Upheld.trans (h : Upheld m m') (h' : Upheld m' m'') : Upheld m m'' :=
  ⟨h'.sound, fun hWired => h'.wired (h.wired hWired), h'.imageFault_eq.trans h.imageFault_eq⟩

/-- How `m` may end at `m'`: it goes on or halts in good order, or it crashes because a page cannot
be made, or because it is not wired. -/
def Endures (m : Machine) : Option Stop → Machine → Prop
  | none, m' => Upheld m m'
  | some (.halt _), m' => Upheld m m' ∧ m'.halted = true
  -- A page that could not be made stays in the directory, so then nothing is said of the memory.
  | some (.crash c), m' => c = .allocation ∨ c = .unwired ∧ ¬m.bench.Wired ∧ m'.memory.Sound

theorem Upheld.endures (h : Upheld m m') (h' : Endures m' stop m'') : Endures m stop m'' := by
  cases stop with
  | none => exact h.trans h'
  | some stop =>
    cases stop with
    | halt error => exact ⟨h.trans h'.1, h'.2⟩
    | crash c =>
      exact h'.imp_right fun ⟨hCrash, hOpen, hSound⟩ =>
        ⟨hCrash, fun hWired => hOpen (h.wired hWired), hSound⟩

/-- From a sound memory the action ends in good order. -/
def Sturdy (x : Action α) : Prop :=
  ∀ m : Machine, m.memory.Sound → match x m with
    | .ok _ m' => Endures m none m'
    | .error stop m' => Endures m (some stop) m'

theorem Sturdy.pure (a : α) : Sturdy (pure a) := fun _ hSound => ⟨hSound, id, rfl⟩

theorem Sturdy.bind {x : Action α} {f : α → Action β} (hx : Sturdy x) (hf : ∀ a, Sturdy (f a)) :
    Sturdy (x >>= f) := by
  intro m hSound
  have hFirst := hx m hSound
  simp only [Bind.bind, EStateM.bind]
  cases hRun : x m with
  | error stop m' =>
    rw [hRun] at hFirst
    exact hFirst
  | ok a m' =>
    rw [hRun] at hFirst
    have hUpheld : Upheld m m' := hFirst
    have hNext := hf a m' hUpheld.sound
    simp only
    cases hRest : f a m' with
    | ok b m'' =>
      rw [hRest] at hNext
      exact hUpheld.endures hNext
    | error stop m'' =>
      rw [hRest] at hNext
      exact hUpheld.endures hNext

theorem Sturdy.get {f : Machine → Action β} (hf : ∀ m, Sturdy (f m)) :
    Sturdy (MonadState.get >>= f) := by
  intro m hSound
  rw [get_bind]
  exact hf m m hSound

theorem Sturdy.modify {g : Machine → Machine}
    (hg : ∀ m : Machine, m.memory.Sound → Upheld m (g m)) : Sturdy (modify g) := hg

theorem Upheld.closed (h : Upheld m m') (cause e : Option RunError) :
    Endures m (some (.halt e)) (m'.closed cause) :=
  ⟨h.trans ⟨h.sound, fun hWired => hWired.flush.note _, rfl⟩, rfl⟩

theorem halt_sturdy (cause : Option RunError) : Sturdy (halt cause : Action α) :=
  fun _ hSound => Upheld.closed ⟨hSound, id, rfl⟩ cause _

theorem load_sturdy (address : Int64) : Sturdy (load address) := by
  intro m hSound
  rw [load_eq]
  cases hLoad : m.memory.load address with
  | ok v => exact ⟨hSound, id, rfl⟩
  | error e =>
    cases e with
    | fault f => exact Upheld.closed ⟨hSound, id, rfl⟩ _ _
    | crash c => exact absurd hLoad (hSound.load_ne_crash address c)

theorem store_sturdy (address v : Int64) : Sturdy (store address v) := by
  intro m hSound
  rw [store_eq]
  rcases hSound.store_cases address [v] with ⟨memory, hStore, hNew⟩ | ⟨f, hStore⟩ | ⟨memory, hStore⟩
  · rw [hStore]
    exact ⟨hNew, fun hWired => hWired.note _, rfl⟩
  · rw [hStore]
    exact Upheld.closed ⟨hSound, id, rfl⟩ _ _
  · rw [hStore]
    exact .inl rfl

theorem read_eq (m : Machine) :
    read m = match m.bench.read with
      | .ok v b => .ok v (m.onto b)
      | .error (.io e) b => halt (some (.exec m.current (.input e))) (m.onto b)
      | .error (.crash c) b => .error (.crash c) (m.onto b) := by
  obtain ⟨memory, ip, base, current, steps, halted, imageFault, bench⟩ := m
  simp only [read]
  cases bench.read with
  | ok v b => rfl
  | error e b => cases e <;> rfl

theorem read_sturdy : Sturdy read := by
  intro m hSound
  rw [read_eq]
  cases hRead : m.bench.read with
  | ok v b => exact ⟨hSound, fun hWired => hWired.read hRead, rfl⟩
  | error e b =>
    obtain rfl := Bench.eq_of_read_error hRead
    cases e with
    | io io => exact Upheld.closed ⟨hSound, id, rfl⟩ _ _
    | crash c =>
      obtain ⟨hCrash, hOpen⟩ := Bench.not_wired_of_read_crash hRead
      exact .inr ⟨hCrash, hOpen, hSound⟩

theorem emit_sturdy (v : Int64) : Sturdy (emit v) := by
  intro m hSound
  rw [emit_eq]
  by_cases hAbsent : m.bench.output = .absent
  · have hEmit : (m.bench.note (.emitted v)).emit v =
        .error (.crash .unwired) (m.bench.note (.emitted v)) := by
      unfold Bench.emit Bench.note
      rw [hAbsent]
    rw [hEmit]
    exact .inr ⟨rfl, fun hWired => hWired.output hAbsent, hSound⟩
  · obtain ⟨e?, b, hEmit, hWiring⟩ := Bench.emit_wiring v
      (show (m.bench.note (.emitted v)).output ≠ .absent from hAbsent)
    have hUpheld : Upheld m (m.onto b) := ⟨hSound, fun hWired => hWiring (hWired.note _), rfl⟩
    rw [hEmit]
    cases e? with
    | none => exact hUpheld
    | some e => exact hUpheld.closed _ _

/-! ### Operands and instructions -/

theorem nextMode_sturdy (ins : Instruction) : Sturdy (nextMode ins) := by
  unfold nextMode
  split
  · exact .pure _
  · exact halt_sturdy _

theorem advance_sturdy : Sturdy advance := .modify fun _ hSound => ⟨hSound, id, rfl⟩

theorem resolve_sturdy (mode : Mode) (cell : Int64) : Sturdy (resolve mode cell) := by
  cases mode with
  | position => exact load_sturdy cell
  | immediate => exact .pure cell
  | relative => exact .get fun m => load_sturdy (cell + m.base)

theorem operand_sturdy (ins : Instruction) : Sturdy (operand ins) := by
  refine (nextMode_sturdy ins).bind fun p => .get fun m => (load_sturdy m.ip).bind fun cell => ?_
  exact (resolve_sturdy p.1 cell).bind fun v => advance_sturdy.bind fun _ => .pure _

theorem target_sturdy (ins : Instruction) : Sturdy (target ins) := by
  refine .get fun m => (load_sturdy m.ip).bind fun cell => advance_sturdy.bind fun _ => ?_
  refine (nextMode_sturdy ins).bind fun p => ?_
  obtain ⟨mode, rest⟩ := p
  cases mode with
  | position => exact .pure _
  | immediate => exact .pure _
  | relative => exact .get fun m => .pure _

theorem combine_sturdy (f : Int64 → Int64 → Int64) (ins : Instruction) :
    Sturdy (combine f ins) := by
  refine (operand_sturdy ins).bind fun p => (operand_sturdy p.2).bind fun q => ?_
  exact (target_sturdy q.2).bind fun t => store_sturdy t.1 (f p.1 q.1)

theorem jumpIf_sturdy (wanted : Bool) (ins : Instruction) : Sturdy (jumpIf wanted ins) := by
  refine (operand_sturdy ins).bind fun p => ?_
  by_cases hTaken : (p.1 != 0) = wanted
  · simp only [if_pos hTaken]
    exact (operand_sturdy p.2).bind fun q => .modify fun _ hSound => ⟨hSound, id, rfl⟩
  · simp only [if_neg hTaken]
    exact advance_sturdy

theorem carryOut_sturdy (ins : Instruction) : Sturdy (carryOut ins) := by
  unfold carryOut
  cases ins.opcode with
  | add => exact combine_sturdy _ ins
  | multiply => exact combine_sturdy _ ins
  | lessThan => exact combine_sturdy _ ins
  | equals => exact combine_sturdy _ ins
  | jumpIfTrue => exact jumpIf_sturdy true ins
  | jumpIfFalse => exact jumpIf_sturdy false ins
  | input => exact (target_sturdy ins).bind fun t => read_sturdy.bind fun v => store_sturdy t.1 v
  | output => exact (operand_sturdy ins).bind fun p => emit_sturdy p.1
  | adjustBase =>
    exact (operand_sturdy ins).bind fun p => .modify fun _ hSound => ⟨hSound, id, rfl⟩
  | halt => exact halt_sturdy none

/-- **A step is sturdy.** -/
theorem step_sturdy : Sturdy step := by
  refine Sturdy.bind (.modify fun _ hSound => ⟨hSound, id, rfl⟩) fun _ => .get fun m => ?_
  refine (load_sturdy m.current).bind fun word => ?_
  cases Instruction.decode m.current word with
  | error e => exact halt_sturdy _
  | ok ins =>
    refine Sturdy.bind ?_ fun _ => carryOut_sturdy ins
    refine Sturdy.bind (.modify fun _ hSound => ⟨hSound, id, rfl⟩) fun _ => .get fun m => ?_
    exact .modify fun _ hSound => ⟨hSound, fun hWired => hWired.note _, rfl⟩

/-! ### Runs -/

theorem stepTimes_endures (n : Nat) (h : m.memory.Sound) :
    Endures m (stepTimes n m).1 (stepTimes n m).2 := by
  induction n generalizing m with
  | zero => exact ⟨h, id, rfl⟩
  | succ n ih =>
    have hStep := step_sturdy m h
    cases hNext : step m with
    | error stop m' =>
      rw [hNext] at hStep
      rw [stepTimes_succ_error hNext]
      exact hStep
    | ok u m' =>
      rw [hNext] at hStep
      rw [stepTimes_succ_ok hNext]
      have hUpheld : Upheld m m' := hStep
      exact hUpheld.endures (ih hUpheld.sound)

theorem runSteps_endures (reason : RunError) (n : Nat) (h : m.memory.Sound) :
    Endures m (some (runSteps reason n m).1) (runSteps reason n m).2 := by
  have hSteps := stepTimes_endures n h
  rw [runSteps_eq]
  cases hEnd : stepTimes n m with
  | mk stop? last =>
    rw [hEnd] at hSteps
    cases stop? with
    | some stop => exact hSteps
    | none => exact Upheld.closed hSteps _ _

/-- The report of a run that crashed because a page could not be made. -/
def pageFailure : Failure RunError := .crashedOn "VM" Crash.allocation.message

theorem halted_of_refusal {e : RunError} (h : m.refusal? = some e) (hImage : m.imageFault = none) :
    m.halted = true := by
  unfold refusal? at h
  rw [hImage] at h
  by_contra hGoing
  rw [if_neg hGoing] at h
  cases h

/-- **What is left by a run that was not kept from making a page**: a sound memory, and a machine
that has halted if it was wired and its image was loaded. -/
theorem run_endures (h : m.memory.Sound) {patience : Patience}
    (hMade : (m.run patience).1 ≠ some pageFailure) :
    (m.run patience).2.memory.Sound ∧ (m.bench.Wired → m.imageFault = none →
      (m.run patience).2.halted = true ∧ (m.run patience).2.imageFault = none) := by
  cases hRefusal : m.refusal? with
  | some error =>
    rw [run_of_refusal hRefusal]
    exact ⟨h, fun _ hImage => ⟨halted_of_refusal hRefusal hImage, hImage⟩⟩
  | none =>
    have hEnd : Endures (setRunning true m) _ _ :=
      runSteps_endures patience.reason patience.budget h
    rw [run_eq hRefusal] at hMade ⊢
    generalize runSteps patience.reason patience.budget (setRunning true m) = result at hMade hEnd ⊢
    obtain ⟨stop, last⟩ := result
    cases stop with
    | halt error =>
      obtain ⟨⟨hSound, -, hFault⟩, hHalted⟩ := hEnd
      exact ⟨hSound, fun _ hImage => ⟨hHalted, hFault.trans hImage⟩⟩
    | crash c =>
      rcases hEnd with rfl | ⟨-, hOpen, hSound⟩
      · exact absurd rfl hMade
      · refine ⟨hSound, fun hWired => absurd ?_ hOpen⟩
        exact hWired.of_same rfl rfl rfl

/-! ### Machines that can be made -/

theorem setUp_sound (h : m.memory.Sound) {s : Setup} (hDone : m.setUp s = .ok () m') :
    m'.memory.Sound := by
  cases s with
  | image cells =>
    have hReset : m.memory.reset.Sound := Memory.sound_blank _ _
    rw [setUp] at hDone
    rcases hReset.store_cases 0 cells with
      ⟨memory, hStore, hNew⟩ | ⟨f, hStore⟩ | ⟨memory, hStore⟩
    · rw [hStore] at hDone
      cases hDone
      exact hNew
    · rw [hStore] at hDone
      cases hDone
      exact hReset
    · rw [hStore] at hDone
      cases hDone
  | store address cells =>
    rw [setUp] at hDone
    rcases h.store_cases address cells with
      ⟨memory, hStore, hNew⟩ | ⟨f, hStore⟩ | ⟨memory, hStore⟩
    · rw [hStore] at hDone
      cases hDone
      exact hNew
    · rw [hStore] at hDone
      cases hDone
      exact h
    · rw [hStore] at hDone
      cases hDone
  | memoryLimit limit =>
    cases hDone
    exact h.resized m.memory.pageSize limit
  | pageSize size =>
    cases hDone
    exact h.resized size m.memory.limit
  | _ =>
    cases hDone
    exact h

/-- The machine can be made by setups, runs and steps that were not kept from making a page. -/
inductive Reached : Machine → Prop
  | new : Reached {}
  | setUp {m m' : Machine} {s : Setup} (h : Reached m) (hDone : m.setUp s = .ok () m') : Reached m'
  | run {m : Machine} {patience : Patience} (h : Reached m)
      (hMade : (m.run patience).1 ≠ some pageFailure) : Reached (m.run patience).2
  | steps {m : Machine} {n : Nat} (h : Reached m)
      (hMade : (stepTimes n m).1 ≠ some (.crash .allocation)) : Reached (stepTimes n m).2

/-- **The memory of a machine is sound, whatever was done to it.** -/
theorem Reached.sound (h : Reached m) : m.memory.Sound := by
  induction h with
  | new => exact Memory.sound_blank 0 0
  | setUp h hDone ih => exact setUp_sound ih hDone
  | run h hMade ih => exact (run_endures ih hMade).1
  | @steps m n h hMade ih =>
    have hEnd := stepTimes_endures n ih
    generalize stepTimes n m = result at hMade hEnd ⊢
    obtain ⟨stop?, last⟩ := result
    cases stop? with
    | none => exact hEnd.sound
    | some stop =>
      cases stop with
      | halt error => exact hEnd.1.sound
      | crash c =>
        rcases hEnd with rfl | ⟨-, -, hSound⟩
        · exact absurd rfl hMade
        · exact hSound

end Machine

end HullRobot
