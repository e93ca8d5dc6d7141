import HullRobot.Proofs.Machine.Runs

/-!
# Failed instructions

An instruction takes all its operands before it does anything, and a store checks its range before
it makes a page.  So an instruction that fails leaves memory and the relative base as they were.
What it can lose is a value of the input that it had no place for.

* `Memory.eq_of_store_fault`: a store that is refused changes nothing, whatever the pages are.
* `store_halt`, `act_halt`: **an effect that halts the machine spares memory and base.**
* `step_halt_sinks`: the sinks are offered nothing, except by an output that is refused.
* `failed_step_spares`: all that a step that fails does to a machine.
-/

namespace HullRobot

/-! ### Stores that are refused -/

namespace Memory

theorem fill_error {m m' : Memory} {page offset : Nat} {values : List Int64} {e : Error}
    (h : fill m page offset values = .error e m') : ∃ c, e = .crash c := by
  unfold fill at h
  cases hSize : m.blocks[page]?.map Array.size with
  | none =>
    rw [hSize] at h
    cases h
    exact ⟨_, rfl⟩
  | some count =>
    simp only [hSize] at h
    by_cases hShort : count < offset
    · rw [if_pos hShort] at h
      cases h
      exact ⟨_, rfl⟩
    · rw [if_neg hShort] at h
      cases h

theorem allocate_error {m m' : Memory} {page : Nat} {extent : Extent} {e : Error}
    (h : allocate m page extent = .error e m') : ∃ c, e = .crash c := by
  unfold allocate at h
  by_cases hLarge : largestBlock < extent.size
  · simp only [if_pos hLarge] at h
    cases h
    exact ⟨_, rfl⟩
  · simp only [if_neg hLarge] at h
    by_cases hPlace : m.blocks.size < page
    · rw [if_pos hPlace] at h
      cases h
      exact ⟨_, rfl⟩
    · rw [if_neg hPlace] at h
      cases h

/-- Past the check of its range a store can only crash. -/
theorem storeFrom_error {rounds : Nat} {m m' : Memory} {size page address : Nat}
    {values : List Int64} {e : Error}
    (h : storeFrom rounds m size page address values = .error e m') : ∃ c, e = .crash c := by
  fun_induction storeFrom rounds m size page address values with
  | case1 => cases h
  | case2 => cases h
  | case3 rounds m size page address values _ hSlot hBlock ih => exact ih h
  | case4 rounds m size page address values _ hSlot hBlock =>
    cases h
    exact ⟨_, rfl⟩
  | case5 rounds m size page address values _ extent hSlot c m'' hFill =>
    cases h
    exact fill_error hFill
  | case6 rounds m size page address values _ extent hSlot n m'' hFill ih => exact ih h
  | case7 rounds m size page address values _ extent hSlot c m'' hMake =>
    cases h
    exact allocate_error hMake
  | case8 rounds m size page address values _ extent hSlot m'' hMake c m''' hFill =>
    cases h
    exact fill_error hFill
  | case9 rounds m size page address values _ extent hSlot m'' hMake n m''' hFill ih => exact ih h

/-- A store that is refused leaves the memory as it is. -/
theorem eq_of_store_fault {m m' : Memory} {address : Int64} {values : List Int64} {f : Fault}
    (h : m.store address values = .error (.fault f) m') : m' = m := by
  unfold store at h
  by_cases hNone : values.isEmpty = true
  · rw [if_pos hNone] at h
    cases h
  · rw [if_neg hNone] at h
    cases hCheck : checkRange m.limit .store address values.length with
    | error fault =>
      rw [hCheck] at h
      cases h
      rfl
    | ok u =>
      rw [hCheck] at h
      obtain ⟨c, hCrash⟩ := storeFrom_error h
      cases hCrash

end Memory

/-! ### The input -/

namespace Bench

/-- A read takes a value off a queue and leaves every other input as it is. -/
theorem read_input {b b' : Bench} {v : Int64} (h : b.read = .ok v b') :
    b'.input = b.input ∨ ∃ rest, b.input = .queue (v :: rest) ∧ b'.input = .queue rest := by
  unfold read at h
  cases hInput : b.input with
  | absent =>
    rw [hInput] at h
    cases h
  | constant w =>
    rw [hInput] at h
    cases h
    exact .inl hInput
  | queue values =>
    cases values with
    | nil =>
      rw [hInput] at h
      cases h
    | cons w rest =>
      rw [hInput] at h
      cases h
      exact .inr ⟨rest, rfl, rfl⟩
  | camera socket =>
    simp only [hInput] at h
    split at h
    · cases h
      exact .inl hInput
    · cases h

theorem eq_of_read_error {b b' : Bench} {e : Error} (h : b.read = .error e b') : b' = b := by
  unfold read at h
  split at h
  · cases h
    rfl
  · cases h
  · cases h
    rfl
  · cases h
  · split at h
    · cases h
    · cases h
      rfl

/-- What an emitted value does to a bench that has an output. -/
theorem emit_devices (v : Int64) {b : Bench} (h : b.output ≠ .absent) :
    ∃ journal, b.emit v = result ((offerDevices v b.output.outlets b.devices).1.map .io)
      { b with devices := (offerDevices v b.output.outlets b.devices).2, journal } := by
  obtain ⟨journal, hOffer⟩ := offerAll_devices v b.output.outlets b
  refine ⟨journal, ?_⟩
  rw [emit_wired v h, hOffer]
  cases (offerDevices v b.output.outlets b.devices).1 <;> rfl

theorem input_of_emit_error {b b' : Bench} {v : Int64} {e : IoError}
    (h : b.emit v = .error (.io e) b') : b'.input = b.input := by
  by_cases hAbsent : b.output = .absent
  · unfold emit at h
    rw [hAbsent] at h
    cases h
  · obtain ⟨journal, hEmit⟩ := emit_devices v hAbsent
    rw [hEmit] at h
    cases hFirst : (offerDevices v b.output.outlets b.devices).1 with
    | none =>
      rw [hFirst] at h
      cases h
    | some io =>
      rw [hFirst] at h
      cases h
      rfl

end Bench

namespace Machine

open FlatMachine (Effect)

variable {m m' : Machine} {cause e : Option RunError}

/-! ### Machines that halt -/

theorem eq_of_halt {α : Type} {last : Machine}
    (h : (halt cause last : EStateM.Result Stop Machine α) = .error (.halt e) m') :
    e = last.lastError cause ∧ m' = last.closed cause := by
  rw [halt_eq] at h
  cases h
  exact ⟨rfl, rfl⟩

theorem closed_devices (cause : Option RunError) (m : Machine) :
    (m.closed cause).bench.devices =
      (Bench.flushDevices m.bench.output.outlets m.bench.devices).2 := by
  simp only [closed, Bench.flush, Bench.flushAll_devices, Bench.note]

theorem closed_input (cause : Option RunError) (m : Machine) :
    (m.closed cause).bench.input = m.bench.input := by
  simp only [closed, Bench.flush, Bench.flushAll_devices, Bench.note]

/-! ### Effects that halt -/

/-- What a machine keeps of `m` when it halts; only its instruction pointer may have moved. -/
structure Spared (m m' : Machine) : Prop where
  memory_eq : m'.memory = m.memory
  base_eq : m'.base = m.base
  current_eq : m'.current = m.current
  steps_eq : m'.steps = m.steps
  halted : m'.halted = true

theorem spared_closed (cause : Option RunError) (m : Machine) : Spared m (m.closed cause) :=
  ⟨rfl, rfl, rfl, rfl, rfl⟩

/-- A value was taken off the input and could not be stored at `address`, and this is the error. -/
def Wasted (m : Machine) (address : Int64) (e : Option RunError) (m' : Machine) : Prop :=
  ∃ v rest f, m.bench.input = .queue (v :: rest) ∧ m'.bench.input = .queue rest ∧
    m.memory.store address [v] = .error (.fault f) m.memory ∧
    e = some (.exec m.current (.memory f))

theorem store_halt {address v : Int64} (h : store address v m = .error (.halt e) m') :
    ∃ f, m.memory.store address [v] = .error (.fault f) m.memory ∧
      e = some (.exec m.current (.memory f)) ∧ m' = m.closed e := by
  rw [store_eq] at h
  cases hStore : m.memory.store address [v] with
  | ok u memory =>
    rw [hStore] at h
    cases h
  | error error memory =>
    rw [hStore] at h
    cases error with
    | fault f =>
      obtain rfl := Memory.eq_of_store_fault hStore
      obtain ⟨rfl, rfl⟩ := eq_of_halt h
      exact ⟨f, rfl, rfl, rfl⟩
    | crash c => cases h

/-- **An effect that halts the machine spares memory and base**, and it leaves the input as it is,
unless it was to store what it had read. -/
theorem act_halt {effect : Effect} (h : act effect m = .error (.halt e) m') :
    Spared m m' ∧ (m'.bench.input = m.bench.input ∨
      ∃ address, effect = .read address ∧ Wasted m address e m') := by
  cases effect with
  | assign address v =>
    obtain ⟨f, -, -, rfl⟩ := store_halt h
    exact ⟨spared_closed e m, .inl (closed_input e m)⟩
  | read address =>
    rw [act_read_eq] at h
    cases hRead : m.bench.read with
    | ok v b =>
      rw [hRead] at h
      obtain ⟨f, hStore, rfl, rfl⟩ := store_halt h
      refine ⟨⟨rfl, rfl, rfl, rfl, rfl⟩, ?_⟩
      rw [closed_input]
      refine (Bench.read_input hRead).imp id fun ⟨rest, hBefore, hAfter⟩ => ?_
      exact ⟨address, rfl, v, rest, f, hBefore, (closed_input _ _).trans hAfter, hStore, rfl⟩
    | error error b =>
      rw [hRead] at h
      obtain rfl := Bench.eq_of_read_error hRead
      cases error with
      | io io =>
        obtain ⟨rfl, rfl⟩ := eq_of_halt h
        exact ⟨spared_closed _ m, .inl (closed_input _ m)⟩
      | crash c => cases h
  | emit v =>
    rw [act, emit_eq] at h
    cases hEmit : (m.bench.note (.emitted v)).emit v with
    | ok u b =>
      rw [hEmit] at h
      cases h
    | error error b =>
      rw [hEmit] at h
      cases error with
      | io io =>
        obtain ⟨rfl, rfl⟩ := eq_of_halt h
        have hSame : b.input = (m.bench.note (.emitted v)).input :=
          Bench.input_of_emit_error hEmit
        exact ⟨⟨rfl, rfl, rfl, rfl, rfl⟩, .inl ((closed_input _ _).trans hSame)⟩
      | crash c => cases h
  | rebase offset => cases h
  | pass => cases h
  | halt =>
    obtain ⟨rfl, rfl⟩ := eq_of_halt h
    exact ⟨spared_closed none m, .inl (closed_input none m)⟩

/-! ### Steps that halt -/

/-- Only the input instruction reads. -/
theorem opcode_of_asked {answer : Except Bench.Error Int64}
    (h : m.exchange = some (.asked answer)) :
    ∃ ins, m.instruction? = some ins ∧ ins.opcode = .input := by
  unfold exchange at h
  rcases start_cases m with ⟨setback, -, hStart⟩ | ⟨crash, -, hStart⟩ | ⟨ins, hSome, hStart⟩
  · rw [← onto_bench m, hStart, halt_eq] at h
    cases h
  · rw [← onto_bench m, hStart] at h
    cases h
  · rw [← onto_bench m, hStart] at h
    refine ⟨ins, hSome, ?_⟩
    unfold exchangeOf at h
    cases hOpcode : ins.opcode with
    | input => rfl
    | output =>
      simp only [hOpcode] at h
      split at h <;> cases h
    | _ =>
      simp only [hOpcode] at h
      cases h

/-- **How a step halts**: it finds no instruction, or it spares the machine that has begun one. -/
theorem step_halt_cases (h : step m = .error (.halt e) m') :
    (m.instruction? = none ∧ ∃ cause, m' = m.atWork.closed cause) ∨
    ∃ ins, m.instruction? = some ins ∧ Spared (m.begun ins) m' ∧
      (m'.bench.input = m.bench.input ∨
        ins.opcode = .input ∧ ∃ address, Wasted (m.begun ins) address e m') := by
  obtain ⟨course, hInstruction, -, hCourse⟩ := step_course m
  obtain ⟨hStep, hExchange⟩ := hCourse m.bench
  rw [onto_bench] at hStep hExchange
  rw [hStep] at h
  cases course with
  | lost setback =>
    rw [Course.follow] at h
    exact .inl ⟨hInstruction.symm, _, (eq_of_halt h).2⟩
  | wrecked crash => cases h
  | works ins verdict =>
    have hThere : m.instruction? = some ins := hInstruction.symm
    refine .inr ⟨ins, hThere, ?_⟩
    cases verdict with
    | halts setback ip =>
      rw [Course.follow, Verdict.bring] at h
      obtain ⟨-, rfl⟩ := eq_of_halt h
      exact ⟨⟨rfl, rfl, rfl, rfl, rfl⟩, .inl (closed_input _ _)⟩
    | crashes crash ip => cases h
    | done effect ip =>
      rw [Course.follow, Verdict.bring] at h
      obtain ⟨⟨hMemory, hBase, hCurrent, hSteps, hHalted⟩, hInput⟩ := act_halt h
      refine ⟨⟨hMemory, hBase, hCurrent, hSteps, hHalted⟩, hInput.imp id fun hRead => ?_⟩
      obtain ⟨address, rfl, hWasted⟩ := hRead
      obtain ⟨ins', hSome, hOpcode⟩ := opcode_of_asked hExchange
      rw [hThere] at hSome
      cases hSome
      exact ⟨hOpcode, address, hWasted⟩

/-- The sinks are offered what the step emits, and then they are flushed. -/
theorem step_halt_sinks (h : step m = .error (.halt e) m') :
    m'.bench.devices = (Bench.flushDevices m.bench.output.outlets
      (Bench.tellDevices m.bench.output.outlets m.emits m.bench.devices)).2 ∧
    (m.emits = [] ∨ ∃ v a io, m.emits = [v] ∧ e = some (.exec a (.output io))) := by
  have hTurn := step_turn m
  rw [h] at hTurn
  generalize hEnd : (EStateM.Result.error (.halt e) m' : EStateM.Result Stop Machine Unit) = r
    at hTurn
  cases hTurn with
  | ok hFrame hPassed hGoes => cases hEnd
  | crash hGoes => cases hEnd
  | @halt cause last hClosing hCause =>
    obtain ⟨rfl, rfl⟩ := eq_of_halt hEnd.symm
    refine ⟨by rw [closed_devices, hClosing.output_eq, hClosing.devices_eq], ?_⟩
    rcases hClosing.refused with ⟨v, a, io, hOne, rfl, -⟩ | ⟨hNone, -⟩
    · exact .inr ⟨v, a, io, hOne, rfl⟩
    · exact .inl hNone

/-- **A step that fails does nothing to memory and the relative base.**  The sinks are offered a
value only if this is what fails.  A value is taken off the input only by an input instruction that
cannot store it.  The step counts if there was an instruction, and else the instruction pointer
stays where it is. -/
theorem failed_step_spares (m m' : Machine) (e : RunError)
    (h : step m = .error (.halt (some e)) m') :
    (m'.memory = m.memory ∧ m'.base = m.base ∧ m'.current = m.ip ∧ m'.halted = true) ∧
    (∃ vs, m'.bench.devices = (Bench.flushDevices m.bench.output.outlets
        (Bench.tellDevices m.bench.output.outlets vs m.bench.devices)).2 ∧
      (vs = [] ∨ ∃ v a io, vs = [v] ∧ e = .exec a (.output io))) ∧
    (m'.bench.input = m.bench.input ∨ ∃ ins address v rest f,
      m.instruction? = some ins ∧ ins.opcode = .input ∧ m.bench.input = .queue (v :: rest) ∧
      m'.bench.input = .queue rest ∧ m.memory.store address [v] = .error (.fault f) m.memory ∧
      e = .exec m.ip (.memory f)) ∧
    (m.instruction? = none → m'.steps = m.steps ∧ m'.ip = m.ip) ∧
    (m.instruction? ≠ none → m'.steps = m.steps + 1) := by
  obtain ⟨hDevices, hEmits⟩ := step_halt_sinks h
  have hSinks : ∃ vs, m'.bench.devices = (Bench.flushDevices m.bench.output.outlets
      (Bench.tellDevices m.bench.output.outlets vs m.bench.devices)).2 ∧
      (vs = [] ∨ ∃ v a io, vs = [v] ∧ e = .exec a (.output io)) :=
    ⟨m.emits, hDevices, hEmits.imp_right fun ⟨v, a, io, hOne, hError⟩ =>
      ⟨v, a, io, hOne, Option.some.inj hError⟩⟩
  rcases step_halt_cases h with ⟨hNone, cause, rfl⟩ | ⟨ins, hSome, hSpared, hInput⟩
  · exact ⟨⟨rfl, rfl, rfl, rfl⟩, hSinks, .inl (closed_input _ _), fun _ => ⟨rfl, rfl⟩,
      fun hSome => absurd hNone hSome⟩
  · refine ⟨⟨hSpared.memory_eq, hSpared.base_eq, hSpared.current_eq, hSpared.halted⟩, hSinks, ?_,
      fun hNone => ?_, fun _ => hSpared.steps_eq⟩
    · refine hInput.imp id fun ⟨hOpcode, address, v, rest, f, hBefore, hAfter, hStore, hError⟩ => ?_
      exact ⟨ins, address, v, rest, f, hSome, hOpcode, hBefore, hAfter, hStore,
        Option.some.inj hError⟩
    · rw [hSome] at hNone
      cases hNone

/-- An input instruction whose cell lies over the limit: the value is gone, and memory is as
before. -/
theorem failed_step_spares_input :
    let m : Machine :=
      { memory := { pageSize := 4, limit := 4, extents := #[⟨0, 4⟩], blocks := #[#[3, 50, 99, 0]] },
        bench := { input := .queue [7, 8] } }
    ∃ m', step m = .error (.halt (some (.exec 0 (.memory (.overLimit .store 51))))) m' ∧
      m'.bench.input = .queue [8] ∧ m'.memory = m.memory ∧ m'.steps = m.steps + 1 := by
  intro m
  have hStep : step m = .error (.halt (some (.exec 0 (.memory (.overLimit .store 51)))))
      { m with ip := 2, steps := 1, halted := true, bench := { input := .queue [8] } } := by
    with_unfolding_all rfl
  obtain ⟨⟨hMemory, -⟩, -, -, -, hSteps⟩ := failed_step_spares m _ _ hStep
  exact ⟨_, hStep, rfl, hMemory, hSteps (by decide)⟩

end Machine

end HullRobot
