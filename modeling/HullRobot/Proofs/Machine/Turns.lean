import HullRobot.Proofs.Bench.Sinks
import HullRobot.Proofs.Machine.Course

/-!
# What steps do to the sinks

A step emits at most one value.  If it succeeds, all sinks have taken the value; if it halts, it
does so for a cause, and only then are the sinks flushed.

* `emits`: the values that the next step emits.  `Passed`: sinks have taken values.  `Closing`:
  they were offered values, and then there was a cause to halt.
* `Turn`: how an action ends.  `step_turn`: **a step that succeeds has passed on what it emits, and
  one that halts has a cause.**
-/

namespace HullRobot

namespace Bench

/-- The devices after values were offered to them, one after the other. -/
def tellDevices (outlets : List Outlet) (vs : List Int64) (devices : Array Device) : Array Device :=
  vs.foldl (fun devices v => (offerDevices v outlets devices).2) devices

/-- All values are taken, one after the other. -/
def Taken (outlets : List Outlet) : List Int64 → Array Device → Prop
  | [], _ => True
  | v :: vs, devices =>
    (offerDevices v outlets devices).1 = none ∧ Taken outlets vs (offerDevices v outlets devices).2

theorem tellDevices_append (outlets : List Outlet) (vs ws : List Int64) (devices : Array Device) :
    tellDevices outlets (vs ++ ws) devices =
      tellDevices outlets ws (tellDevices outlets vs devices) := List.foldl_append

theorem size_tellDevices (outlets : List Outlet) (vs : List Int64) (devices : Array Device) :
    (tellDevices outlets vs devices).size = devices.size := by
  induction vs generalizing devices with
  | nil => rfl
  | cons v vs ih => exact (ih _).trans size_offerDevices

theorem taken_append (outlets : List Outlet) (vs ws : List Int64) (devices : Array Device) :
    Taken outlets (vs ++ ws) devices ↔
      Taken outlets vs devices ∧ Taken outlets ws (tellDevices outlets vs devices) := by
  induction vs generalizing devices with
  | nil => simp only [List.nil_append, Taken, true_and, tellDevices, List.foldl_nil]
  | cons v vs ih => simp only [List.cons_append, Taken, ih, and_assoc, tellDevices, List.foldl_cons]

/-- From `b` to `b'` the sinks took the values `vs`. -/
structure Passed (vs : List Int64) (b b' : Bench) : Prop where
  output_eq : b'.output = b.output
  devices_eq : b'.devices = tellDevices b.output.outlets vs b.devices
  taken : Taken b.output.outlets vs b.devices

theorem Passed.nothing {b b' : Bench} (hOutput : b'.output = b.output)
    (hDevices : b'.devices = b.devices) : Passed [] b b' := ⟨hOutput, hDevices, trivial⟩

theorem Passed.trans {vs ws : List Int64} {b b' b'' : Bench} (h : Passed vs b b')
    (h' : Passed ws b' b'') : Passed (vs ++ ws) b b'' := by
  have hTaken := h'.taken
  have hDevices := h'.devices_eq
  rw [h.output_eq, h.devices_eq] at hTaken hDevices
  refine ⟨h'.output_eq.trans h.output_eq, ?_, ?_⟩
  · rw [tellDevices_append, hDevices]
  · rw [taken_append]
    exact ⟨h.taken, hTaken⟩

/-- A read leaves the output and its devices as they are. -/
theorem read_same (b : Bench) :
    (∃ v b', b.read = .ok v b' ∧ b'.output = b.output ∧ b'.devices = b.devices) ∨
    ∃ e b', b.read = .error e b' ∧ b'.output = b.output ∧ b'.devices = b.devices := by
  unfold read
  cases b.input with
  | absent => exact .inr ⟨_, _, rfl, rfl, rfl⟩
  | constant v => exact .inl ⟨_, _, rfl, rfl, rfl⟩
  | queue values =>
    cases values with
    | nil => exact .inr ⟨_, _, rfl, rfl, rfl⟩
    | cons v vs => exact .inl ⟨_, _, rfl, rfl, rfl⟩
  | camera socket =>
    simp only
    split
    · exact .inl ⟨_, _, rfl, rfl, rfl⟩
    · exact .inr ⟨_, _, rfl, rfl, rfl⟩

/-- A read crashes only if there is no input, or no robot where the camera should be. -/
theorem read_crash {b b' : Bench} {c : Crash} (h : b.read = .error (.crash c) b') :
    c = .unwired ∧ (b.input = .absent ∨ ∃ socket, b.input = .camera socket ∧
      ∀ r traced, b.devices[socket]? ≠ some (.robot r traced)) := by
  unfold read at h
  cases hInput : b.input with
  | absent =>
    rw [hInput] at h
    cases h
    exact ⟨rfl, .inl rfl⟩
  | constant v =>
    rw [hInput] at h
    cases h
  | queue values =>
    rw [hInput] at h
    cases values <;> cases h
  | camera socket =>
    simp only [hInput] at h
    split at h
    · cases h
    · next hNoRobot =>
      cases h
      exact ⟨rfl, .inr ⟨socket, rfl, hNoRobot⟩⟩

theorem emit_wired (v : Int64) {b : Bench} (h : b.output ≠ .absent) :
    b.emit v = match offerAll v b.output.outlets b with
      | .ok () b => .ok () b
      | .error e b => .error (.io e) b := by
  unfold emit
  generalize b.output = output at h ⊢
  cases output with
  | absent => exact absurd rfl h
  | single outlet => rfl
  | several outlets => rfl

/-- What becomes of an emitted value. -/
theorem emit_cases (v : Int64) (b : Bench) :
    (∃ b', b.emit v = .ok () b' ∧ Passed [v] b b') ∨
    (∃ e b', b.emit v = .error (.io e) b' ∧ b'.output = b.output ∧
      b'.devices = tellDevices b.output.outlets [v] b.devices ∧
      (offerDevices v b.output.outlets b.devices).1 = some e) ∨
    b.output = .absent ∧ b.emit v = .error (.crash .unwired) b := by
  by_cases hAbsent : b.output = .absent
  · refine .inr (.inr ⟨hAbsent, ?_⟩)
    unfold emit
    rw [hAbsent]
  · obtain ⟨journal, hOffer⟩ := offerAll_devices v b.output.outlets b
    rw [emit_wired v hAbsent, hOffer]
    cases hFirst : (offerDevices v b.output.outlets b.devices).1 with
    | none => exact .inl ⟨_, rfl, rfl, rfl, hFirst, trivial⟩
    | some e => exact .inr (.inl ⟨e, _, rfl, rfl, rfl, rfl⟩)

end Bench

namespace Machine

open FlatMachine (Effect)

variable {m m' : Machine}

/-! ### Effects -/

/-- The values in an exchange that go to the sinks. -/
def emitted : Option Exchange → List Int64
  | some (.told v) => [v]
  | _ => []

/-- The values that the next step emits: one, or none. -/
def emits (m : Machine) : List Int64 := emitted m.exchange

/-- The values in an exchange were offered to the sinks, and then something was the cause to halt:
that a sink refused the value, or something else if there was none. -/
structure Closing (vs : List Int64) (cause : Option RunError) (b b' : Bench) : Prop where
  output_eq : b'.output = b.output
  devices_eq : b'.devices = Bench.tellDevices b.output.outlets vs b.devices
  refused : (∃ v a e, vs = [v] ∧ cause = some (.exec a (.output e)) ∧
      (Bench.offerDevices v b.output.outlets b.devices).1 = some e) ∨
    vs = [] ∧ ∀ a e, cause ≠ some (.exec a (.output e))

theorem Closing.silent {cause : Option RunError} {b b' : Bench} (hOutput : b'.output = b.output)
    (hDevices : b'.devices = b.devices) (hCause : ∀ a e, cause ≠ some (.exec a (.output e))) :
    Closing [] cause b b' := ⟨hOutput, hDevices, .inr ⟨rfl, hCause⟩⟩

/-- Without a cause, nothing was emitted. -/
theorem Closing.eq_nil {vs : List Int64} {b b' : Bench} (h : Closing vs none b b') : vs = [] := by
  rcases h.refused with ⟨v, a, e, -, hSome, -⟩ | ⟨hNone, -⟩
  · cases hSome
  · exact hNone

/-- How `m` comes out of an action that emits `vs` and halts without an error only if `clean`. -/
inductive Turn (m : Machine) (steps : UInt64) (vs : List Int64) (clean : Prop) :
    EStateM.Result Stop Machine Unit → Prop
  | ok {m' : Machine}
      (hFrame : m'.halted = m.halted ∧ m'.imageFault = m.imageFault ∧ m'.steps = steps)
      (hPassed : Bench.Passed vs m.bench m'.bench) (hGoes : ¬clean) :
      Turn m steps vs clean (.ok () m')
  | halt {cause : Option RunError} {last : Machine}
      (hClosing : Closing vs cause m.bench last.bench) (hCause : cause = none ↔ clean) :
      Turn m steps vs clean (halt cause last)
  | crash {c : Crash} {m' : Machine} (hGoes : ¬clean) :
      Turn m steps vs clean (.error (.crash c) m')

theorem Turn.of_same {n : Machine} {steps : UInt64} {vs : List Int64} {clean : Prop}
    {r : EStateM.Result Stop Machine Unit} (h : Turn n steps vs clean r)
    (hHalted : n.halted = m.halted) (hFault : n.imageFault = m.imageFault)
    (hOutput : n.bench.output = m.bench.output) (hDevices : n.bench.devices = m.bench.devices) :
    Turn m steps vs clean r := by
  cases h with
  | ok hFrame hPassed hGoes =>
    obtain ⟨hHalted', hFault', hSteps⟩ := hFrame
    refine .ok ⟨hHalted'.trans hHalted, hFault'.trans hFault, hSteps⟩ ?_ hGoes
    simpa using (Bench.Passed.nothing hOutput hDevices).trans hPassed
  | halt hClosing hCause =>
    refine .halt ⟨hClosing.output_eq.trans hOutput, ?_, ?_⟩ hCause
    · rw [hClosing.devices_eq, hOutput, hDevices]
    · rw [← hOutput, ← hDevices]
      exact hClosing.refused
  | crash hGoes => exact .crash hGoes

/-- A store may follow a read, which leaves the sinks as they are. -/
theorem store_turn {b : Bench} (address v : Int64) (hOutput : b.output = m.bench.output)
    (hDevices : b.devices = m.bench.devices) {clean : Prop} (hClean : ¬clean) :
    Turn m m.steps [] clean (store address v (m.onto b)) := by
  rw [store_eq]
  cases (m.onto b).memory.store address [v] with
  | ok u memory => exact .ok ⟨rfl, rfl, rfl⟩ (.nothing hOutput hDevices) hClean
  | error e memory =>
    cases e with
    | fault f =>
      exact .halt (.silent hOutput hDevices fun _ _ => nofun) (iff_of_false nofun hClean)
    | crash c => exact .crash hClean

theorem read_turn (address : Int64) {clean : Prop} (hClean : ¬clean) :
    Turn m m.steps [] clean (act (.read address) m) := by
  rw [act_read_eq]
  rcases m.bench.read_same with
    ⟨v, b, hRead, hOutput, hDevices⟩ | ⟨e, b, hRead, hOutput, hDevices⟩
  · rw [hRead]
    exact store_turn address v hOutput hDevices hClean
  · rw [hRead]
    cases e with
    | io e => exact .halt (.silent hOutput hDevices fun _ _ => nofun) (iff_of_false nofun hClean)
    | crash c => exact .crash hClean

theorem emit_turn (v : Int64) {clean : Prop} (hClean : ¬clean) :
    Turn m m.steps [v] clean (emit v m) := by
  rw [emit_eq]
  rcases (m.bench.note (.emitted v)).emit_cases v with
    ⟨b, hEmit, hPassed⟩ | ⟨e, b, hEmit, hOutput, hDevices, hFirst⟩ | ⟨hAbsent, hEmit⟩
  · rw [hEmit]
    exact .ok ⟨rfl, rfl, rfl⟩ ⟨hPassed.output_eq, hPassed.devices_eq, hPassed.taken⟩ hClean
  · rw [hEmit]
    exact .halt ⟨hOutput, hDevices, .inl ⟨v, _, e, rfl, rfl, hFirst⟩⟩ (iff_of_false nofun hClean)
  · rw [hEmit]
    exact .crash hClean

theorem act_turn (effect : Effect) (m : Machine) :
    Turn m m.steps (emitted (effect.exchange m.bench)) (effect = .halt) (act effect m) := by
  cases effect with
  | assign address v => exact store_turn address v rfl rfl nofun
  | read address => exact read_turn address nofun
  | emit v => exact emit_turn v nofun
  | rebase offset => exact .ok ⟨rfl, rfl, rfl⟩ (.nothing rfl rfl) nofun
  | pass => exact .ok ⟨rfl, rfl, rfl⟩ (.nothing rfl rfl) nofun
  | halt => exact .halt (.silent rfl rfl fun _ _ => nofun) (iff_of_true rfl rfl)

/-! ### Steps -/

theorem Setback.error_ne_output (setback : Setback) (address a : Int64) (e : IoError) :
    some (setback.error address) ≠ some (.exec a (.output e)) := by
  cases setback <;> nofun

/-- The machine is about to halt by its program. -/
def atHalt (m : Machine) : Prop := ∃ ins, m.instruction? = some ins ∧ ins.opcode = .halt

/-- **How a machine comes out of a step.** -/
theorem step_turn (m : Machine) : Turn m (m.steps + 1) m.emits m.atHalt (step m) := by
  obtain ⟨course, -, hHalt, hCourse⟩ := step_course m
  obtain ⟨hStep, hExchange⟩ := hCourse m.bench
  rw [onto_bench] at hStep hExchange
  rw [hStep, emits, hExchange, atHalt, ← hHalt]
  cases course with
  | lost setback =>
    show Turn m _ [] False (halt (some (setback.error m.ip)) m.atWork)
    refine .halt ?_ (iff_of_false nofun id)
    exact .silent rfl rfl fun a e => setback.error_ne_output m.ip a e
  | wrecked crash => exact .crash id
  | works ins verdict =>
    cases verdict with
    | halts setback ip =>
      show Turn m _ [] False (halt (some (setback.error m.ip)) { m.begun ins with ip })
      refine .halt ?_ (iff_of_false nofun id)
      exact .silent rfl rfl fun a e => setback.error_ne_output m.ip a e
    | crashes crash ip => exact .crash id
    | done effect ip =>
      have hTurn := act_turn effect { m.begun ins with ip }
      have hClean : (Verdict.done effect ip).isHalt ↔ effect = .halt := by
        cases effect <;> simp [Verdict.isHalt]
      have hSame := (Verdict.done effect ip).exchange_note m.bench (.exec ins m.base)
      simp only [Verdict.exchange] at hSame
      simp only [Course.isHalt, hClean, Course.exchange, Verdict.exchange, ← hSame]
      -- The bench differs from that of `m` in a note only, and sinks do not see notes.
      exact hTurn.of_same rfl rfl rfl rfl

end Machine

end HullRobot
