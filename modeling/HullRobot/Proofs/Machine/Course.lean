import HullRobot.Proofs.Machine.Refinement

/-!
# The course of a step

An instruction settles what it will do before it touches the bench.  Up to there it only reads
memory and moves the instruction pointer, and whatever the bench may be, it comes to the same
`Verdict`.

* `operand_settles`, `target_settles`: taking an operand comes to a verdict.
* `carryOut_settles`: an instruction comes to a verdict on an `Effect`, and the effect tells what
  is exchanged with the bench.
* `step_course`: **a step has one course on all benches.**
-/

namespace HullRobot.Machine

open FlatMachine (Effect)

variable {α β γ : Type} {m : Machine}

/-- The machine on another bench. -/
def onto (m : Machine) (b : Bench) : Machine := { m with bench := b }

theorem onto_bench (m : Machine) : m.onto m.bench = m := rfl

/-! ### Verdicts -/

/-- What keeps an instruction from its effect. -/
inductive Setback where
  | undecodable (e : DecodeError)
  | fault (f : Memory.Fault)

/-- How a setback of the instruction at `address` is reported. -/
def Setback.error (address : Int64) : Setback → RunError
  | .undecodable e => .decoding e
  | .fault f => .exec address (.memory f)

/-- What an action comes to that only moves the instruction pointer. -/
inductive Verdict (α : Type) where
  | done (value : α) (ip : Int64)
  | halts (setback : Setback) (ip : Int64)
  | crashes (crash : Crash) (ip : Int64)

namespace Verdict

/-- The machine goes on with the value of a verdict, or stops as the verdict says. -/
def bring (next : α → Action β) (m : Machine) : Verdict α → EStateM.Result Stop Machine β
  | .done a ip => next a { m with ip }
  | .halts setback ip => halt (some (setback.error m.current)) { m with ip }
  | .crashes crash ip => .error (.crash crash) { m with ip }

def map (f : α → β) : Verdict α → Verdict β
  | .done a ip => .done (f a) ip
  | .halts setback ip => .halts setback ip
  | .crashes crash ip => .crashes crash ip

theorem bring_map (f : α → β) (next : β → Action γ) (m : Machine) (v : Verdict α) :
    (v.map f).bring next m = v.bring (fun a => next (f a)) m := by
  cases v <;> rfl

theorem bring_ip (next : α → Action β) (m : Machine) (ip : Int64) (v : Verdict α) :
    v.bring next { m with ip } = v.bring next m := by
  cases v <;> rfl

/-- What follows an action that comes to a verdict. -/
theorem bring_bind {x : Action α} {v : Verdict α} (h : x m = v.bring pure m) (f : α → Action β) :
    (x >>= f) m = v.bring f m := by
  cases v with
  | done a ip => exact bind_ok h
  | halts setback ip =>
    simp only [bind, EStateM.bind, h, bring]
    rfl
  | crashes crash ip =>
    simp only [bind, EStateM.bind, h, bring]

end Verdict

/-- The action comes to the same verdict on all benches, and then goes on with `next`. -/
def Settles (x : Action β) (next : α → Action β) : Prop :=
  ∀ m : Machine, ∃ v : Verdict α, ∀ b, x (m.onto b) = v.bring next (m.onto b)

theorem Settles.pure (a : α) : Settles (pure a) (Pure.pure : α → Action α) :=
  fun m => ⟨.done a m.ip, fun _ => rfl⟩

theorem Settles.bind {x : Action α} {f : α → Action β} {next : γ → Action β}
    (hx : Settles x Pure.pure) (hf : ∀ a, Settles (f a) next) : Settles (x >>= f) next := by
  intro m
  obtain ⟨v, hv⟩ := hx m
  cases v with
  | done a ip =>
    -- A verdict says where the instruction pointer ends, so it may start anywhere.
    obtain ⟨w, hw⟩ := hf a { m with ip }
    refine ⟨w, fun b => ?_⟩
    rw [Verdict.bring_bind (hv b) f, ← Verdict.bring_ip next (m.onto b) ip w]
    exact hw b
  | halts setback ip => exact ⟨.halts setback ip, fun b => Verdict.bring_bind (hv b) f⟩
  | crashes crash ip => exact ⟨.crashes crash ip, fun b => Verdict.bring_bind (hv b) f⟩

/-- The registers may be looked at, but the bench may not. -/
theorem Settles.get {f : Machine → Action β} {next : γ → Action β}
    (hSame : ∀ m b, f (m.onto b) = f m) (hf : ∀ m, Settles (f m) next) :
    Settles (MonadState.get >>= f) next := by
  intro m
  obtain ⟨v, hv⟩ := hf m m
  refine ⟨v, fun b => ?_⟩
  rw [get_bind, hSame]
  exact hv b

/-! ### Operands -/

theorem load_eq (address : Int64) (m : Machine) :
    load address m = match m.memory.load address with
      | .ok v => .ok v m
      | .error (.fault f) => halt (some ((Setback.fault f).error m.current)) m
      | .error (.crash c) => .error (.crash c) m := by
  rw [load, get_bind]
  cases m.memory.load address with
  | ok v => rfl
  | error e => cases e <;> rfl

theorem load_settles (address : Int64) : Settles (load address) Pure.pure := by
  intro m
  cases hMemory : m.memory.load address with
  | ok v => exact ⟨.done v m.ip, fun b => by simp only [load_eq, onto, hMemory]; rfl⟩
  | error e =>
    cases e with
    | fault f => exact ⟨.halts (.fault f) m.ip, fun b => by simp only [load_eq, onto, hMemory]; rfl⟩
    | crash c => exact ⟨.crashes c m.ip, fun b => by simp only [load_eq, onto, hMemory]; rfl⟩

theorem nextMode_settles (ins : Instruction) : Settles (nextMode ins) Pure.pure := by
  intro m
  unfold nextMode
  cases ins.nextMode with
  | mk mode rest =>
    cases mode with
    | ok mode => exact ⟨.done (mode, rest) m.ip, fun b => rfl⟩
    | error e => exact ⟨.halts (.undecodable e) m.ip, fun b => rfl⟩

theorem advance_settles : Settles advance Pure.pure :=
  fun m => ⟨.done ⟨⟩ (m.ip + 1), fun _ => rfl⟩

theorem resolve_settles (mode : Mode) (cell : Int64) : Settles (resolve mode cell) Pure.pure := by
  cases mode with
  | position => exact load_settles cell
  | immediate => exact .pure cell
  | relative => exact .get (fun _ _ => rfl) fun m => load_settles (cell + m.base)

theorem operand_settles (ins : Instruction) : Settles (operand ins) Pure.pure := by
  refine (nextMode_settles ins).bind fun p => ?_
  refine .get (fun _ _ => rfl) fun m => (load_settles m.ip).bind fun cell => ?_
  refine (resolve_settles p.1 cell).bind fun v => ?_
  exact advance_settles.bind fun _ => .pure _

theorem target_settles (ins : Instruction) : Settles (target ins) Pure.pure := by
  refine .get (fun _ _ => rfl) fun m => (load_settles m.ip).bind fun cell => ?_
  refine advance_settles.bind fun _ => (nextMode_settles ins).bind fun p => ?_
  obtain ⟨mode, rest⟩ := p
  cases mode with
  | position => exact .pure _
  | immediate => exact .pure _
  | relative => exact .get (fun _ _ => rfl) fun m => .pure _

/-! ### Instructions -/

theorem combine_settles (f : Int64 → Int64 → Int64) (ins : Instruction) :
    Settles (combine f ins) fun p : Int64 × Int64 => store p.1 p.2 := by
  refine (operand_settles ins).bind fun p => (operand_settles p.2).bind fun q => ?_
  refine (target_settles q.2).bind fun t => ?_
  exact fun m => ⟨.done (t.1, f p.1 q.1) m.ip, fun _ => rfl⟩

theorem jumpIf_settles (wanted : Bool) (ins : Instruction) :
    Settles (jumpIf wanted ins) (Pure.pure : PUnit → Action PUnit) := by
  refine (operand_settles ins).bind fun p => ?_
  by_cases hTaken : (p.1 != 0) = wanted
  · simp only [if_pos hTaken]
    refine (operand_settles p.2).bind fun q => ?_
    exact fun m => ⟨.done ⟨⟩ q.1, fun _ => rfl⟩
  · simp only [if_neg hTaken]
    exact advance_settles

namespace Verdict

def exchange (b : Bench) : Verdict Effect → Option Exchange
  | .done effect _ => effect.exchange b
  | _ => none

/-- The verdict is to halt without an error. -/
def isHalt : Verdict Effect → Prop
  | .done .halt _ => True
  | _ => False

theorem exchange_map_of_silent {f : α → Effect} (v : Verdict α) (b : Bench)
    (h : ∀ a, (f a).exchange b = none) : (v.map f).exchange b = none := by
  cases v with
  | done a ip => exact h a
  | halts setback ip => rfl
  | crashes crash ip => rfl

theorem not_isHalt_map {f : α → Effect} (v : Verdict α) (h : ∀ a, f a ≠ .halt) :
    ¬(v.map f).isHalt := by
  cases v with
  | done a ip =>
    have hEffect := h a
    rw [map]
    cases hf : f a with
    | halt => exact absurd hf hEffect
    | _ => exact id
  | halts setback ip => exact id
  | crashes crash ip => exact id

end Verdict

/-- **An instruction comes to a verdict on its effect.**  The effect tells the exchange, and only
the halt instruction halts without an error. -/
theorem carryOut_settles (ins : Instruction) (m : Machine) :
    ∃ v : Verdict Effect, (v.isHalt ↔ ins.opcode = .halt) ∧
      ∀ b, carryOut ins (m.onto b) = v.bring act (m.onto b) ∧
        exchangeOf ins (m.onto b) = v.exchange b := by
  have hCombine : ∀ f : Int64 → Int64 → Int64, ∃ v : Verdict Effect, ¬v.isHalt ∧ ∀ b,
      combine f ins (m.onto b) = v.bring act (m.onto b) ∧ none = v.exchange b := by
    intro f
    obtain ⟨v, hv⟩ := combine_settles f ins m
    refine ⟨v.map fun p => .assign p.1 p.2, v.not_isHalt_map fun _ => nofun, fun b => ⟨?_, ?_⟩⟩
    · rw [hv b, Verdict.bring_map]
      rfl
    · exact (v.exchange_map_of_silent b fun _ => rfl).symm
  have hJump : ∀ wanted : Bool, ∃ v : Verdict Effect, ¬v.isHalt ∧ ∀ b,
      jumpIf wanted ins (m.onto b) = v.bring act (m.onto b) ∧ none = v.exchange b := by
    intro wanted
    obtain ⟨v, hv⟩ := jumpIf_settles wanted ins m
    refine ⟨v.map fun _ => .pass, v.not_isHalt_map fun _ => nofun, fun b => ⟨?_, ?_⟩⟩
    · rw [hv b, Verdict.bring_map]
      rfl
    · exact (v.exchange_map_of_silent b fun _ => rfl).symm
  have hPlain : ∀ {op : Opcode} {P : Verdict Effect → Prop}, op ≠ .halt →
      (∃ v, ¬v.isHalt ∧ P v) → ∃ v : Verdict Effect, (v.isHalt ↔ op = .halt) ∧ P v :=
    fun hOp ⟨v, hv, hP⟩ => ⟨v, iff_of_false hv hOp, hP⟩
  unfold carryOut exchangeOf
  cases ins.opcode with
  | add => exact hPlain nofun (hCombine _)
  | multiply => exact hPlain nofun (hCombine _)
  | lessThan => exact hPlain nofun (hCombine _)
  | equals => exact hPlain nofun (hCombine _)
  | jumpIfTrue => exact hPlain nofun (hJump true)
  | jumpIfFalse => exact hPlain nofun (hJump false)
  | input =>
    obtain ⟨v, hv⟩ := target_settles ins m
    refine hPlain nofun ⟨v.map fun p => .read p.1, v.not_isHalt_map fun _ => nofun,
      fun b => ⟨?_, ?_⟩⟩
    · rw [Verdict.bring_map]
      exact Verdict.bring_bind (hv b) _
    · simp only [hv b]
      cases v <;> rfl
  | output =>
    obtain ⟨v, hv⟩ := operand_settles ins m
    refine hPlain nofun ⟨v.map fun p => .emit p.1, v.not_isHalt_map fun _ => nofun,
      fun b => ⟨?_, ?_⟩⟩
    · rw [Verdict.bring_map]
      exact Verdict.bring_bind (hv b) _
    · simp only [hv b]
      cases v <;> rfl
  | adjustBase =>
    obtain ⟨v, hv⟩ := operand_settles ins m
    refine hPlain nofun ⟨v.map fun p => .rebase p.1, v.not_isHalt_map fun _ => nofun,
      fun b => ⟨?_, ?_⟩⟩
    · rw [Verdict.bring_map]
      exact Verdict.bring_bind (hv b) _
    · exact (v.exchange_map_of_silent b fun _ => rfl).symm
  | halt => exact ⟨.done .halt m.ip, iff_of_true trivial rfl, fun b => ⟨rfl, rfl⟩⟩

/-! ### Effects -/

theorem store_eq (address v : Int64) (m : Machine) :
    store address v m = match m.memory.store address [v] with
      | .ok () memory => .ok () { m with memory, bench := m.bench.note (.stored v address) }
      | .error (.fault f) memory => halt (some (.exec m.current (.memory f))) { m with memory }
      | .error (.crash c) memory => .error (.crash c) { m with memory } := by
  obtain ⟨memory, ip, base, current, steps, halted, imageFault, bench⟩ := m
  simp only [store, putCell]
  cases memory.store address [v] with
  | ok u memory => rfl
  | error e memory => cases e <;> rfl

theorem act_read_eq (address : Int64) (m : Machine) :
    act (.read address) m = match m.bench.read with
      | .ok v b => store address v (m.onto b)
      | .error (.io e) b => halt (some (.exec m.current (.input e))) (m.onto b)
      | .error (.crash c) b => .error (.crash c) (m.onto b) := by
  obtain ⟨memory, ip, base, current, steps, halted, imageFault, bench⟩ := m
  simp only [act, bind, EStateM.bind, read]
  cases bench.read with
  | ok v b => rfl
  | error e b => cases e <;> rfl

theorem emit_eq (v : Int64) (m : Machine) :
    emit v m = match (m.bench.note (.emitted v)).emit v with
      | .ok () b => .ok () (m.onto b)
      | .error (.io e) b => halt (some (.exec m.current (.output e))) (m.onto b)
      | .error (.crash c) b => .error (.crash c) (m.onto b) := by
  obtain ⟨memory, ip, base, current, steps, halted, imageFault, bench⟩ := m
  simp only [emit]
  cases (bench.note (.emitted v)).emit v with
  | ok u b => rfl
  | error e b => cases e <;> rfl

/-! ### Steps -/

/-- The instruction at the instruction pointer, if there is one. -/
def instruction? (m : Machine) : Option Instruction :=
  match m.memory.load m.ip with
  | .ok word => (Instruction.decode m.ip word).toOption
  | .error _ => none

/-- The machine while it looks for its instruction. -/
def atWork (m : Machine) : Machine := { m with current := m.ip }

/-- The machine when it has passed the word of an instruction and counted it. -/
def begun (m : Machine) (ins : Instruction) : Machine :=
  { m with current := m.ip, ip := m.ip + 1, steps := m.steps + 1,
           bench := m.bench.note (.exec ins m.base) }

/-- What a step comes to: there is no instruction, or there is one and it comes to a verdict. -/
inductive Course where
  | lost (setback : Setback)
  | wrecked (crash : Crash)
  | works (ins : Instruction) (verdict : Verdict Effect)

namespace Course

def follow (m : Machine) : Course → EStateM.Result Stop Machine Unit
  | .lost setback => halt (some (setback.error m.ip)) m.atWork
  | .wrecked crash => .error (.crash crash) m.atWork
  | .works ins verdict => verdict.bring act (m.begun ins)

def exchange (b : Bench) : Course → Option Exchange
  | .works _ verdict => verdict.exchange b
  | _ => none

def instruction? : Course → Option Instruction
  | .works ins _ => some ins
  | _ => none

/-- The course is to halt without an error. -/
def isHalt : Course → Prop
  | .works _ verdict => verdict.isHalt
  | _ => False

end Course

/-- What a step finds at its instruction pointer, on all benches. -/
theorem start_cases (m : Machine) :
    (∃ setback : Setback, m.instruction? = none ∧
      ∀ b, start (m.onto b) = halt (some (setback.error m.ip)) (m.onto b).atWork) ∨
    (∃ crash, m.instruction? = none ∧
      ∀ b, start (m.onto b) = .error (.crash crash) (m.onto b).atWork) ∨
    ∃ ins, m.instruction? = some ins ∧ ∀ b, start (m.onto b) = .ok ins ((m.onto b).begun ins) := by
  have hStart : ∀ b, start (m.onto b) = (load m.ip >>= fun word =>
      accept (Instruction.decode m.ip word)) (m.atWork.onto b) :=
    fun b => modify_bind.trans get_bind
  unfold instruction?
  cases hMemory : m.memory.load m.ip with
  | ok word =>
    have hLoad : ∀ b, load m.ip (m.atWork.onto b) = .ok word (m.atWork.onto b) := by
      intro b
      simp only [load_eq, onto, atWork, hMemory]
    simp only [hStart, fun b => bind_ok (hLoad b) (f := fun word =>
      accept (Instruction.decode m.ip word))]
    cases Instruction.decode m.ip word with
    | error e => exact .inl ⟨.undecodable e, rfl, fun b => rfl⟩
    | ok ins => exact .inr (.inr ⟨ins, rfl, fun b => rfl⟩)
  | error e =>
    cases e with
    | fault f =>
      have hLoad : ∀ b, load m.ip (m.atWork.onto b) =
          halt (some ((Setback.fault f).error m.ip)) (m.atWork.onto b) := by
        intro b
        simp only [load_eq, onto, atWork, hMemory]
      refine .inl ⟨.fault f, rfl, fun b => ?_⟩
      simp only [hStart, bind, EStateM.bind, hLoad]
      rfl
    | crash c =>
      have hLoad : ∀ b, load m.ip (m.atWork.onto b) = .error (.crash c) (m.atWork.onto b) := by
        intro b
        simp only [load_eq, onto, atWork, hMemory]
      refine .inr (.inl ⟨c, rfl, fun b => ?_⟩)
      simp only [hStart, bind, EStateM.bind, hLoad]
      rfl

theorem answer_note (b : Bench) (entry : Entry) : (b.note entry).answer = b.answer := by
  unfold Bench.answer Bench.read Bench.note
  cases b.input with
  | absent => rfl
  | constant v => rfl
  | queue values => cases values <;> rfl
  | camera socket =>
    cases hDevice : b.devices[socket]? with
    | none => simp only [hDevice]
    | some device => cases device <;> simp only [hDevice]

theorem Verdict.exchange_note (v : Verdict Effect) (b : Bench) (entry : Entry) :
    v.exchange (b.note entry) = v.exchange b := by
  cases v with
  | done effect ip => cases effect <;> simp only [exchange, Effect.exchange, answer_note]
  | halts setback ip => rfl
  | crashes crash ip => rfl

/-- **A step has one course on all benches.** -/
theorem step_course (m : Machine) :
    ∃ c : Course, c.instruction? = m.instruction? ∧
      (c.isHalt ↔ ∃ ins, m.instruction? = some ins ∧ ins.opcode = .halt) ∧
      ∀ b, step (m.onto b) = c.follow (m.onto b) ∧ exchange (m.onto b) = c.exchange b := by
  simp only [step_eq_start_bind]
  unfold exchange
  rcases start_cases m with ⟨setback, hNone, hStart⟩ | ⟨crash, hNone, hStart⟩ | ⟨ins, hSome, hStart⟩
  · refine ⟨.lost setback, hNone.symm, by simp [hNone, Course.isHalt], fun b => ⟨?_, ?_⟩⟩
    · simp only [bind, EStateM.bind, hStart]
      rfl
    · simp only [hStart]
      rfl
  · refine ⟨.wrecked crash, hNone.symm, by simp [hNone, Course.isHalt], fun b => ⟨?_, ?_⟩⟩
    · simp only [bind, EStateM.bind, hStart, Course.follow]
    · simp only [hStart, Course.exchange]
  · obtain ⟨v, hHalt, hv⟩ := carryOut_settles ins (m.begun ins)
    refine ⟨.works ins v, hSome.symm, by simp [hSome, Course.isHalt, hHalt], fun b => ?_⟩
    have hBegun : (m.begun ins).onto (b.note (.exec ins m.base)) = (m.onto b).begun ins := rfl
    obtain ⟨hCarry, hExchange⟩ := hv (b.note (.exec ins m.base))
    rw [hBegun] at hCarry hExchange
    refine ⟨(bind_ok (hStart b)).trans hCarry, ?_⟩
    simp only [hStart, hExchange, Course.exchange]
    exact v.exchange_note b _

end HullRobot.Machine
