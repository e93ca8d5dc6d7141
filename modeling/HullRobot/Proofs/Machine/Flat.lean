import HullRobot.Machine.Run
import HullRobot.Proofs.Memory.Map

/-!
# The flat machine

The flat machine has a flat memory and treats an instruction as a whole.  The cell of operand `k`
lies `k + 1` behind the instruction and its mode is the digit `k` of the word, so that no operand
waits for the one before it.  From the operands follows one `Effect`, which is then carried out.

A `Call` is what can be seen of a step from outside: what passed between the machine and its bench,
and how the machine was stopped.
-/

namespace HullRobot

/-- What passes between a machine and its bench. -/
inductive Exchange where
  /-- The machine reads, and this is what it gets. -/
  | asked (answer : Except Bench.Error Int64)
  /-- The machine emits a value. -/
  | told (value : Int64)

/-- What a step shows: the exchange it makes, and how it stops the machine. -/
structure Call where
  exchange : Option Exchange := none
  stop : Option Stop := none

/-- The calls of `n` steps, one after the other, and what is left after them. -/
def repeated {σ : Type} (call : σ → σ × Call) : Nat → σ → List Call × σ
  | 0, s => ([], s)
  | n + 1, s => ((call s).2 :: (repeated call n (call s).1).1, (repeated call n (call s).1).2)

/-- What a machine gets when it reads. -/
def Bench.answer (b : Bench) : Except Bench.Error Int64 :=
  match b.read with
  | .ok v _ => .ok v
  | .error e _ => .error e

structure FlatMachine where
  memory : Memory.FlatMemory
  ip : Int64 := 0
  base : Int64 := 0
  current : Int64 := 0
  steps : UInt64 := 0
  halted : Bool := false
  bench : Bench := {}

namespace FlatMachine

/-- Why an instruction cannot be carried out, and where the instruction pointer stays. -/
structure Trouble where
  ip : Int64
  error : RunError

/-- What an instruction does when its operands are known. -/
inductive Effect where
  | assign (address value : Int64)
  | read (address : Int64)
  | emit (value : Int64)
  | rebase (offset : Int64)
  /-- Only the instruction pointer moves. -/
  | pass
  | halt

/-- The exchange that an effect makes on a bench. -/
def Effect.exchange (bench : Bench) : Effect → Option Exchange
  | .read _ => some (.asked bench.answer)
  | .emit v => some (.told v)
  | _ => none

/-! ### Operands -/

def modeDigit (word : Int64) (k : Nat) : Nat := word.toNatClampNeg / 100 / Nat.pow 10 k % 10

/-- The address of the cell of operand `k`. -/
def place (s : FlatMachine) (k : Nat) : Int64 := s.current + 1 + Int64.ofNat k

/-- The cell at an address; a failure leaves the instruction pointer at `ip`. -/
def fetch (s : FlatMachine) (ip address : Int64) : Except Trouble Int64 :=
  (s.memory.load address).mapError fun fault => ⟨ip, .exec s.current (.memory fault)⟩

def badDigit (s : FlatMachine) (word : Int64) (k : Nat) (ip : Int64) : Trouble :=
  ⟨ip, .decoding (.malformedMode s.current word (modeDigit word k))⟩

/-- Operand `k` as a value. -/
def value (s : FlatMachine) (word : Int64) (k : Nat) : Except Trouble Int64 :=
  match Mode.ofDigit? (modeDigit word k) with
  | none => .error (s.badDigit word k (s.place k))
  | some mode => do
    let cell ← s.fetch (s.place k) (s.place k)
    match mode with
    | .position => s.fetch (s.place k) cell
    | .immediate => pure cell
    | .relative => s.fetch (s.place k) (cell + s.base)

/-- Operand `k` as the address to store to. -/
def destination (s : FlatMachine) (word : Int64) (k : Nat) : Except Trouble Int64 := do
  let cell ← s.fetch (s.place k) (s.place k)
  -- Unlike that of a value, the digit of a destination is looked at after its cell.
  match Mode.ofDigit? (modeDigit word k) with
  | none => throw (s.badDigit word k (s.place (k + 1)))
  | some .relative => pure (cell + s.base)
  | some _ => pure cell

/-! ### Instructions -/

def binary (s : FlatMachine) (word : Int64) (f : Int64 → Int64 → Int64) :
    Except Trouble (Int64 × Effect) := do
  let a ← s.value word 0
  let b ← s.value word 1
  let address ← s.destination word 2
  pure (s.place 3, .assign address (f a b))

def jump (s : FlatMachine) (word : Int64) (wanted : Int64 → Prop) [DecidablePred wanted] :
    Except Trouble (Int64 × Effect) := do
  let condition ← s.value word 0
  -- A jump that is not taken passes over the cell of its goal without a look at it.
  if wanted condition then
    let goal ← s.value word 1
    pure (goal, .pass)
  else pure (s.place 2, .pass)

/-- Where the instruction pointer goes and what else happens, for every operation. -/
def plan (s : FlatMachine) (word : Int64) : Opcode → Except Trouble (Int64 × Effect)
  | .add => s.binary word fun a b => a + b
  | .multiply => s.binary word fun a b => a * b
  | .input => do pure (s.place 1, .read (← s.destination word 0))
  | .output => do pure (s.place 1, .emit (← s.value word 0))
  | .jumpIfTrue => s.jump word fun v => v ≠ 0
  | .jumpIfFalse => s.jump word fun v => v = 0
  | .lessThan => s.binary word fun a b => if a < b then 1 else 0
  | .equals => s.binary word fun a b => if a = b then 1 else 0
  | .adjustBase => do pure (s.place 1, .rebase (← s.value word 0))
  | .halt => pure (s.place 0, .halt)

/-! ### Steps -/

def note (s : FlatMachine) (entry : Entry) : FlatMachine := { s with bench := s.bench.note entry }

/-- The error that a halt reports: a failed flush counts if there is no other. -/
def lastError (s : FlatMachine) (error : Option RunError) : Option RunError :=
  error <|> s.bench.flush.1.map .flush

def halt (s : FlatMachine) (error : Option RunError) : FlatMachine × Option Stop :=
  ({ s with halted := true, bench := s.bench.flush.2 }.note
      (Machine.farewell s.steps (s.lastError error)),
    some (.halt (s.lastError error)))

def fail (s : FlatMachine) (trouble : Trouble) : FlatMachine × Option Stop :=
  { s with ip := trouble.ip }.halt (some trouble.error)

def fault (s : FlatMachine) (error : ExecError) : FlatMachine × Option Stop :=
  s.halt (some (.exec s.current error))

def assign (s : FlatMachine) (address v : Int64) : FlatMachine × Option Stop :=
  match s.memory.refusal? .store address with
  | some refusal => s.fault (.memory refusal)
  | none => ({ s with memory := s.memory.put address [v] }.note (.stored v address), none)

/-- Carries out an effect. -/
def perform (s : FlatMachine) : Effect → FlatMachine × Option Stop
  | .assign address v => s.assign address v
  | .read address =>
    match s.bench.read with
    | .ok v bench => { s with bench }.assign address v
    | .error (.io e) bench => { s with bench }.fault (.input e)
    | .error (.crash c) bench => ({ s with bench }, some (.crash c))
  | .emit v =>
    match (s.bench.note (.emitted v)).emit v with
    | .ok () bench => ({ s with bench }, none)
    | .error (.io e) bench => { s with bench }.fault (.output e)
    | .error (.crash c) bench => ({ s with bench }, some (.crash c))
  | .rebase offset => ({ s with base := s.base + offset }, none)
  | .pass => (s, none)
  | .halt => s.halt none

/-- The machine while it works on the instruction at its instruction pointer. -/
def atWork (s : FlatMachine) : FlatMachine := { s with current := s.ip }

/-- The word at the instruction pointer, and what it is an instruction for. -/
def decoded (s : FlatMachine) : Except Trouble Instruction := do
  let word ← s.fetch s.ip s.ip
  (Instruction.decode s.ip word).mapError fun e => ⟨s.ip, .decoding e⟩

def counted (s : FlatMachine) (ins : Instruction) : FlatMachine :=
  { s with steps := s.steps + 1 }.note (.exec ins s.base)

def silent (r : FlatMachine × Option Stop) : FlatMachine × Call := (r.1, { stop := r.2 })

def execute (s : FlatMachine) (ins : Instruction) : FlatMachine × Call :=
  match s.plan ins.word ins.opcode with
  | .error trouble => silent (s.fail trouble)
  | .ok (ip, effect) =>
    let (s', stop) := { s with ip }.perform effect
    (s', { exchange := effect.exchange s.bench, stop })

/-- Carries out the instruction at the instruction pointer. -/
def step (s : FlatMachine) : FlatMachine × Call :=
  match s.atWork.decoded with
  | .error trouble => silent (s.atWork.fail trouble)
  | .ok ins => (s.atWork.counted ins).execute ins

end FlatMachine

end HullRobot
