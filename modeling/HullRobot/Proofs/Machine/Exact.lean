import HullRobot.Proofs.Machine.Sturdy

/-!
# Addresses that wrap round

A machine adds up addresses in cells, where a sum can wrap round.  Beside it stands a machine that
adds them up as integers and faults at an integer that is no address (`Exact.step`).  The two take
the same steps as long as no sum lies so far below 0 that it comes round to an address.

* `Shadows`: an action does what its exact counterpart does, or the counterpart stops at such a sum.
  `Shadows.bind`: this carries over to actions that are made of others.
* `step_shadows`: **a step is the exact one, unless a sum comes round to an address.**
* `carryOut_moves`: **an instruction that is no jump passes its operands.**  `step_moves`: the
  instruction pointer wraps round only behind a jump that is not taken, at the last place for one.
-/

namespace HullRobot

/-! ### Addresses -/

/-- How many operand cells an operation has. -/
def Opcode.operands : Opcode → Nat
  | .add | .multiply | .lessThan | .equals => 3
  | .jumpIfTrue | .jumpIfFalse => 2
  | .input | .output | .adjustBase => 1
  | .halt => 0

/-- A jump is taken if its first operand is not 0, or if it is. -/
def Opcode.jumpsIf? : Opcode → Option Bool
  | .jumpIfTrue => some true
  | .jumpIfFalse => some false
  | _ => none

namespace Memory

/-- The integer is an address. -/
def IsAddress (i : Int) : Prop := 0 ≤ i ∧ i < addressStop

instance (i : Int) : Decidable (IsAddress i) := inferInstanceAs (Decidable (_ ∧ _))

theorem checkRange_invalid {limit a : Int64} {access : Access} (h : ¬IsAddress a.toInt) :
    checkRange limit access a 1 = .error (.invalidAddress access a) := by
  refine if_pos ?_
  rw [neg_iff_toInt]
  by_cases hNeg : a.toInt < 0
  · exact .inl hNeg
  · have hNat := toNat_eq_toInt (Int.not_lt.mp hNeg)
    simp only [IsAddress, not_and, Int.not_lt] at h
    have hTop := h (Int.not_lt.mp hNeg)
    omega

theorem isAddress_of_accepts {limit a : Int64} (h : Accepts limit a 1) : IsAddress a.toInt := by
  obtain ⟨hNeg, hTop, -⟩ := h
  exact ⟨hNeg, by omega⟩

theorem checkRange_honest {limit a b : Int64} {access access' : Access}
    (h : checkRange limit access a 1 = .error (.invalidAddress access' b)) :
    ¬IsAddress b.toInt := by
  rintro ⟨hNeg, hTop⟩
  simp only [checkRange] at h
  split at h
  · next hBad =>
    cases h
    have hNat := toNat_eq_toInt hNeg
    rw [neg_iff_toInt] at hBad
    omega
  · split at h <;> cases h

/-- A load is told the fault of its check, and it succeeds only past the check. -/
theorem checkRange_of_load {m : Memory} {a : Int64} :
    (∀ f, m.load a = .error (.fault f) → checkRange m.limit .load a 1 = .error f) ∧
      ∀ v, m.load a = .ok v → checkRange m.limit .load a 1 = .ok () := by
  unfold load
  cases checkRange m.limit .load a 1 with
  | error f =>
    constructor
    · rintro f' ⟨⟩
      rfl
    · nofun
  | ok u =>
    refine ⟨fun f h => ?_, fun v h => rfl⟩
    dsimp only at h
    split at h
    · cases h
    · split at h <;> cases h

theorem checkRange_of_store {m m' : Memory} {a v : Int64} {f : Fault}
    (h : m.store a [v] = .error (.fault f) m') : checkRange m.limit .store a 1 = .error f := by
  cases hCheck : checkRange m.limit .store a 1 with
  | error f' =>
    rw [store_refused (List.cons_ne_nil v []) hCheck] at h
    cases h
    rfl
  | ok u =>
    rw [store, List.isEmpty_cons, if_neg Bool.false_ne_true, List.length_singleton, hCheck] at h
    obtain ⟨c, hCrash⟩ := storeFrom_error h
    cases hCrash

/-- A sum of two cells comes round to an address only from far below 0. -/
theorem wraps_iff {i : Int} (hLow : -18446744073709551616 ≤ i) (hHigh : i < 18446744073709551615) :
    ¬IsAddress i ∧ IsAddress (Int64.ofInt i).toInt ↔ i < -9223372036854775809 := by
  simp only [IsAddress, addressStop, Int64.toInt_ofInt, Int64.size, Int.bmod]
  constructor
  · rintro ⟨hNone, hSome⟩
    split at hSome <;> omega
  · intro hBelow
    split <;> omega

end Memory

namespace Machine

open Memory (IsAddress)

variable {α β : Type} {m : Machine}

/-! ### The exact machine -/

namespace Exact

/-- Faults if the integer is no address. -/
def check (access : Access) (i : Int) : Action Unit :=
  if IsAddress i then pure () else fault (.memory (.invalidAddress access (Int64.ofInt i)))

def load (i : Int) : Action Int64 := do
  check .load i
  Machine.load (Int64.ofInt i)

def store (i : Int) (v : Int64) : Action Unit := do
  check .store i
  Machine.store (Int64.ofInt i) v

/-- The integer that an operand cell stands for as an address. -/
def address (mode : Mode) (cell base : Int64) : Int :=
  match mode with
  | .relative => cell.toInt + base.toInt
  | _ => cell.toInt

def resolve (mode : Mode) (cell : Int64) : Action Int64 := do
  match mode with
  | .immediate => pure cell
  | mode => load (address mode cell (← get).base)

def operand (ins : Instruction) : Action (Int64 × Instruction) := do
  let (mode, ins) ← nextMode ins
  let cell ← Machine.load (← get).ip
  let value ← resolve mode cell
  advance
  pure (value, ins)

def target (ins : Instruction) : Action (Int × Instruction) := do
  let cell ← Machine.load (← get).ip
  advance
  let (mode, ins) ← nextMode ins
  pure (address mode cell (← get).base, ins)

def combine (f : Int64 → Int64 → Int64) (ins : Instruction) : Action Unit := do
  let (a, ins) ← operand ins
  let (b, ins) ← operand ins
  let (i, _) ← target ins
  store i (f a b)

def jumpIf (wanted : Bool) (ins : Instruction) : Action Unit := do
  let (condition, ins) ← operand ins
  if (condition != 0) = wanted then
    let (destination, _) ← operand ins
    modify fun m => { m with ip := destination }
  else advance

def carryOut (ins : Instruction) : Action Unit :=
  match ins.opcode with
  | .add => combine (· + ·) ins
  | .multiply => combine (· * ·) ins
  | .input => do
    let (i, _) ← target ins
    store i (← read)
  | .output => do
    let (v, _) ← operand ins
    emit v
  | .jumpIfTrue => jumpIf true ins
  | .jumpIfFalse => jumpIf false ins
  | .lessThan => combine (fun a b => truth (a < b)) ins
  | .equals => combine (fun a b => truth (a = b)) ins
  | .adjustBase => do
    let (v, _) ← operand ins
    modify fun m => { m with base := m.base + v }
  | .halt => halt none

/-- Carries out the instruction at the instruction pointer with exact addresses. -/
def step : Action Unit := do
  let ins ← start
  carryOut ins

end Exact

/-- The instruction is a jump, and it is taken. -/
def takesJump (m : Machine) : Bool :=
  match m.instruction? with
  | none => false
  | some ins =>
    match ins.opcode.jumpsIf?, operand ins (m.begun ins) with
    | some wanted, .ok (condition, _) _ => (condition != 0) == wanted
    | _, _ => false

/-! ### Shadows -/

/-- The machine stops at a sum that is no address, but that comes round to one. -/
def Mistaken (stop : Stop) : Prop :=
  ∃ place access a, stop = .halt (some (.exec place (.memory (.invalidAddress access a)))) ∧
    IsAddress a.toInt

/-- The action is stopped in this way. -/
def Misled (r : EStateM.Result Stop Machine α) : Prop :=
  ∃ stop, failure? r = some stop ∧ Mistaken stop

/-- The action stops at no such sum. -/
def Honest (x : Action α) : Prop := ∀ m stop m', x m = .error stop m' → ¬Mistaken stop

/-- From `m` the exact action `y` does what `x` does, unless it stops at such a sum. -/
structure Shadows (m : Machine) (x y : Action α) : Prop where
  honest : ∀ stop m', x m = .error stop m' → ¬Mistaken stop
  same : y m = x m ∨ Misled (y m) ∧ m.base.toInt < -1

theorem Shadows.not_misled {x y : Action α} (h : Shadows m x y) : ¬Misled (x m) := by
  rintro ⟨stop, hStop, hMistaken⟩
  exact h.honest stop _ (eq_error_of_failure? hStop) hMistaken

theorem Honest.shadows {x : Action α} (h : Honest x) (m : Machine) : Shadows m x x :=
  ⟨h m, .inl rfl⟩

theorem bind_error {x : Action α} {f : α → Action β} {m m' : Machine} {stop : Stop}
    (h : x m = .error stop m') : (x >>= f) m = .error stop m' := by
  simp only [bind, EStateM.bind, h]

theorem bind_eq_ok {x : Action α} {f : α → Action β} {m m' : Machine} {b : β}
    (h : (x >>= f) m = .ok b m') : ∃ a m₁, x m = .ok a m₁ ∧ f a m₁ = .ok b m' := by
  cases hFirst : x m with
  | ok a m₁ => exact ⟨a, m₁, rfl, (bind_ok hFirst).symm.trans h⟩
  | error stop m₁ =>
    rw [bind_error hFirst] at h
    cases h

theorem not_mistaken_bind {x : Action α} {f : α → Action β} {stop : Stop} {m' : Machine}
    (hx : ∀ stop m', x m = .error stop m' → ¬Mistaken stop)
    (hf : ∀ a m₁, x m = .ok a m₁ → ∀ stop m', f a m₁ = .error stop m' → ¬Mistaken stop)
    (h : (x >>= f) m = .error stop m') : ¬Mistaken stop := by
  cases hFirst : x m with
  | ok a m₁ => exact hf a m₁ hFirst stop m' ((bind_ok hFirst).symm.trans h)
  | error stop' m₁ =>
    rw [bind_error hFirst] at h
    cases h
    exact hx stop m' hFirst

theorem Honest.bind {x : Action α} {f : α → Action β} (hx : Honest x) (hf : ∀ a, Honest (f a)) :
    Honest (x >>= f) := by
  intro m stop m' h
  exact not_mistaken_bind (hx m) (fun a m₁ _ => hf a m₁) h

theorem Honest.get {f : Machine → Action β} (hf : ∀ m, Honest (f m)) :
    Honest (MonadState.get >>= f) := by
  intro m stop m' h
  rw [get_bind] at h
  exact hf m m stop m' h

theorem Shadows.bind {x y : Action α} {f g : α → Action β} (hx : Shadows m x y)
    (hNext : ∀ a m', x m = .ok a m' → m'.base = m.base ∧ Shadows m' (f a) (g a)) :
    Shadows m (x >>= f) (y >>= g) := by
  constructor
  · intro stop m' h
    exact not_mistaken_bind hx.honest (fun a m₁ hFirst => (hNext a m₁ hFirst).2.honest) h
  · rcases hx.same with hSame | ⟨⟨stop, hStop, hMistaken⟩, hBase⟩
    · cases hFirst : x m with
      | ok a m₁ =>
        obtain ⟨hKept, hRest⟩ := hNext a m₁ hFirst
        rw [hFirst] at hSame
        rw [bind_ok hFirst, bind_ok hSame, ← hKept]
        exact hRest.same
      | error stop m₁ =>
        rw [hFirst] at hSame
        exact .inl ((bind_error hSame).trans (bind_error hFirst).symm)
    · have hError := eq_error_of_failure? hStop
      refine .inr ⟨⟨stop, ?_, hMistaken⟩, hBase⟩
      rw [bind_error hError, failure?]

theorem Shadows.of_eq {x x' y y' : Action α} (h : Shadows m x y) (hx : x' m = x m)
    (hy : y' m = y m) : Shadows m x' y' := by
  refine ⟨?_, ?_⟩
  · rw [hx]
    exact h.honest
  · rw [hx, hy]
    exact h.same

theorem Shadows.get {f g : Machine → Action β} (h : Shadows m (f m) (g m)) :
    Shadows m (MonadState.get >>= f) (MonadState.get >>= g) := h.of_eq get_bind get_bind

/-- What only moves the instruction pointer keeps the base. -/
theorem Settles.base_eq {x : Action α} (h : Settles x Pure.pure) {a : α} {m' : Machine}
    (hOk : x m = .ok a m') : m'.base = m.base := by
  obtain ⟨v, hv⟩ := h m
  have hHere := hv m.bench
  rw [onto_bench, hOk] at hHere
  cases v with
  | done a ip =>
    cases hHere
    rfl
  | halts setback ip => cases hHere
  | crashes crash ip => cases hHere

/-! ### Single actions -/

theorem not_mistaken_crash (c : Crash) : ¬Mistaken (.crash c) := nofun

theorem not_mistaken_halt {cause : RunError}
    (h : ∀ place access a, cause = .exec place (.memory (.invalidAddress access a)) →
      ¬IsAddress a.toInt) (m : Machine) {stop : Stop} {m' : Machine}
    (hHalt : (halt (some cause) m : EStateM.Result Stop Machine α) = .error stop m') :
    ¬Mistaken stop := by
  rw [halt_eq] at hHalt
  cases hHalt
  rintro ⟨place, access, a, hStop, hAddress⟩
  cases hStop
  exact h place access a rfl hAddress

theorem load_honest (a : Int64) : Honest (load a) := by
  intro m stop m' h
  rw [load_eq] at h
  cases hLoad : m.memory.load a with
  | ok v =>
    rw [hLoad] at h
    cases h
  | error e =>
    rw [hLoad] at h
    cases e with
    | crash c =>
      cases h
      exact not_mistaken_crash c
    | fault f =>
      refine not_mistaken_halt (fun place access b hCause => ?_) m h
      cases hCause
      exact Memory.checkRange_honest (Memory.checkRange_of_load.1 _ hLoad)

theorem store_honest (a v : Int64) : Honest (store a v) := by
  intro m stop m' h
  rw [store_eq] at h
  cases hStore : m.memory.store a [v] with
  | ok u memory =>
    rw [hStore] at h
    cases h
  | error e memory =>
    rw [hStore] at h
    cases e with
    | crash c =>
      cases h
      exact not_mistaken_crash c
    | fault f =>
      refine not_mistaken_halt (fun place access b hCause => ?_) _ h
      cases hCause
      exact Memory.checkRange_honest (Memory.checkRange_of_store hStore)

theorem read_honest : Honest read := by
  intro m stop m' h
  rw [read_eq] at h
  cases hRead : m.bench.read with
  | ok v b =>
    rw [hRead] at h
    cases h
  | error e b =>
    rw [hRead] at h
    cases e with
    | crash c =>
      cases h
      exact not_mistaken_crash c
    | io e => exact not_mistaken_halt (fun place access a hCause => by cases hCause) _ h

theorem read_ok {v : Int64} {m' : Machine} (h : read m = .ok v m') : ∃ b, m' = m.onto b := by
  rw [read_eq] at h
  cases hRead : m.bench.read with
  | ok v' b =>
    rw [hRead] at h
    cases h
    exact ⟨b, rfl⟩
  | error e b =>
    rw [hRead] at h
    cases e <;> cases h

theorem emit_honest (v : Int64) : Honest (emit v) := by
  intro m stop m' h
  rw [emit_eq] at h
  cases hEmit : (m.bench.note (.emitted v)).emit v with
  | ok u b =>
    rw [hEmit] at h
    cases h
  | error e b =>
    rw [hEmit] at h
    cases e with
    | crash c =>
      cases h
      exact not_mistaken_crash c
    | io e => exact not_mistaken_halt (fun place access a hCause => by cases hCause) _ h

theorem nextMode_honest (ins : Instruction) : Honest (nextMode ins) := by
  intro m stop m' h
  unfold nextMode at h
  cases hMode : ins.nextMode with
  | mk mode rest =>
    rw [hMode] at h
    cases mode with
    | ok mode => cases h
    | error e => exact not_mistaken_halt (fun place access a hCause => by cases hCause) m h

theorem halt_honest : Honest (halt none : Action α) := by
  intro m stop m' h
  rw [halt_eq] at h
  cases h
  rintro ⟨place, access, a, hStop, -⟩
  have hError : m.bench.flush.1.map RunError.flush = _ := Stop.halt.inj hStop
  obtain ⟨e, -, hFlush⟩ := Option.map_eq_some_iff.mp hError
  cases hFlush

theorem pure_honest (a : α) : Honest (pure a) := by
  intro m stop m' h
  cases h

theorem modify_honest (g : Machine → Machine) : Honest (modify g) := by
  intro m stop m' h
  cases h

/-! ### Operands -/

/-- An access to memory is the exact one, unless the integer comes round to an address. -/
theorem check_shadows {x : Action α} {access : Access} {i : Int} (hHonest : Honest x)
    (hFault : ¬IsAddress (Int64.ofInt i).toInt →
      x m = fault (.memory (.invalidAddress access (Int64.ofInt i))) m)
    (hBase : ¬IsAddress i → IsAddress (Int64.ofInt i).toInt → m.base.toInt < -1) :
    Shadows m x (Exact.check access i >>= fun _ => x) := by
  refine ⟨hHonest m, ?_⟩
  unfold Exact.check
  by_cases hExact : IsAddress i
  · rw [if_pos hExact]
    exact .inl rfl
  · rw [if_neg hExact]
    by_cases hWrapped : IsAddress (Int64.ofInt i).toInt
    · exact .inr ⟨⟨_, rfl, m.current, access, Int64.ofInt i, rfl, hWrapped⟩, hBase hExact hWrapped⟩
    · rw [hFault hWrapped]
      exact .inl rfl

theorem load_shadows {i : Int}
    (hBase : ¬IsAddress i → IsAddress (Int64.ofInt i).toInt → m.base.toInt < -1) :
    Shadows m (load (Int64.ofInt i)) (Exact.load i) := by
  refine check_shadows (load_honest _) (fun hNone => ?_) hBase
  rw [load_eq, Memory.load, Memory.checkRange_invalid hNone]
  rfl

theorem store_shadows {i : Int} (v : Int64)
    (hBase : ¬IsAddress i → IsAddress (Int64.ofInt i).toInt → m.base.toInt < -1) :
    Shadows m (store (Int64.ofInt i) v) (Exact.store i v) := by
  refine check_shadows (store_honest _ v) (fun hNone => ?_) hBase
  rw [store_eq, Memory.store_refused (List.cons_ne_nil v []) (Memory.checkRange_invalid hNone)]
  rfl

/-- Only a base below -1 lets the address of an operand come round. -/
theorem base_of_address {mode : Mode} {cell base : Int64}
    (h : ¬IsAddress (Exact.address mode cell base))
    (hWrapped : IsAddress (Int64.ofInt (Exact.address mode cell base)).toInt) :
    base.toInt < -1 := by
  have hCell := cell.minValue_le_toInt
  have hCell' := cell.toInt_le
  have hBase := base.minValue_le_toInt
  have hBase' := base.toInt_le
  simp only [show Int64.minValue.toInt = -9223372036854775808 from rfl,
    show Int64.maxValue.toInt = 9223372036854775807 from rfl] at hCell hCell' hBase hBase'
  cases mode with
  | relative =>
    have := (Memory.wraps_iff (i := cell.toInt + base.toInt) (by omega) (by omega)).mp ⟨h, hWrapped⟩
    omega
  | position =>
    change IsAddress (Int64.ofInt cell.toInt).toInt at hWrapped
    rw [Int64.ofInt_toInt] at hWrapped
    exact absurd hWrapped h
  | immediate =>
    change IsAddress (Int64.ofInt cell.toInt).toInt at hWrapped
    rw [Int64.ofInt_toInt] at hWrapped
    exact absurd hWrapped h

theorem ofInt_address (mode : Mode) (cell base : Int64) :
    Int64.ofInt (Exact.address mode cell base) =
      match mode with
      | .relative => cell + base
      | _ => cell := by
  cases mode with
  | relative => rw [Exact.address, Int64.ofInt_add, Int64.ofInt_toInt, Int64.ofInt_toInt]
  | position => exact Int64.ofInt_toInt cell
  | immediate => exact Int64.ofInt_toInt cell

theorem resolve_shadows (mode : Mode) (cell : Int64) (m : Machine) :
    Shadows m (resolve mode cell) (Exact.resolve mode cell) := by
  have hLoad : ∀ mode, Shadows m (load (Int64.ofInt (Exact.address mode cell m.base)))
      (Exact.load (Exact.address mode cell m.base)) := fun mode => load_shadows base_of_address
  simp only [ofInt_address] at hLoad
  cases mode with
  | immediate => exact (pure_honest cell).shadows m
  | position => exact (hLoad .position).of_eq rfl get_bind
  | relative => exact (hLoad .relative).of_eq get_bind get_bind

theorem operand_shadows (ins : Instruction) (m : Machine) :
    Shadows m (operand ins) (Exact.operand ins) := by
  refine ((nextMode_honest ins).shadows m).bind fun p m₁ hMode => ?_
  refine ⟨(nextMode_settles ins).base_eq hMode, .get ?_⟩
  refine ((load_honest _).shadows m₁).bind fun cell m₂ hCell => ?_
  refine ⟨(load_settles _).base_eq hCell, ?_⟩
  refine (resolve_shadows p.1 cell m₂).bind fun v m₃ hValue => ?_
  refine ⟨(resolve_settles p.1 cell).base_eq hValue, ?_⟩
  refine ((modify_honest _).shadows m₃).bind fun _ m₄ hMove => ?_
  exact ⟨advance_settles.base_eq hMove, (pure_honest _).shadows m₄⟩

theorem target_eq (ins : Instruction) :
    target ins = Exact.target ins >>= fun p => pure (Int64.ofInt p.1, p.2) := by
  simp only [target, Exact.target, bind_assoc, pure_bind, ofInt_address]
  refine bind_congr fun m => bind_congr fun cell => bind_congr fun _ => bind_congr fun p => ?_
  obtain ⟨mode, rest⟩ := p
  cases mode <;> rfl

theorem exactTarget_honest (ins : Instruction) : Honest (Exact.target ins) := by
  refine .get fun m => (load_honest m.ip).bind fun cell => (modify_honest _).bind fun _ => ?_
  exact (nextMode_honest ins).bind fun p => .get fun m => pure_honest _

theorem exactTarget_ok {ins rest : Instruction} {i : Int} {m' : Machine}
    (h : Exact.target ins m = .ok (i, rest) m') :
    m'.base = m.base ∧ ∃ mode cell, i = Exact.address mode cell m'.base := by
  rw [Exact.target, get_bind] at h
  obtain ⟨cell, m₁, hCell, h⟩ := bind_eq_ok h
  obtain ⟨_, m₂, hMove, h⟩ := bind_eq_ok h
  obtain ⟨⟨mode, rest'⟩, m₃, hMode, h⟩ := bind_eq_ok h
  cases h
  refine ⟨?_, mode, cell, rfl⟩
  rw [(nextMode_settles ins).base_eq hMode, advance_settles.base_eq hMove,
    (load_settles _).base_eq hCell]

/-- What is done with a target is done to the exact one. -/
theorem target_bind_shadows {ins : Instruction} (next : Int64 → Action β) (next' : Int → Action β)
    (h : ∀ m' mode cell, Shadows m' (next (Int64.ofInt (Exact.address mode cell m'.base)))
      (next' (Exact.address mode cell m'.base))) :
    Shadows m (target ins >>= fun p => next p.1) (Exact.target ins >>= fun p => next' p.1) := by
  rw [target_eq, bind_assoc]
  refine ((exactTarget_honest ins).shadows m).bind fun p m' hTarget => ?_
  obtain ⟨hBase, mode, cell, hAddress⟩ := exactTarget_ok hTarget
  rw [pure_bind, hAddress]
  exact ⟨hBase, h m' mode cell⟩

/-! ### Instructions -/

theorem combine_shadows (f : Int64 → Int64 → Int64) (ins : Instruction) (m : Machine) :
    Shadows m (combine f ins) (Exact.combine f ins) := by
  refine (operand_shadows ins m).bind fun p m₁ hFirst => ?_
  refine ⟨(operand_settles ins).base_eq hFirst, ?_⟩
  refine (operand_shadows p.2 m₁).bind fun q m₂ hSecond => ?_
  refine ⟨(operand_settles p.2).base_eq hSecond, ?_⟩
  exact target_bind_shadows (fun a => store a (f p.1 q.1)) (fun i => Exact.store i (f p.1 q.1))
    fun m' mode cell => store_shadows (f p.1 q.1) base_of_address

theorem jumpIf_shadows (wanted : Bool) (ins : Instruction) (m : Machine) :
    Shadows m (jumpIf wanted ins) (Exact.jumpIf wanted ins) := by
  refine (operand_shadows ins m).bind fun p m₁ hCondition => ?_
  refine ⟨(operand_settles ins).base_eq hCondition, ?_⟩
  by_cases hTaken : (p.1 != 0) = wanted
  · simp only [if_pos hTaken]
    refine (operand_shadows p.2 m₁).bind fun q m₂ hGoal => ?_
    exact ⟨(operand_settles p.2).base_eq hGoal, (modify_honest _).shadows m₂⟩
  · simp only [if_neg hTaken]
    exact (modify_honest _).shadows m₁

theorem carryOut_shadows (ins : Instruction) (m : Machine) :
    Shadows m (carryOut ins) (Exact.carryOut ins) := by
  unfold carryOut Exact.carryOut
  cases ins.opcode with
  | add => exact combine_shadows _ ins m
  | multiply => exact combine_shadows _ ins m
  | lessThan => exact combine_shadows _ ins m
  | equals => exact combine_shadows _ ins m
  | jumpIfTrue => exact jumpIf_shadows true ins m
  | jumpIfFalse => exact jumpIf_shadows false ins m
  | input =>
    refine target_bind_shadows (fun a => read >>= store a) (fun i => read >>= Exact.store i)
      fun m₁ mode cell => ?_
    refine (read_honest.shadows m₁).bind fun v m₂ hRead => ?_
    obtain ⟨b, rfl⟩ := read_ok hRead
    exact ⟨rfl, store_shadows v base_of_address⟩
  | output =>
    refine (operand_shadows ins m).bind fun p m₁ hValue => ?_
    exact ⟨(operand_settles ins).base_eq hValue, (emit_honest p.1).shadows m₁⟩
  | adjustBase =>
    refine (operand_shadows ins m).bind fun p m₁ hValue => ?_
    exact ⟨(operand_settles ins).base_eq hValue, (modify_honest _).shadows m₁⟩
  | halt => exact halt_honest.shadows m

theorem start_honest : Honest start := by
  refine (modify_honest _).bind fun _ => .get fun m => (load_honest _).bind fun word => ?_
  unfold accept
  cases Instruction.decode m.current word with
  | error e =>
    intro m stop m' h
    exact not_mistaken_halt (fun place access a hCause => by cases hCause) m h
  | ok ins =>
    refine .bind ?_ fun _ => pure_honest ins
    exact (modify_honest _).bind fun _ => .get fun m => modify_honest _

theorem start_ok {ins : Instruction} {m' : Machine} (h : start m = .ok ins m') :
    m.instruction? = some ins ∧ m' = m.begun ins := by
  rcases start_cases m with ⟨setback, -, hStart⟩ | ⟨crash, -, hStart⟩ | ⟨ins', hIns, hStart⟩
  all_goals
    have hHere := hStart m.bench
    rw [onto_bench, h] at hHere
    cases hHere
  exact ⟨hIns, rfl⟩

/-- **A step is the exact one, unless a sum comes round to an address.** -/
theorem step_shadows (m : Machine) : Shadows m step Exact.step := by
  rw [step_eq_start_bind]
  refine (start_honest.shadows m).bind fun ins m₁ hStart => ?_
  obtain ⟨-, rfl⟩ := start_ok hStart
  exact ⟨rfl, carryOut_shadows ins _⟩

/-! ### The instruction pointer -/

/-- If the action succeeds, the instruction pointer has moved by `n` cells without wrapping round,
and the same instruction is at work. -/
def Moves (n : Nat) (x : Action α) : Prop :=
  ∀ m a m', x m = .ok a m' → m'.ip.toInt = m.ip.toInt + n ∧ m'.current = m.current

theorem Moves.bind {n k : Nat} {x : Action α} {f : α → Action β} (hx : Moves n x)
    (hf : ∀ a, Moves k (f a)) : Moves (n + k) (x >>= f) := by
  intro m b m' h
  obtain ⟨a, m₁, hFirst, hRest⟩ := bind_eq_ok h
  obtain ⟨hIp, hCurrent⟩ := hx m a m₁ hFirst
  obtain ⟨hIp', hCurrent'⟩ := hf a m₁ b m' hRest
  refine ⟨?_, hCurrent'.trans hCurrent⟩
  rw [hIp', hIp]
  omega

theorem Moves.get {n : Nat} {f : Machine → Action β} (hf : ∀ m, Moves n (f m)) :
    Moves n (MonadState.get >>= f) := by
  intro m b m' h
  rw [get_bind] at h
  exact hf m m b m' h

theorem Moves.of_same {x : Action α}
    (h : ∀ m a m', x m = .ok a m' → m'.ip = m.ip ∧ m'.current = m.current) : Moves 0 x := by
  intro m a m' hOk
  obtain ⟨hIp, hCurrent⟩ := h m a m' hOk
  exact ⟨by rw [hIp]; exact (Int.add_zero _).symm, hCurrent⟩

theorem pure_moves (a : α) : Moves 0 (pure a) := by
  refine .of_same fun m b m' h => ?_
  cases h
  exact ⟨rfl, rfl⟩

theorem halt_moves (n : Nat) (cause : Option RunError) : Moves n (halt cause : Action α) := by
  intro m b m' h
  rw [halt_eq] at h
  cases h

theorem load_ok {a v : Int64} {m' : Machine} (h : load a m = .ok v m') :
    m' = m ∧ IsAddress a.toInt := by
  rw [load_eq] at h
  cases hLoad : m.memory.load a with
  | ok v' =>
    rw [hLoad] at h
    cases h
    have hCheck := Memory.checkRange_of_load.2 _ hLoad
    exact ⟨rfl, Memory.isAddress_of_accepts (Memory.checkRange_ok_iff.mp hCheck)⟩
  | error e =>
    rw [hLoad] at h
    cases e <;> cases h

theorem load_moves (a : Int64) : Moves 0 (load a) := by
  refine .of_same fun m v m' h => ?_
  obtain ⟨rfl, -⟩ := load_ok h
  exact ⟨rfl, rfl⟩

theorem nextMode_moves (ins : Instruction) : Moves 0 (nextMode ins) := by
  unfold nextMode
  obtain ⟨mode, rest⟩ := ins.nextMode
  cases mode with
  | ok mode => exact pure_moves _
  | error e => exact halt_moves 0 _

theorem resolve_moves (mode : Mode) (cell : Int64) : Moves 0 (resolve mode cell) := by
  cases mode with
  | position => exact load_moves cell
  | immediate => exact pure_moves cell
  | relative => exact .get fun m => load_moves _

theorem store_moves (a v : Int64) : Moves 0 (store a v) := by
  refine .of_same fun m u m' h => ?_
  rw [store_eq] at h
  cases hStore : m.memory.store a [v] with
  | ok u memory =>
    rw [hStore] at h
    cases h
    exact ⟨rfl, rfl⟩
  | error e memory =>
    rw [hStore] at h
    cases e <;> cases h

theorem read_moves : Moves 0 read := by
  refine .of_same fun m v m' h => ?_
  obtain ⟨b, rfl⟩ := read_ok h
  exact ⟨rfl, rfl⟩

theorem emit_moves (v : Int64) : Moves 0 (emit v) := by
  refine .of_same fun m u m' h => ?_
  rw [emit_eq] at h
  cases hEmit : (m.bench.note (.emitted v)).emit v with
  | ok u b =>
    rw [hEmit] at h
    cases h
    exact ⟨rfl, rfl⟩
  | error e b =>
    rw [hEmit] at h
    cases e <;> cases h

/-- Behind an address there is no need to wrap round. -/
theorem toInt_succ {a : Int64} (h : a.toInt < Memory.addressStop) :
    (a + 1).toInt = a.toInt + 1 := by
  have hLow := a.le_toInt
  simp only [Memory.addressStop] at h
  rw [Int64.toInt_add, show (1 : Int64).toInt = 1 from rfl, Int.bmod]
  split <;> omega

/-- **The instruction pointer passes an operand whose cell has been looked at.** -/
theorem operand_moves (ins : Instruction) : Moves 1 (operand ins) := by
  intro m p m' h
  rw [operand] at h
  obtain ⟨⟨mode, rest⟩, m₁, hMode, h⟩ := bind_eq_ok h
  obtain ⟨_, _, hGet, h⟩ := bind_eq_ok h
  cases hGet
  obtain ⟨cell, m₂, hCell, h⟩ := bind_eq_ok h
  obtain ⟨v, m₃, hValue, h⟩ := bind_eq_ok h
  cases h
  obtain ⟨hIp₁, hCurrent₁⟩ := nextMode_moves ins m _ m₁ hMode
  obtain ⟨rfl, hAddress⟩ := load_ok hCell
  obtain ⟨hIp₃, hCurrent₃⟩ := resolve_moves mode cell m₂ v m₃ hValue
  have hSame : m₃.ip = m₂.ip := Int64.toInt_inj.mp (by omega)
  refine ⟨?_, hCurrent₃.trans hCurrent₁⟩
  rw [← hSame] at hAddress
  rw [toInt_succ hAddress.2, hIp₃, hIp₁]
  omega

theorem target_moves (ins : Instruction) : Moves 1 (target ins) := by
  rw [target_eq]
  intro m p m' h
  obtain ⟨⟨i, rest⟩, m₄, hTarget, hPure⟩ := bind_eq_ok h
  cases hPure
  rw [Exact.target, get_bind] at hTarget
  obtain ⟨cell, m₁, hCell, h⟩ := bind_eq_ok hTarget
  obtain ⟨_, m₂, hMove, h⟩ := bind_eq_ok h
  obtain ⟨⟨mode, rest'⟩, m₃, hMode, h⟩ := bind_eq_ok h
  cases h
  obtain ⟨rfl, hAddress⟩ := load_ok hCell
  cases hMove
  obtain ⟨hIp, hCurrent⟩ := nextMode_moves ins _ _ _ hMode
  refine ⟨?_, hCurrent⟩
  rw [hIp, toInt_succ hAddress.2]
  omega

theorem rebase_moves (v : Int64) :
    Moves 0 (modify fun m => { m with base := m.base + v } : Action PUnit) := by
  refine .of_same fun m u m' h => ?_
  cases h
  exact ⟨rfl, rfl⟩

theorem combine_moves (f : Int64 → Int64 → Int64) (ins : Instruction) : Moves 3 (combine f ins) :=
  (operand_moves ins).bind fun p => (operand_moves p.2).bind fun q =>
    (target_moves q.2).bind fun t => store_moves t.1 _

/-- **An instruction that does not jump passes its operands.** -/
theorem carryOut_moves {ins : Instruction} (h : ins.opcode.jumpsIf? = none) :
    Moves ins.opcode.operands (carryOut ins) := by
  unfold carryOut
  cases hOp : ins.opcode with
  | add => exact combine_moves _ ins
  | multiply => exact combine_moves _ ins
  | lessThan => exact combine_moves _ ins
  | equals => exact combine_moves _ ins
  | jumpIfTrue =>
    rw [hOp] at h
    cases h
  | jumpIfFalse =>
    rw [hOp] at h
    cases h
  | input => exact (target_moves ins).bind fun p => read_moves.bind fun v => store_moves p.1 v
  | output => exact (operand_moves ins).bind fun p => emit_moves p.1
  | adjustBase => exact (operand_moves ins).bind fun p => rebase_moves p.1
  | halt => exact halt_moves 0 none

theorem carryOut_jump {ins : Instruction} {wanted : Bool} (h : ins.opcode.jumpsIf? = some wanted) :
    carryOut ins = jumpIf wanted ins ∧ ins.opcode.operands = 2 := by
  unfold carryOut
  cases hOp : ins.opcode with
  | jumpIfTrue =>
    rw [hOp] at h
    cases h
    exact ⟨rfl, rfl⟩
  | jumpIfFalse =>
    rw [hOp] at h
    cases h
    exact ⟨rfl, rfl⟩
  | _ =>
    rw [hOp] at h
    cases h

/-- A jump that is not taken goes one cell on behind its condition, whatever that cell may be. -/
theorem jumpIf_passes {wanted : Bool} {ins : Instruction} {m' : Machine}
    (h : jumpIf wanted ins m = .ok () m') :
    ∃ v rest m₁, operand ins m = .ok (v, rest) m₁ ∧
      ((v != 0) = wanted ∨ m' = { m₁ with ip := m₁.ip + 1 }) := by
  rw [jumpIf] at h
  obtain ⟨⟨v, rest⟩, m₁, hCondition, h⟩ := bind_eq_ok h
  refine ⟨v, rest, m₁, hCondition, ?_⟩
  by_cases hTaken : (v != 0) = wanted
  · exact .inl hTaken
  · simp only [if_neg hTaken] at h
    cases h
    exact .inr rfl

theorem isAddress_of_instruction? {ins : Instruction} (h : m.instruction? = some ins) :
    IsAddress m.ip.toInt := by
  unfold instruction? at h
  cases hLoad : m.memory.load m.ip with
  | ok word =>
    have hCheck := Memory.checkRange_of_load.2 _ hLoad
    exact Memory.isAddress_of_accepts (Memory.checkRange_ok_iff.mp hCheck)
  | error e =>
    rw [hLoad] at h
    cases h

/-- **The instruction pointer wraps round only behind a jump at the last place for one.** -/
theorem step_moves {m' : Machine} (h : step m = .ok () m') (hJump : m.takesJump = false) :
    ∃ ins, m.instruction? = some ins ∧ m'.current = m.ip ∧
      (m'.ip.toInt = m.ip.toInt + 1 + ins.opcode.operands ∨
        ins.opcode.jumpsIf?.isSome = true ∧ m.ip.toInt = 9223372036854775805 ∧
          m'.ip.toInt = -9223372036854775808) := by
  rw [step_eq_start_bind] at h
  obtain ⟨ins, m₁, hStart, h⟩ := bind_eq_ok h
  obtain ⟨hIns, rfl⟩ := start_ok hStart
  have hBegun : (m.begun ins).ip.toInt = m.ip.toInt + 1 :=
    toInt_succ (isAddress_of_instruction? hIns).2
  refine ⟨ins, hIns, ?_⟩
  cases hKind : ins.opcode.jumpsIf? with
  | none =>
    obtain ⟨hIp, hCurrent⟩ := carryOut_moves hKind _ _ _ h
    exact ⟨hCurrent, .inl (by rw [hIp, hBegun])⟩
  | some wanted =>
    obtain ⟨hCarry, hOperands⟩ := carryOut_jump hKind
    rw [hCarry] at h
    obtain ⟨v, rest, m₂, hCondition, hTaken | rfl⟩ := jumpIf_passes h
    · simp only [takesJump, hIns, hKind, hCondition, hTaken, beq_self_eq_true,
        Bool.true_eq_false] at hJump
    · obtain ⟨hIp, hCurrent⟩ := operand_moves ins _ _ _ hCondition
      refine ⟨hCurrent, ?_⟩
      by_cases hTop : m₂.ip.toInt < Memory.addressStop
      · refine .inl ?_
        rw [toInt_succ hTop, hOperands]
        omega
      · -- The cell behind the condition is not looked at, so it need not have an address.
        have hLast : m₂.ip = Int64.maxValue := by
          have hBelow := m₂.ip.toInt_lt
          refine Memory.maxValue_iff.mpr ?_
          simp only [Memory.addressStop] at hTop ⊢
          omega
        have hLastInt : m₂.ip.toInt = 9223372036854775807 := by
          rw [hLast]
          rfl
        refine .inr ⟨rfl, by omega, ?_⟩
        change (m₂.ip + 1).toInt = _
        rw [hLast]
        rfl

/-! ### Steps -/

/-- **No address of a step wraps round, except at the ends of the integers.**  A step that takes no
jump leaves the instruction pointer right behind its operands, unless it is a jump at the last place
for one.  It is the exact step, unless that stops at a sum that comes round to an address; such a
sum lies below the integers of a cell by more than 1, so this takes a base below -1. -/
theorem addresses_wrap_only_at_ends (m : Machine) :
    (∀ m', step m = .ok () m' → m.takesJump = false →
      ∃ ins, m.instruction? = some ins ∧ m'.current = m.ip ∧
        (m'.ip.toInt = m.ip.toInt + 1 + ins.opcode.operands ∨
          ins.opcode.jumpsIf?.isSome = true ∧ m.ip.toInt = 9223372036854775805 ∧
            m'.ip.toInt = -9223372036854775808)) ∧
    (Exact.step m = step m ↔ ¬Misled (Exact.step m)) ∧
    (Misled (Exact.step m) → m.base.toInt < -1) ∧
    ∀ cell base : Int64,
      ¬IsAddress (cell.toInt + base.toInt) ∧ IsAddress (cell + base).toInt ↔
        cell.toInt + base.toInt < -9223372036854775809 := by
  have hShadows := step_shadows m
  refine ⟨fun m' => step_moves, ?_, ?_, fun cell base => ?_⟩
  · constructor
    · intro hSame
      rw [hSame]
      exact hShadows.not_misled
    · intro hClear
      exact hShadows.same.resolve_right fun h => hClear h.1
  · intro hMisled
    rcases hShadows.same with hSame | ⟨-, hBase⟩
    · rw [hSame] at hMisled
      exact absurd hMisled hShadows.not_misled
    · exact hBase
  · have hSum : Int64.ofInt (cell.toInt + base.toInt) = cell + base :=
      ofInt_address .relative cell base
    rw [← hSum]
    have hCell := cell.le_toInt
    have hCell' := cell.toInt_lt
    have hBase := base.le_toInt
    have hBase' := base.toInt_lt
    exact Memory.wraps_iff (by omega) (by omega)

/-- A jump that is not taken, two cells below the end of memory, and an output of the cell that lies
`2 ^ 64` below address 0. -/
theorem addresses_wrap_only_at_ends_both :
    let far : Machine :=
      { memory := { extents := #[⟨9223372036854775805, 2⟩], blocks := #[#[1105, 0]] },
        ip := 9223372036854775805 }
    let low : Machine :=
      { memory := { extents := #[⟨0, 2⟩], blocks := #[#[204, Int64.minValue]] },
        base := Int64.minValue }
    (∃ m', step far = .ok () m' ∧ far.takesJump = false ∧ m'.ip.toInt = -9223372036854775808) ∧
    Misled (Exact.step low) ∧ low.base.toInt < -1 ∧ Exact.step low ≠ step low := by
  intro far low
  obtain ⟨hMoves, -⟩ := addresses_wrap_only_at_ends far
  obtain ⟨-, hExact, hBase, -⟩ := addresses_wrap_only_at_ends low
  have hLow : failure? (Exact.step low) =
      some (.halt (some (.exec 0 (.memory (.invalidAddress .load 0))))) := by decide +kernel
  have hMisled : Misled (Exact.step low) := ⟨_, hLow, 0, .load, 0, rfl, by decide⟩
  refine ⟨?_, hMisled, hBase hMisled, fun h => hExact.mp h hMisled⟩
  have hFar : failure? (step far) = none := by decide +kernel
  have hJump : far.takesJump = false := by decide +kernel
  have hOpcode : far.instruction?.map Instruction.opcode = some .jumpIfTrue := by decide +kernel
  have hTop : far.ip.toInt = 9223372036854775805 := by decide
  cases hStep : step far with
  | error stop m' =>
    rw [hStep] at hFar
    cases hFar
  | ok u m' =>
    obtain ⟨ins, hIns, -, hIp | ⟨-, -, hIp⟩⟩ := hMoves m' hStep hJump
    · rw [hIns] at hOpcode
      have hBelow := m'.ip.toInt_lt
      rw [hTop, Option.some.inj hOpcode, Opcode.operands] at hIp
      omega
    · exact ⟨m', rfl, hJump, hIp⟩

/-- A new machine with cells from address 0 on. -/
def withCells (cells : List Int64) : Machine := { memory := Memory.run {} [.store 0 cells] }

/-- An image that writes a jump near the end of memory, goes there, and does not take it: the
instruction pointer is negative then.  And an image that outputs a cell by a negative address: it
does not stop. -/
theorem addresses_wrap_round :
    let far := (stepTimes 3 (withCells [1101, 1106, 0, 9223372036854775805, 1101, 1, 0,
      9223372036854775806, 1106, 0, 9223372036854775805])).2
    let low := (stepTimes 1 (withCells [109, Int64.minValue, 204, Int64.minValue, 99])).2
    (far.ip.toInt = 9223372036854775805 ∧ far.takesJump = false ∧ (stepTimes 1 far).1 = none ∧
      (stepTimes 1 far).2.ip.toInt = -9223372036854775808) ∧
    low.memory.load low.ip = .ok 204 ∧ low.memory.load (low.ip + 1) = .ok Int64.minValue ∧
      Int64.minValue.toInt + low.base.toInt < 0 ∧ (stepTimes 1 low).1 = none := by
  decide +kernel

end Machine

end HullRobot
