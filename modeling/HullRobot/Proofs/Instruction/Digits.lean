import HullRobot.Instruction
import Mathlib.Algebra.BigOperators.Group.Finset.Basic
import Mathlib.Data.List.GetD
import Mathlib.Data.Nat.Digits.Lemmas

/-!
# The digits of an instruction

A word that is an instruction is its opcode in the low two decimal digits, and above them a digit
for each operand.  Operands take these digits one by one, from the lowest on.

* `modeDigit`: the decimal digits of a word above the low two.
* `nextModes`: what calls of `nextMode` give, one after the other.
* `decode_error_iff`: **the words that are no instructions.**
* `nextModes_spec`: **the calls give the digits in order**, each as its mode or as an error.
* `modes_eq_sum`: the digits that were taken and the rest make up the number of all digits.
* `decode_splits_word`: all of this for every word and any number of calls.
-/

namespace HullRobot

namespace Opcode

/-- The numbers that operations have. -/
def IsCode (n : Int) : Prop := 1 ≤ n ∧ n ≤ 9 ∨ n = 99

theorem code_of_ofCode? {n : Nat} {op : Opcode} (h : ofCode? n = some op) : op.code = n := by
  unfold ofCode? at h
  split at h <;> cases h <;> rfl

theorem isCode_code (op : Opcode) : IsCode op.code := by
  unfold IsCode
  cases op <;> decide

/-- A number without an operation is not the number of one. -/
theorem ofCode?_eq_none_iff {n : Nat} : ofCode? n = none ↔ ¬IsCode n := by
  constructor
  · intro hNone hCode
    have hCases : 1 ≤ n ∧ n ≤ 9 ∨ n = 99 := by
      unfold IsCode at hCode
      omega
    rcases hCases with ⟨hLow, hHigh⟩ | rfl
    · interval_cases n <;> cases hNone
    · cases hNone
  · intro hCode
    cases hOp : ofCode? n with
    | none => rfl
    | some op => exact absurd (code_of_ofCode? hOp ▸ isCode_code op) hCode

end Opcode

/-- The digit of a mode. -/
def Mode.digit : Mode → Nat
  | .position => 0
  | .immediate => 1
  | .relative => 2

theorem Mode.ofDigit?_digit (mode : Mode) : ofDigit? mode.digit = some mode := by
  cases mode <;> rfl

theorem Mode.exists_digit {d : Nat} (h : d ≤ 2) : ∃ mode : Mode, mode.digit = d := by
  interval_cases d
  exacts [⟨.position, rfl⟩, ⟨.immediate, rfl⟩, ⟨.relative, rfl⟩]

theorem Mode.ofDigit?_eq_none {d : Nat} (h : 2 < d) : ofDigit? d = none := by
  unfold ofDigit?
  split <;> first | rfl | omega

namespace Instruction

variable {address word : Int64}

/-! ### Decoding -/

theorem toInt_eq_toNatClampNeg (h : ¬word < 0) : word.toInt = word.toNatClampNeg := by
  rw [Int64.lt_iff_toInt_lt, Int64.toInt_zero, not_lt] at h
  exact (Int.toNat_of_nonneg h).symm

/-- **The words that are no instructions.** -/
theorem decode_error_iff : decode address word = .error (.unknownOpcode address word) ↔
    word < 0 ∨ ¬Opcode.IsCode (word.toInt % 100) := by
  unfold decode
  by_cases hNegative : word < 0
  · simp only [hNegative, if_true, true_or]
  · have hLow : word.toInt % 100 = (word.toNatClampNeg % 100 : Nat) := by
      rw [toInt_eq_toNatClampNeg hNegative]
      rfl
    rw [if_neg hNegative, hLow, ← Opcode.ofCode?_eq_none_iff]
    cases hOp : Opcode.ofCode? (word.toNatClampNeg % 100) with
    | none => simp only [or_true]
    | some op => simp only [hNegative, reduceCtorEq, or_self]

theorem decode_cases (address word : Int64) :
    decode address word = .error (.unknownOpcode address word) ∨
      ¬word < 0 ∧ ∃ ins, decode address word = .ok ins ∧ ins.address = address ∧ ins.word = word ∧
        ins.opcode.code = word.toNatClampNeg % 100 ∧ ins.modes = word.toNatClampNeg / 100 := by
  unfold decode
  by_cases hNegative : word < 0
  · exact .inl (if_pos hNegative)
  · rw [if_neg hNegative]
    cases hOp : Opcode.ofCode? (word.toNatClampNeg % 100) with
    | none => exact .inl rfl
    | some op => exact .inr ⟨hNegative, _, rfl, rfl, rfl, Opcode.code_of_ofCode? hOp, rfl⟩

/-! ### The digits -/

/-- The decimal digits of a word above the low two, the lowest first.  There are zeros above the
highest one. -/
def modeDigit (word : Int64) (i : Nat) : Nat :=
  (Nat.digits 10 word.toNatClampNeg).getD (i + 2) 0

theorem modeDigit_eq (word : Int64) (i : Nat) :
    modeDigit word i = word.toNatClampNeg / 100 / 10 ^ i % 10 := by
  rw [modeDigit, Nat.getD_digits _ _ (by decide), Nat.div_div_eq_div_mul, pow_add, mul_comm]
  rfl

/-- What a digit stands for in a word at an address. -/
def Shows (address word : Int64) (digit : Nat) (result : Except DecodeError Mode) : Prop :=
  (∃ mode : Mode, mode.digit = digit ∧ result = .ok mode) ∨
    2 < digit ∧ result = .error (.malformedMode address word digit)

theorem shows_zero {result : Except DecodeError Mode} (h : Shows address word 0 result) :
    result = .ok .position := by
  rcases h with ⟨mode, hDigit, rfl⟩ | ⟨hLarge, -⟩
  · cases mode with
    | position => rfl
    | immediate => cases hDigit
    | relative => cases hDigit
  · omega

/-- The results of `k` calls of `nextMode`, and the instruction after them. -/
def nextModes : Nat → Instruction → List (Except DecodeError Mode) × Instruction
  | 0, ins => ([], ins)
  | k + 1, ins =>
    (ins.nextMode.1 :: (nextModes k ins.nextMode.2).1, (nextModes k ins.nextMode.2).2)

/-- **A call takes the lowest digit that is left**, whether it is a mode or not. -/
theorem nextMode_spec (ins : Instruction) :
    Shows ins.address ins.word (ins.modes % 10) ins.nextMode.1 ∧
      ins.nextMode.2 = { ins with modes := ins.modes / 10 } := by
  by_cases hMode : ins.modes % 10 ≤ 2
  · obtain ⟨mode, hDigit⟩ := Mode.exists_digit hMode
    simp only [nextMode, ← hDigit, Mode.ofDigit?_digit]
    exact ⟨.inl ⟨mode, rfl, rfl⟩, trivial⟩
  · have hLarge : 2 < ins.modes % 10 := Nat.lt_of_not_le hMode
    simp only [nextMode, Mode.ofDigit?_eq_none hLarge]
    exact ⟨.inr ⟨hLarge, rfl⟩, trivial⟩

theorem length_nextModes (k : Nat) (ins : Instruction) : (nextModes k ins).1.length = k := by
  induction k generalizing ins with
  | zero => rfl
  | succ k ih => exact congrArg Nat.succ (ih ins.nextMode.2)

theorem nextModes_last (k : Nat) (ins : Instruction) :
    (nextModes k ins).2 = { ins with modes := ins.modes / 10 ^ k } := by
  induction k generalizing ins with
  | zero => rw [pow_zero, Nat.div_one]; rfl
  | succ k ih =>
    rw [nextModes, ih, (nextMode_spec ins).2, Nat.div_div_eq_div_mul, pow_succ']

/-- **The calls give the digits in order.** -/
theorem nextModes_spec {k i : Nat} (hi : i < k) (ins : Instruction) :
    ∃ result, (nextModes k ins).1[i]? = some result ∧
      Shows ins.address ins.word (ins.modes / 10 ^ i % 10) result := by
  induction k generalizing ins i with
  | zero => omega
  | succ k ih =>
    obtain ⟨hFirst, hRest⟩ := nextMode_spec ins
    cases i with
    | zero =>
      refine ⟨ins.nextMode.1, rfl, ?_⟩
      rwa [pow_zero, Nat.div_one]
    | succ i =>
      obtain ⟨result, hResult, hShows⟩ := ih (Nat.lt_of_succ_lt_succ hi) ins.nextMode.2
      refine ⟨result, hResult, ?_⟩
      rwa [hRest, Nat.div_div_eq_div_mul, ← pow_succ'] at hShows

/-- **The digits that were taken and the rest make up all digits.** -/
theorem modes_eq_sum (n k : Nat) :
    n = ∑ i ∈ Finset.range k, 10 ^ i * (n / 10 ^ i % 10) + 10 ^ k * (n / 10 ^ k) := by
  induction k with
  | zero => simp
  | succ k ih =>
    have hNext : 10 ^ k * (n / 10 ^ k) =
        10 ^ k * (n / 10 ^ k % 10) + 10 ^ (k + 1) * (n / 10 ^ (k + 1)) := by
      rw [pow_succ, mul_assoc, ← mul_add, ← Nat.div_div_eq_div_mul, Nat.mod_add_div]
    rw [Finset.sum_range_succ, add_assoc, ← hNext]
    exact ih

/-- **Decoding splits a word into its decimal digits.**  A word that is negative, or whose low two
digits are no opcode, is no instruction.  All other words are, and calls of `nextMode` give the
digits above the low two in order: a digit up to 2 as the mode with that digit, any other one as an
error that tells it, and after the highest digit the position mode.  Only the digits are used up,
and the opcode, the digits that were taken and the rest make up the word. -/
theorem decode_splits_word (address word : Int64) :
    (decode address word = .error (.unknownOpcode address word) ↔
      word < 0 ∨ ¬Opcode.IsCode (word.toInt % 100)) ∧
    (¬(word < 0 ∨ ¬Opcode.IsCode (word.toInt % 100)) →
      ∃ ins, decode address word = .ok ins ∧ ins.address = address ∧ ins.word = word ∧
        ins.opcode.code = word.toInt % 100 ∧
        ∀ k, (nextModes k ins).1.length = k ∧
          (∀ i < k, ∃ result, (nextModes k ins).1[i]? = some result ∧
            Shows address word (modeDigit word i) result) ∧
          (∀ i < k, (Nat.digits 10 word.toNatClampNeg).length ≤ i + 2 →
            (nextModes k ins).1[i]? = some (.ok .position)) ∧
          (nextModes k ins).2 = { ins with modes := (nextModes k ins).2.modes } ∧
          (nextModes k ins).2.modes =
            Nat.ofDigits 10 ((Nat.digits 10 word.toNatClampNeg).drop (k + 2)) ∧
          word.toInt = ins.opcode.code + 100 * (∑ i ∈ Finset.range k, 10 ^ i * modeDigit word i +
            10 ^ k * (nextModes k ins).2.modes : Nat)) := by
  refine ⟨decode_error_iff, fun hWord => ?_⟩
  rcases decode_cases address word with
    hError | ⟨hPositive, ins, hDecode, rfl, rfl, hCode, hModes⟩
  · exact absurd (decode_error_iff.mp hError) hWord
  have hInt := toInt_eq_toNatClampNeg hPositive
  refine ⟨ins, hDecode, rfl, rfl, ?_, fun k => ?_⟩
  · rw [hCode, hInt]
    rfl
  have hShown : ∀ i < k, ∃ result, (nextModes k ins).1[i]? = some result ∧
      Shows ins.address ins.word (modeDigit ins.word i) result := by
    intro i hi
    rw [modeDigit_eq, ← hModes]
    exact nextModes_spec hi ins
  refine ⟨length_nextModes k ins, hShown, fun i hi hUsed => ?_, ?_, ?_, ?_⟩
  · obtain ⟨result, hResult, hShows⟩ := hShown i hi
    have hZero : modeDigit ins.word i = 0 := List.getD_eq_default _ _ hUsed
    rw [hZero] at hShows
    rw [hResult, shows_zero hShows]
  · rw [nextModes_last]
  · rw [nextModes_last, ← Nat.self_div_pow_eq_ofDigits_drop _ _ (by decide), Nat.add_comm, pow_add,
      ← Nat.div_div_eq_div_mul, hModes]
    rfl
  · simp only [nextModes_last, modeDigit_eq, ← hModes, ← modes_eq_sum, hCode, hInt]
    omega

/-- The word `30201` at address 3: its third mode digit is no mode, and there is no fourth one. -/
theorem decode_splits_word_malformed :
    ¬((30201 : Int64) < 0 ∨ ¬Opcode.IsCode ((30201 : Int64).toInt % 100)) ∧
    ∃ ins, decode 3 30201 = .ok ins ∧
      (nextModes 4 ins).1 = [.ok .relative, .ok .position, .error (.malformedMode 3 30201 3),
        .ok .position] ∧
      (30201 : Int64).toInt = ins.opcode.code +
        100 * (∑ i ∈ Finset.range 4, 10 ^ i * modeDigit 30201 i +
          10 ^ 4 * (nextModes 4 ins).2.modes : Nat) := by
  have hWord : ¬((30201 : Int64) < 0 ∨ ¬Opcode.IsCode ((30201 : Int64).toInt % 100)) := by
    unfold Opcode.IsCode
    decide
  obtain ⟨ins, hDecode, -, -, -, hCalls⟩ := (decode_splits_word 3 30201).2 hWord
  obtain ⟨-, -, -, -, -, hSum⟩ := hCalls 4
  have hHere : decode 3 30201 = .ok ⟨3, 30201, .add, 302⟩ := by decide
  refine ⟨hWord, ins, hDecode, ?_, hSum⟩
  obtain rfl := Except.ok.inj (hHere.symm.trans hDecode)
  decide

end Instruction

end HullRobot
