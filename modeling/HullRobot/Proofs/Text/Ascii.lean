import HullRobot.Decimal
import HullRobot.Text.Utf8
import Mathlib.Tactic.Common

/-!
# ASCII

A byte string shows ASCII characters only if all its bytes are ASCII, and then each byte shows one
character (`lossy_eq_latin`).

* `latin`: the text in which each byte is the character with its number.
* `high_of_sequence?`: **a sequence that starts with a high byte gives a high character.**
* `bytes_ofList`: the way back.  `bytes_feed`: **the bytes of a line are those of its text.**
-/

namespace HullRobot

namespace Text

/-- The characters that have the bytes as their numbers. -/
def latin (bytes : List UInt8) : List Char := bytes.map fun b => Char.ofNat b.toNat

theorem toNat_ofNat {n : Nat} (h : n < 0xD800 ∨ 0xDFFF < n ∧ n < 0x110000) :
    (Char.ofNat n).toNat = n := by
  unfold Char.ofNat
  rw [dif_pos h]
  rfl

theorem toNat_latin (b : UInt8) : (Char.ofNat b.toNat).toNat = b.toNat := by
  have := b.toNat_lt
  exact toNat_ofNat (.inl (by omega))

theorem high_pairChar {a b : UInt8} (h : isPair a b = true) : 128 ≤ (pairChar a b).toNat := by
  simp only [isPair, isTail, Bool.and_eq_true, decide_eq_true_eq, UInt8.le_iff_toNat_le] at h
  obtain ⟨⟨ha, ha'⟩, hb, hb'⟩ := h
  simp only [UInt8.reduceToNat] at ha ha' hb hb'
  rw [pairChar, toNat_ofNat] <;> omega

theorem high_tripleChar {a b c : UInt8} (h : isTriple a b c = true) :
    128 ≤ (tripleChar a b c).toNat := by
  simp only [isTriple, isTail, Bool.and_eq_true, decide_eq_true_eq, UInt8.le_iff_toNat_le,
    UInt8.lt_iff_toNat_lt, Bool.not_eq_true', Bool.and_eq_false_iff, decide_eq_false_iff_not,
    beq_eq_false_iff_ne, ne_eq, ← UInt8.toNat_inj, UInt8.reduceToNat] at h
  obtain ⟨⟨⟨⟨⟨ha, ha'⟩, hb, hb'⟩, hc, hc'⟩, hLong⟩, hSurrogate⟩ := h
  rw [tripleChar, toNat_ofNat] <;> omega

theorem high_quadChar {a b c d : UInt8} (h : isQuad a b c d = true) :
    128 ≤ (quadChar a b c d).toNat := by
  simp only [isQuad, isTail, Bool.and_eq_true, decide_eq_true_eq, UInt8.le_iff_toNat_le,
    UInt8.lt_iff_toNat_lt, Bool.not_eq_true', Bool.and_eq_false_iff, decide_eq_false_iff_not,
    beq_eq_false_iff_ne, ne_eq, ← UInt8.toNat_inj, UInt8.reduceToNat] at h
  obtain ⟨⟨⟨⟨⟨⟨ha, ha'⟩, hb, hb'⟩, hc, hc'⟩, hd, hd'⟩, hLong⟩, hLarge⟩ := h
  rw [quadChar, toNat_ofNat] <;> omega

/-- A sequence that starts with a high byte gives a high character. -/
theorem high_of_sequence? {a : UInt8} {rest : List UInt8} {c : Char} {n : Nat} (ha : ¬a < 0x80)
    (h : sequence? a rest = some (c, n)) : 128 ≤ c.toNat := by
  unfold sequence? at h
  rw [if_neg ha] at h
  split at h
  · cases h
  · split at h
    · next hPair =>
      obtain ⟨rfl, -⟩ := Prod.mk.inj (Option.some.inj h)
      exact high_pairChar hPair
    · split at h
      · cases h
      · split at h
        · next hTriple =>
          obtain ⟨rfl, -⟩ := Prod.mk.inj (Option.some.inj h)
          exact high_tripleChar hTriple
        · split at h
          · cases h
          · split at h
            · next hQuad =>
              obtain ⟨rfl, -⟩ := Prod.mk.inj (Option.some.inj h)
              exact high_quadChar hQuad
            · cases h

theorem lossy_cons_of_ascii {a : UInt8} (ha : a < 0x80) (rest : List UInt8) :
    lossy (a :: rest) = Char.ofNat a.toNat :: lossy rest := by
  simp only [lossy, decode, decodeAfter, sequence?, if_pos ha, List.map_cons, Option.getD_some]

/-- A high byte shows a high character or the replacement, and neither is ASCII. -/
theorem lossy_cons_of_high {a : UInt8} (ha : ¬a < 0x80) (rest : List UInt8) :
    ∃ c cs, lossy (a :: rest) = c :: cs ∧ 128 ≤ c.toNat := by
  simp only [lossy, decode, decodeAfter]
  cases hSequence : sequence? a rest with
  | none => exact ⟨replacement, _, rfl, by decide⟩
  | some found => exact ⟨found.1, _, rfl, high_of_sequence? ha hSequence⟩

theorem lossy_ne_nil {bytes : List UInt8} (h : bytes ≠ []) : lossy bytes ≠ [] := by
  obtain ⟨a, rest, rfl⟩ := List.exists_cons_of_ne_nil h
  by_cases ha : a < 0x80
  · rw [lossy_cons_of_ascii ha]
    exact List.cons_ne_nil _ _
  · obtain ⟨c, cs, hLossy, -⟩ := lossy_cons_of_high ha rest
    rw [hLossy]
    exact List.cons_ne_nil _ _

/-- **Text of ASCII characters comes from ASCII bytes**, one for each character. -/
theorem lossy_eq_latin {bytes : List UInt8} (h : ∀ c ∈ lossy bytes, c.toNat < 128) :
    lossy bytes = latin bytes := by
  induction bytes with
  | nil => rfl
  | cons a rest ih =>
    by_cases ha : a < 0x80
    · rw [lossy_cons_of_ascii ha] at h ⊢
      rw [ih fun c hc => h c (List.mem_cons_of_mem _ hc)]
      rfl
    · obtain ⟨c, cs, hLossy, hHigh⟩ := lossy_cons_of_high ha rest
      have hLow := h c (hLossy ▸ List.mem_cons_self)
      omega

/-- ASCII bytes show the same characters, whatever follows them. -/
theorem lossy_append {before : List UInt8} (h : ∀ c ∈ latin before, c.toNat < 128)
    (rest : List UInt8) : lossy (before ++ rest) = latin before ++ lossy rest := by
  induction before with
  | nil => rfl
  | cons a before ih =>
    have ha : a < 0x80 := by
      have := h _ List.mem_cons_self
      rw [toNat_latin] at this
      exact UInt8.lt_iff_toNat_lt.mpr this
    rw [List.cons_append, lossy_cons_of_ascii ha, ih fun c hc => h c (List.mem_cons_of_mem _ hc)]
    rfl

theorem lossy_latin {bytes : List UInt8} (h : ∀ c ∈ latin bytes, c.toNat < 128) :
    lossy bytes = latin bytes := by
  have hAll := lossy_append h []
  rwa [List.append_nil, show lossy [] = [] from rfl, List.append_nil] at hAll

/-- ASCII text starts what bytes show if and only if it starts the bytes themselves. -/
theorem prefix_lossy_iff {t : List Char} (h : ∀ c ∈ t, c.toNat < 128) {bytes : List UInt8} :
    t <+: lossy bytes ↔ t <+: latin bytes := by
  induction t generalizing bytes with
  | nil => exact iff_of_true List.nil_prefix List.nil_prefix
  | cons c t ih =>
    obtain ⟨hc, ht⟩ := List.forall_mem_cons.mp h
    cases bytes with
    | nil => rfl
    | cons a rest =>
      rw [latin, List.map_cons, List.cons_prefix_cons]
      by_cases ha : a < 0x80
      · rw [lossy_cons_of_ascii ha, List.cons_prefix_cons, ih ht]
        rfl
      · obtain ⟨d, ds, hLossy, hHigh⟩ := lossy_cons_of_high ha rest
        rw [hLossy, List.cons_prefix_cons]
        constructor
        · rintro ⟨rfl, -⟩
          omega
        · rintro ⟨rfl, -⟩
          rw [toNat_latin] at hc
          exact absurd (UInt8.lt_iff_toNat_lt.mpr hc) ha

theorem ascii_of_isDigit {c : Char} (h : c.isDigit = true) : c.toNat < 128 := by
  simp only [Char.isDigit, Bool.and_eq_true, decide_eq_true_eq, UInt32.le_iff_toNat_le] at h
  exact Nat.lt_of_le_of_lt h.2 (by decide)

/-- The bytes of an ASCII text are the numbers of its characters. -/
theorem bytes_ofList {cs : List Char} (h : ∀ c ∈ cs, c.toNat < 128) :
    bytes (String.ofList cs) = Decimal.asciiBytes cs := by
  have hData : bytes (String.ofList cs) = cs.flatMap String.utf8EncodeChar := by
    rw [bytes, String.toUTF8, String.toByteArray_ofList, List.utf8Encode, List.data_toByteArray]
  rw [hData, Decimal.asciiBytes, List.map_eq_flatMap, List.flatMap_def, List.flatMap_def]
  refine congrArg List.flatten (List.map_congr_left fun c hc => ?_)
  exact if_pos (Nat.le_of_lt_succ (h c hc))

end Text

/-! ### Numerals -/

namespace Decimal

theorem ascii_digits (n : Nat) : ∀ c ∈ digits n, c.toNat < 128 := fun _ hc =>
  Text.ascii_of_isDigit (Nat.isDigit_of_mem_toDigits (by decide) (by decide) hc)

theorem ascii_ofInt (i : Int) : ∀ c ∈ ofInt i, c.toNat < 128 := by
  unfold ofInt
  split
  · exact List.forall_mem_cons.mpr ⟨by decide, ascii_digits _⟩
  · exact ascii_digits _

theorem ofList_ofInt (i : Int) : String.ofList (ofInt i) = toString i := by
  cases i with
  | ofNat n => rfl
  | negSucc n =>
    rw [ofInt, if_pos (Int.negSucc_lt_zero n)]
    show String.ofList (['-'] ++ digits (n + 1)) = "-" ++ Nat.repr (n + 1)
    exact String.ofList_append

/-- **The bytes of a line are those of its text.** -/
theorem bytes_feed {cs : List Char} (h : ∀ c ∈ cs, c.toNat < 128) :
    asciiBytes (cs ++ ['\n']) = Text.bytes (String.ofList cs ++ "\n") := by
  have hLine : ∀ c ∈ cs ++ ['\n'], c.toNat < 128 := by
    intro c hc
    rcases List.mem_append.mp hc with hc | hc
    · exact h c hc
    · rw [List.mem_singleton.mp hc]
      decide
  rw [← Text.bytes_ofList hLine, String.ofList_append]

theorem mem_of_mem_asciiBytes {cs : List Char} (h : ∀ c ∈ cs, c.toNat < 128) {c : Char}
    (hc : c.toNat < 128) (hByte : c.toNat.toUInt8 ∈ asciiBytes cs) : c ∈ cs := by
  obtain ⟨d, hd, hSame⟩ := List.mem_map.mp hByte
  have hLow := h d hd
  have hNat := congrArg UInt8.toNat hSame
  simp only [Nat.toUInt8, UInt8.toNat_ofNat'] at hNat
  obtain rfl : d = c := Char.toNat_inj.mp (by omega)
  exact hd

end Decimal

end HullRobot
