import HullRobot.Image
import HullRobot.Proofs.Text.Ascii
import Mathlib.Data.List.Forall2
import Mathlib.Data.List.Induction
import Mathlib.Data.Nat.Digits.Defs

/-!
# The language of images

A text is cut into **lexemes** from left to right, each as long as it can be: a run of blanks, a
numeral, or a comma.  Without the blanks the lexemes of an image are numerals with commas between
them, and maybe one more after the last (`Written`).

* `Split`: the cut.  `Denotes.maximal_iff`, `Blank.maximal_iff`: where a lexeme can end.
* `denotes_ofInt`: an integer is denoted by its decimal numeral.
* `Spaced.split`: **blanks around numerals and commas do not count.**
-/

namespace HullRobot.Image

/-! ### Lexemes -/

def blanks : List Char := ['\t', '\n', '\x0c', '\r', ' ']

/-- A run of blanks. -/
def Blank (t : List Char) : Prop := t ≠ [] ∧ ∀ c ∈ t, c ∈ blanks

instance (t : List Char) : Decidable (Blank t) :=
  haveI : Decidable (∀ c ∈ t, c ∈ blanks) := List.decidableBAll _ t
  inferInstanceAs (Decidable (_ ∧ _))

def Digits (t : List Char) : Prop := t ≠ [] ∧ ∀ c ∈ t, c.isDigit = true

/-- The number that digits stand for. -/
def magnitude (digits : List Char) : Nat :=
  Nat.ofDigits 10 (digits.reverse.map fun c => c.toNat - '0'.toNat)

/-- The text is a numeral of an integer. -/
inductive Denotes : List Char → Int → Prop
  | plain {ds : List Char} (h : Digits ds) : Denotes ds (magnitude ds)
  | plus {ds : List Char} (h : Digits ds) : Denotes ('+' :: ds) (magnitude ds)
  | minus {ds : List Char} (h : Digits ds) : Denotes ('-' :: ds) (-magnitude ds)

def Lexeme (t : List Char) : Prop := Blank t ∨ (∃ i, Denotes t i) ∨ t = [',']

/-- No lexeme is longer than `t`, where `rest` follows. -/
def Maximal (t rest : List Char) : Prop := ∀ u, u ≠ [] → u <+: rest → ¬Lexeme (t ++ u)

/-- The text is cut into lexemes, each as long as it can be. -/
inductive Split : List Char → List (List Char) → Prop
  | nil : Split [] []
  | cons {t rest : List Char} {ts : List (List Char)} (hLexeme : Lexeme t)
      (hMaximal : Maximal t rest) (hRest : Split rest ts) : Split (t ++ rest) (t :: ts)

/-- These are the numerals with a comma between any two, and maybe one after the last. -/
def Listed (numerals items : List (List Char)) : Prop :=
  items = numerals.intersperse [','] ∨
    numerals ≠ [] ∧ items = numerals.intersperse [','] ++ [[',']]

/-- The lexemes that are not blank. -/
def solid (ts : List (List Char)) : List (List Char) := ts.filter fun t => ¬Blank t

/-- The text is an image with these integers. -/
def Written (cs : List Char) (is : List Int) : Prop :=
  ∃ lexemes numerals, Split cs lexemes ∧ Listed numerals (solid lexemes) ∧
    List.Forall₂ Denotes numerals is

/-! ### Where lexemes end -/

section

variable {t rest : List Char} {c : Char} {i : Int}

theorem solid_cons (h : ¬Blank t) (ts : List (List Char)) : solid (t :: ts) = t :: solid ts :=
  List.filter_cons_of_pos (by simpa using h)

theorem solid_cons_blank (h : Blank t) (ts : List (List Char)) : solid (t :: ts) = solid ts :=
  List.filter_cons_of_neg (by simpa using h)

theorem isBlank_iff : isBlank c = true ↔ c ∈ blanks := by
  simp only [isBlank, blanks, Bool.or_eq_true, decide_eq_true_eq, List.mem_cons, List.not_mem_nil,
    or_false]
  tauto

theorem not_blank_of_isDigit (h : c.isDigit = true) : c ∉ blanks := by
  intro hBlank
  simp only [blanks, List.mem_cons, List.not_mem_nil, or_false] at hBlank
  rcases hBlank with rfl | rfl | rfl | rfl | rfl <;> cases h

/-- A numeral starts with a sign or a digit, and digits follow. -/
theorem Denotes.shape (h : Denotes t i) : ∃ c ds, t = c :: ds ∧ c ∉ blanks ∧ c ≠ ',' ∧
    ∀ d ∈ ds, d.isDigit = true := by
  cases h with
  | plain h =>
    obtain ⟨hSome, hDigits⟩ := h
    cases t with
    | nil => exact absurd rfl hSome
    | cons c ds =>
      have hFirst := hDigits c List.mem_cons_self
      refine ⟨c, ds, rfl, not_blank_of_isDigit hFirst, ?_, fun d hd =>
        hDigits d (List.mem_cons_of_mem c hd)⟩
      rintro rfl
      cases hFirst
  | @plus ds h => exact ⟨'+', ds, rfl, by decide, by decide, h.2⟩
  | @minus ds h => exact ⟨'-', ds, rfl, by decide, by decide, h.2⟩

theorem Denotes.not_blank (h : Denotes t i) : ¬Blank t := by
  obtain ⟨c, ds, rfl, hBlank, -, -⟩ := h.shape
  exact fun hAll => hBlank (hAll.2 c List.mem_cons_self)

theorem Denotes.ne_comma (h : Denotes t i) : t ≠ [','] := by
  obtain ⟨c, ds, rfl, -, hComma, -⟩ := h.shape
  exact fun hEq => hComma (List.cons.inj hEq).1

theorem Digits.snoc (h : Digits t) (hc : c.isDigit = true) : Digits (t ++ [c]) := by
  refine ⟨List.append_ne_nil_of_left_ne_nil h.1 _, fun d hd => ?_⟩
  rcases List.mem_append.mp hd with hd | hd
  · exact h.2 d hd
  · rw [List.mem_singleton.mp hd]
    exact hc

theorem Denotes.snoc (h : Denotes t i) (hc : c.isDigit = true) : ∃ j, Denotes (t ++ [c]) j := by
  cases h with
  | plain h => exact ⟨_, .plain (h.snoc hc)⟩
  | plus h => exact ⟨_, .plus (h.snoc hc)⟩
  | minus h => exact ⟨_, .minus (h.snoc hc)⟩

theorem Denotes.maximal_iff (h : Denotes t i) :
    Maximal t rest ↔ ∀ c ∈ rest.head?, c.isDigit = false := by
  constructor
  · intro hMaximal c hc
    obtain ⟨rest, rfl⟩ := List.head?_eq_some_iff.mp hc
    by_contra hDigit
    exact hMaximal [c] (List.cons_ne_nil c []) ⟨rest, rfl⟩
      (.inr (.inl (h.snoc (Bool.not_eq_false _ ▸ hDigit))))
  · intro hHead u hu hPrefix hLexeme
    obtain ⟨c, ds, rfl, hBlank, hComma, -⟩ := h.shape
    obtain ⟨d, u, rfl⟩ := List.exists_cons_of_ne_nil hu
    obtain ⟨rest, rfl⟩ := hPrefix
    rcases hLexeme with hAll | ⟨j, hLonger⟩ | hEq
    · exact hBlank (hAll.2 c List.mem_cons_self)
    · obtain ⟨c', ds', hEq, -, -, hDigits⟩ := hLonger.shape
      obtain ⟨rfl, rfl⟩ := List.cons.inj hEq
      have hDigit := hDigits d (List.mem_append_right ds List.mem_cons_self)
      rw [hHead d rfl] at hDigit
      cases hDigit
    · exact hComma (List.cons.inj hEq).1

theorem Blank.maximal_iff (h : Blank t) : Maximal t rest ↔ ∀ c ∈ rest.head?, c ∉ blanks := by
  constructor
  · intro hMaximal c hc hBlank
    obtain ⟨rest, rfl⟩ := List.head?_eq_some_iff.mp hc
    refine hMaximal [c] (List.cons_ne_nil c []) ⟨rest, rfl⟩
      (.inl ⟨List.append_ne_nil_of_left_ne_nil h.1 _, fun d hd => ?_⟩)
    rcases List.mem_append.mp hd with hd | hd
    · exact h.2 d hd
    · rw [List.mem_singleton.mp hd]
      exact hBlank
  · intro hHead u hu hPrefix hLexeme
    obtain ⟨c, t, rfl⟩ := List.exists_cons_of_ne_nil h.1
    obtain ⟨d, u, rfl⟩ := List.exists_cons_of_ne_nil hu
    obtain ⟨rest, rfl⟩ := hPrefix
    have hFirst : c ∈ blanks := h.2 c List.mem_cons_self
    rcases hLexeme with hAll | ⟨j, hNumeral⟩ | hEq
    · exact hHead d rfl (hAll.2 d (List.mem_append_right _ List.mem_cons_self))
    · obtain ⟨c', ds', hEq, hBlank, -, -⟩ := hNumeral.shape
      obtain ⟨rfl, -⟩ := List.cons.inj hEq
      exact hBlank hFirst
    · obtain ⟨rfl, -⟩ := List.cons.inj hEq
      exact absurd hFirst (by decide)

theorem not_blank_comma : ¬Blank [','] := by
  intro h
  exact absurd (h.2 ',' List.mem_cons_self) (by decide)

theorem maximal_comma (rest : List Char) : Maximal [','] rest := by
  intro u hu _ hLexeme
  rcases hLexeme with hAll | ⟨j, hNumeral⟩ | hEq
  · exact absurd (hAll.2 ',' List.mem_cons_self) (by decide)
  · obtain ⟨c, ds, hEq, -, hComma, -⟩ := hNumeral.shape
    exact hComma (List.cons.inj hEq).1.symm
  · exact hu (List.cons.inj hEq).2

theorem Lexeme.blank_of_head {d : Char} (h : Lexeme (d :: t)) (hd : d ∈ blanks) :
    Blank (d :: t) := by
  rcases h with hBlank | ⟨i, hDenotes⟩ | hEq
  · exact hBlank
  · obtain ⟨d', ds, hEq, hNot, -, -⟩ := hDenotes.shape
    obtain ⟨rfl, -⟩ := List.cons.inj hEq
    exact absurd hd hNot
  · obtain ⟨rfl, -⟩ := List.cons.inj hEq
    exact absurd hd (by decide)

theorem Lexeme.ne_nil (h : Lexeme t) : t ≠ [] := by
  rcases h with hBlank | ⟨i, hDenotes⟩ | hEq
  · exact hBlank.1
  · obtain ⟨c, ds, rfl, -⟩ := hDenotes.shape
    exact List.cons_ne_nil c ds
  · rw [hEq]
    exact List.cons_ne_nil ',' []

/-- A blank is a lexeme for itself, or it makes the first lexeme longer. -/
theorem Split.blank_cons {cs : List Char} {ts : List (List Char)} (hc : c ∈ blanks)
    (h : Split cs ts) : ∃ ts', Split (c :: cs) ts' ∧ solid ts' = solid ts := by
  have hOne : Blank [c] := ⟨List.cons_ne_nil c [], fun d hd => List.mem_singleton.mp hd ▸ hc⟩
  by_cases hHead : ∀ d ∈ cs.head?, d ∉ blanks
  · refine ⟨[c] :: ts, .cons (.inl hOne) (hOne.maximal_iff.mpr hHead) h, ?_⟩
    exact solid_cons_blank hOne ts
  · cases h with
    | nil => exact absurd nofun hHead
    | @cons t rest ts hLexeme hMaximal hRest =>
      obtain ⟨d, t, rfl⟩ := List.exists_cons_of_ne_nil hLexeme.ne_nil
      have hd : d ∈ blanks := by
        by_contra hNot
        exact hHead fun e he => Option.some.inj he ▸ hNot
      have hBlank := hLexeme.blank_of_head hd
      have hLonger : Blank (c :: d :: t) := by
        refine ⟨List.cons_ne_nil c _, fun e he => ?_⟩
        rcases List.mem_cons.mp he with rfl | he
        · exact hc
        · exact hBlank.2 e he
      refine ⟨(c :: d :: t) :: ts, .cons (.inl hLonger) ?_ hRest, ?_⟩
      · exact hLonger.maximal_iff.mpr (hBlank.maximal_iff.mp hMaximal)
      · rw [solid_cons_blank hLonger, solid_cons_blank hBlank]

theorem Digits.ascii {t : List Char} (h : Digits t) : ∀ c ∈ t, c.toNat < 128 :=
  fun c hc => Text.ascii_of_isDigit (h.2 c hc)

theorem Lexeme.ascii {t : List Char} (h : Lexeme t) : ∀ c ∈ t, c.toNat < 128 := by
  rcases h with hBlank | ⟨i, hDenotes⟩ | rfl
  · intro c hc
    have hMem := hBlank.2 c hc
    simp only [blanks, List.mem_cons, List.not_mem_nil, or_false] at hMem
    rcases hMem with rfl | rfl | rfl | rfl | rfl <;> decide
  · cases hDenotes with
    | plain h => exact h.ascii
    | plus h => exact List.forall_mem_cons.mpr ⟨by decide, h.ascii⟩
    | minus h => exact List.forall_mem_cons.mpr ⟨by decide, h.ascii⟩
  · exact List.forall_mem_singleton.mpr (by decide)

theorem Split.ascii {cs : List Char} {ts : List (List Char)} (h : Split cs ts) :
    ∀ c ∈ cs, c.toNat < 128 := by
  induction h with
  | nil => exact fun c hc => absurd hc List.not_mem_nil
  | cons hLexeme _ _ ih =>
    intro c hc
    rcases List.mem_append.mp hc with hc | hc
    · exact hLexeme.ascii c hc
    · exact ih c hc

end

/-! ### Numerals of integers -/

theorem magnitude_snoc (ds : List Char) (c : Char) :
    magnitude (ds ++ [c]) = (c.toNat - '0'.toNat) + 10 * magnitude ds := by
  simp only [magnitude, List.reverse_append, List.reverse_singleton, List.singleton_append,
    List.map_cons, Nat.ofDigits_cons]

theorem extend_zero (ds : List Char) : Decimal.extend 0 ds = magnitude ds := by
  induction ds using List.reverseRecOn with
  | nil => rfl
  | append_singleton ds c ih =>
    rw [magnitude_snoc, ← ih, Nat.add_comm, Decimal.extend, List.foldl_append]
    rfl

theorem digits_toDigits (n : Nat) : Digits (Decimal.digits n) :=
  ⟨Nat.toDigits_ne_nil, fun _ hc => Nat.isDigit_of_mem_toDigits (by decide) (by decide) hc⟩

theorem magnitude_digits (n : Nat) : magnitude (Decimal.digits n) = n := by
  rw [← extend_zero]
  exact Nat.ofDigitChars_toDigits (by decide) (by decide)

/-- An integer is denoted by its decimal numeral. -/
theorem denotes_ofInt (i : Int) : Denotes (Decimal.ofInt i) i := by
  unfold Decimal.ofInt
  by_cases hSign : i < 0
  · have hMinus := Denotes.minus (digits_toDigits i.natAbs)
    rw [magnitude_digits, Int.ofNat_natAbs_of_nonpos (Int.le_of_lt hSign), Int.neg_neg] at hMinus
    rw [if_pos hSign]
    exact hMinus
  · have hPlain := Denotes.plain (digits_toDigits i.natAbs)
    rw [magnitude_digits, Int.natAbs_of_nonneg (Int.not_lt.mp hSign)] at hPlain
    rw [if_neg hSign]
    exact hPlain

/-! ### Lists with blanks -/

/-- The items in order, with any blanks around them. -/
inductive Spaced : List (List Char) → List Char → Prop
  | nil {gap : List Char} (hGap : ∀ c ∈ gap, c ∈ blanks) : Spaced [] gap
  | cons {gap t text : List Char} {items : List (List Char)} (hGap : ∀ c ∈ gap, c ∈ blanks)
      (hRest : Spaced items text) : Spaced (t :: items) (gap ++ (t ++ text))

section

variable {l gap text rest : List Char} {ts ls items : List (List Char)}

theorem Listed.cons (h : Listed ls items) (l : List Char) :
    Listed (l :: ls) (l :: [','] :: items) := by
  cases ls with
  | nil =>
    rcases h with rfl | ⟨hSome, -⟩
    · exact .inr ⟨List.cons_ne_nil l [], rfl⟩
    · exact absurd rfl hSome
  | cons l' ls =>
    rcases h with rfl | ⟨-, rfl⟩
    · exact .inl rfl
    · exact .inr ⟨List.cons_ne_nil l _, rfl⟩

theorem Listed.uncons (h : Listed (l :: ls) items) :
    ls = [] ∧ items = [l] ∨ ∃ rest, items = l :: [','] :: rest ∧ Listed ls rest := by
  cases ls with
  | nil =>
    rcases h with rfl | ⟨-, rfl⟩
    · exact .inl ⟨rfl, rfl⟩
    · exact .inr ⟨[], rfl, .inl rfl⟩
  | cons l' ls =>
    rcases h with rfl | ⟨-, rfl⟩
    · exact .inr ⟨_, rfl, .inl rfl⟩
    · exact .inr ⟨_, rfl, .inr ⟨List.cons_ne_nil l' ls, rfl⟩⟩

theorem Split.gap_append (hGap : ∀ c ∈ gap, c ∈ blanks) (h : Split text ts) :
    ∃ ts', Split (gap ++ text) ts' ∧ solid ts' = solid ts := by
  induction gap with
  | nil => exact ⟨ts, h, rfl⟩
  | cons c gap ih =>
    obtain ⟨ts', hSplit, hSame⟩ := ih fun d hd => hGap d (List.mem_cons_of_mem c hd)
    obtain ⟨ts'', hSplit', hSame'⟩ := hSplit.blank_cons (hGap c List.mem_cons_self)
    exact ⟨ts'', hSplit', hSame'.trans hSame⟩

theorem head?_gap_append (hGap : ∀ c ∈ gap, c ∈ blanks)
    (hRest : ∀ c ∈ rest.head?, c.isDigit = false) :
    ∀ c ∈ (gap ++ rest).head?, c.isDigit = false := by
  cases gap with
  | nil => exact hRest
  | cons c gap =>
    intro d hd
    cases hd
    by_contra hDigit
    exact not_blank_of_isDigit (Bool.not_eq_false _ ▸ hDigit) (hGap c List.mem_cons_self)

/-- **Blanks around numerals and commas do not count.** -/
theorem Spaced.split (h : Spaced items text) (hListed : Listed ls items)
    (hDenotes : ∀ l ∈ ls, ∃ i, Denotes l i) :
    ∃ ts, Split text ts ∧ solid ts = items := by
  induction ls generalizing items text with
  | nil =>
    rcases hListed with rfl | ⟨hSome, -⟩
    · cases h with
      | nil hGap =>
        obtain ⟨ts, hSplit, hSame⟩ := Split.nil.gap_append hGap
        rw [List.append_nil] at hSplit
        exact ⟨ts, hSplit, hSame⟩
    · exact absurd rfl hSome
  | cons l ls ih =>
    obtain ⟨i, hi⟩ := hDenotes l List.mem_cons_self
    -- What follows the numeral does not start with a digit, so the numeral ends here.
    have hNumeral : ∀ {gap rest : List Char} {ts : List (List Char)}, (∀ c ∈ gap, c ∈ blanks) →
        (∀ c ∈ rest.head?, c.isDigit = false) → Split rest ts →
        ∃ ts', Split (gap ++ (l ++ rest)) ts' ∧ solid ts' = l :: solid ts := by
      intro gap rest ts hGap hHead hSplit
      have hHere : Split (l ++ rest) (l :: ts) :=
        .cons (.inr (.inl ⟨i, hi⟩)) (hi.maximal_iff.mpr hHead) hSplit
      obtain ⟨ts', hSplit', hSame⟩ := hHere.gap_append hGap
      exact ⟨ts', hSplit', hSame.trans (solid_cons hi.not_blank ts)⟩
    rcases hListed.uncons with ⟨rfl, rfl⟩ | ⟨items, rfl, hRest⟩
    · cases h with
      | cons hGap hEnd =>
        cases hEnd with
        | @nil gap' hGap' =>
          obtain ⟨ts, hSplit, hSame⟩ := Split.nil.gap_append hGap'
          have hHead := @head?_gap_append _ [] hGap' nofun
          rw [List.append_nil] at hSplit hHead
          obtain ⟨ts', hSplit', hSame'⟩ := hNumeral hGap hHead hSplit
          exact ⟨ts', hSplit', by rw [hSame', hSame]; rfl⟩
    · cases h with
      | cons hGap hOthers =>
        cases hOthers with
        | @cons gap' _ text' _ hGap' hOthers =>
          obtain ⟨ts, hSplit, hSame⟩ :=
            ih hOthers hRest fun l hl => hDenotes l (List.mem_cons_of_mem _ hl)
          have hComma : Split ([','] ++ text') ([','] :: ts) :=
            .cons (.inr (.inr rfl)) (maximal_comma text') hSplit
          obtain ⟨ts₁, hSplit₁, hSame₁⟩ := hComma.gap_append hGap'
          have hHead : ∀ c ∈ (gap' ++ ([','] ++ text')).head?, c.isDigit = false :=
            head?_gap_append hGap' fun c hc => Option.some.inj hc ▸ rfl
          obtain ⟨ts₂, hSplit₂, hSame₂⟩ := hNumeral hGap hHead hSplit₁
          refine ⟨ts₂, hSplit₂, ?_⟩
          rw [hSame₂, hSame₁, solid_cons not_blank_comma, hSame]

end

theorem Spaced.written {vs : List Int64} {items : List (List Char)} {text : List Char}
    (h : Spaced items text) (hListed : Listed (vs.map fun v => Decimal.ofInt v.toInt) items) :
    Written text (vs.map Int64.toInt) := by
  have hDenotes : List.Forall₂ Denotes (vs.map fun v => Decimal.ofInt v.toInt)
      (vs.map Int64.toInt) := by
    rw [List.forall₂_map_left_iff, List.forall₂_map_right_iff, List.forall₂_same]
    exact fun v _ => denotes_ofInt v.toInt
  have hAll : ∀ l ∈ vs.map fun v => Decimal.ofInt v.toInt, ∃ i, Denotes l i := by
    intro l hl
    obtain ⟨v, -, rfl⟩ := List.mem_map.mp hl
    exact ⟨v.toInt, denotes_ofInt v.toInt⟩
  obtain ⟨ts, hSplit, hSame⟩ := h.split hListed hAll
  exact ⟨ts, _, hSplit, hSame ▸ hListed, hDenotes⟩

end HullRobot.Image
