import HullRobot.Proofs.Image.Grammar
import HullRobot.Proofs.Text.Ascii
import Mathlib.Data.List.TakeWhile

/-!
# Reading images

An image is read in three passes, and each pass does what the language asks for.

* `scan_sound`, `scan_complete`: **scanning finds the lexemes that are not blank.**
* `numerals_sound`, `numerals_complete`: **numerals with commas between them are read**, and no
  other tokens.
* `parse_iff`, `parseBytes_iff`: so a text is read as cells if and only if it is written so.
-/

namespace HullRobot.Image

/-! ### Cells -/

section

variable {t : List Char} {i : Int}

theorem literalValue_of_digits {ds : List Char} (h : Digits ds) :
    literalValue ds = magnitude ds := by
  have hSign : ∀ rest, ds ≠ '-' :: rest ∧ ds ≠ '+' :: rest := by
    intro rest
    constructor
    · rintro rfl
      cases h.2 '-' List.mem_cons_self
    · rintro rfl
      cases h.2 '+' List.mem_cons_self
  unfold literalValue
  split
  · exact absurd rfl (hSign _).1
  · exact absurd rfl (hSign _).2
  · rw [extend_zero]

theorem Denotes.literalValue_eq (h : Denotes t i) : literalValue t = i := by
  cases h with
  | plain h => exact literalValue_of_digits h
  | plus h => rw [literalValue, extend_zero]
  | minus h => rw [literalValue, extend_zero]

theorem forall₂_denotes_iff {numerals : List (List Char)} {is : List Int} :
    List.Forall₂ Denotes numerals is ↔
      (∀ t ∈ numerals, ∃ i, Denotes t i) ∧ is = numerals.map literalValue := by
  constructor
  · intro h
    induction h with
    | nil => exact ⟨fun t ht => absurd ht List.not_mem_nil, rfl⟩
    | cons hFirst _ ih =>
      refine ⟨fun t ht => ?_, by rw [List.map_cons, hFirst.literalValue_eq, ih.2]⟩
      rcases List.mem_cons.mp ht with rfl | ht
      · exact ⟨_, hFirst⟩
      · exact ih.1 t ht
  · rintro ⟨h, rfl⟩
    induction numerals with
    | nil => exact .nil
    | cons t numerals ih =>
      obtain ⟨i, hFirst⟩ := h t List.mem_cons_self
      refine .cons ?_ (ih fun t ht => h t (List.mem_cons_of_mem _ ht))
      rw [hFirst.literalValue_eq]
      exact hFirst

theorem cell?_eq_some_iff {v : Int64} : cell? i = some v ↔ i = v.toInt := by
  unfold cell?
  constructor
  · intro h
    split at h
    · next hRange =>
      cases h
      exact (Int64.toInt_ofInt_of_le hRange.1 (Int.lt_of_le_of_lt hRange.2 (by decide))).symm
    · cases h
  · rintro rfl
    rw [if_pos ⟨v.minValue_le_toInt, v.toInt_le⟩, Int64.ofInt_toInt]

theorem map_eq_ok_iff {ε α β : Type} {f : α → β} {x : Except ε α} {b : β} :
    x.map f = .ok b ↔ ∃ a, x = .ok a ∧ f a = b := by
  cases x with
  | error e => exact ⟨nofun, nofun⟩
  | ok a =>
    constructor
    · exact fun h => ⟨a, rfl, Except.ok.inj h⟩
    · rintro ⟨a', hEq, rfl⟩
      cases hEq
      rfl

theorem values_iff {index : Nat} {found : List Numeral} {vs : List Int64} :
    values index found = .ok vs ↔
      found.map (fun n => literalValue n.literal) = vs.map Int64.toInt := by
  induction found generalizing index vs with
  | nil =>
    cases vs with
    | nil => exact ⟨fun _ => rfl, fun _ => rfl⟩
    | cons v vs => exact ⟨nofun, nofun⟩
  | cons n rest ih =>
    unfold values
    constructor
    · intro h
      split at h
      · next v hCell =>
        obtain ⟨ws, hRest, rfl⟩ := map_eq_ok_iff.mp h
        rw [List.map_cons, List.map_cons, cell?_eq_some_iff.mp hCell, ih.mp hRest]
      · cases h
    · intro h
      cases vs with
      | nil => cases h
      | cons v vs =>
        obtain ⟨hFirst, hRest⟩ := List.cons.inj h
        rw [cell?_eq_some_iff.mpr hFirst]
        exact map_eq_ok_iff.mpr ⟨vs, ih.mpr hRest, rfl⟩

end

/-! ### Scanning -/

section

variable {t rest cs : List Char} {i : Int}

theorem digits_takeWhile {cs : List Char} (h : (cs.takeWhile Char.isDigit).isEmpty = false) :
    Digits (cs.takeWhile Char.isDigit) := by
  refine ⟨fun hNil => ?_, fun c hc => List.mem_takeWhile_imp hc⟩
  rw [hNil] at h
  cases h

theorem head?_dropWhile (cs : List Char) :
    ∀ c ∈ (cs.dropWhile Char.isDigit).head?, c.isDigit = false := by
  intro c hc
  have := List.head?_dropWhile_not Char.isDigit cs
  rw [Option.mem_def.mp hc] at this
  exact this

theorem takeWhile_digits {ds : List Char} (h : Digits ds)
    (hRest : ∀ c ∈ rest.head?, c.isDigit = false) : (ds ++ rest).takeWhile Char.isDigit = ds := by
  rw [List.takeWhile_append_of_pos h.2]
  cases rest with
  | nil => exact List.append_nil ds
  | cons c rest => rw [List.takeWhile_cons_of_neg (by simp [hRest c rfl]), List.append_nil]

/-- The numeral that is found is one, and as long as it can be. -/
theorem literal?_sound (h : literal? cs = some t) :
    ∃ rest, cs = t ++ rest ∧ (∃ i, Denotes t i) ∧ Maximal t rest := by
  unfold literal? at h
  cases cs with
  | nil => cases h
  | cons c cs =>
    dsimp only at h
    split at h
    · next hSign =>
      split at h
      · cases h
      · next hSome =>
        cases h
        have hDigits := digits_takeWhile (Bool.eq_false_iff.mpr hSome)
        have hDenotes : ∃ i, Denotes (c :: cs.takeWhile Char.isDigit) i := by
          rcases hSign with rfl | rfl
          · exact ⟨_, .minus hDigits⟩
          · exact ⟨_, .plus hDigits⟩
        refine ⟨cs.dropWhile Char.isDigit, ?_, hDenotes, ?_⟩
        · rw [List.cons_append, List.takeWhile_append_dropWhile]
        · obtain ⟨i, hi⟩ := hDenotes
          exact hi.maximal_iff.mpr (head?_dropWhile cs)
    · split at h
      · cases h
      · next hSome =>
        cases h
        have hDigits := digits_takeWhile (Bool.eq_false_iff.mpr hSome)
        exact ⟨(c :: cs).dropWhile Char.isDigit, List.takeWhile_append_dropWhile.symm,
          ⟨_, .plain hDigits⟩, (Denotes.plain hDigits).maximal_iff.mpr (head?_dropWhile _)⟩

theorem literal?_complete (h : Denotes t i) (hMaximal : Maximal t rest) :
    literal? (t ++ rest) = some t := by
  have hRest := h.maximal_iff.mp hMaximal
  cases h with
  | plus h =>
    simp only [literal?, List.cons_append, takeWhile_digits h hRest, List.isEmpty_iff, h.1, or_true,
      if_true, if_false]
  | minus h =>
    simp only [literal?, List.cons_append, takeWhile_digits h hRest, List.isEmpty_iff, h.1, true_or,
      if_true, if_false]
  | plain h =>
    have hAll := takeWhile_digits h hRest
    obtain ⟨c, ds, rfl⟩ := List.exists_cons_of_ne_nil h.1
    have hSign : ¬(c = '-' ∨ c = '+') := by
      have := h.2 c List.mem_cons_self
      rintro (rfl | rfl) <;> cases this
    rw [List.cons_append] at hAll
    simp only [literal?, List.cons_append, hSign, if_false, hAll, List.isEmpty_cons,
      Bool.false_eq_true]

/-- The token is the lexeme. -/
def Placed.Reads (q : Placed) (t : List Char) : Prop :=
  t = q.token.chars ∧ (q.token = .comma ∨ ∃ i, Denotes t i)

/-- **Scanning cuts a text into lexemes**, and leaves out those that are blank. -/
theorem scan_sound {used : Nat} {p : Place} {placed : List Placed}
    (h : scan used p cs = .ok placed) :
    ∃ ts, Split (cs.drop used) ts ∧ List.Forall₂ Placed.Reads placed (solid ts) := by
  -- The characters in use belong to the numeral before them, so the cut starts behind them.
  fun_induction scan used p cs generalizing placed with
  | case1 used p =>
    cases h
    exact ⟨[], by rw [List.drop_nil]; exact .nil, .nil⟩
  | case2 used p c rest ih => exact ih h
  | case3 p c rest hBlank ih =>
    obtain ⟨ts, hSplit, hReads⟩ := ih h
    obtain ⟨ts', hSplit', hSame⟩ := hSplit.blank_cons (isBlank_iff.mp hBlank)
    exact ⟨ts', hSplit', hSame ▸ hReads⟩
  | case4 p rest hBlank ih =>
    obtain ⟨found, hFound, rfl⟩ := map_eq_ok_iff.mp h
    obtain ⟨ts, hSplit, hReads⟩ := ih hFound
    refine ⟨[','] :: ts, .cons (.inr (.inr rfl)) (maximal_comma rest) hSplit, ?_⟩
    rw [solid_cons not_blank_comma]
    exact .cons ⟨rfl, .inl rfl⟩ hReads
  | case5 p c rest hBlank hComma literal hLiteral ih =>
    obtain ⟨found, hFound, rfl⟩ := map_eq_ok_iff.mp h
    obtain ⟨ts, hSplit, hReads⟩ := ih hFound
    obtain ⟨after, hCut, ⟨i, hDenotes⟩, hMaximal⟩ := literal?_sound hLiteral
    obtain ⟨c', ds, rfl, -⟩ := hDenotes.shape
    rw [List.cons_append] at hCut
    obtain ⟨rfl, rfl⟩ := List.cons.inj hCut
    rw [List.length_cons, Nat.add_sub_cancel, List.drop_left] at hSplit
    refine ⟨(c :: ds) :: ts, .cons (.inr (.inl ⟨i, hDenotes⟩)) hMaximal hSplit, ?_⟩
    rw [solid_cons hDenotes.not_blank]
    exact .cons ⟨rfl, .inr ⟨i, hDenotes⟩⟩ hReads
  | case6 p c rest hBlank hComma hNone => cases h

theorem scan_append (pre : List Char) (p : Place) (cs : List Char) :
    scan pre.length p (pre ++ cs) = scan 0 (pre.foldl Place.after p) cs := by
  induction pre generalizing p with
  | nil => rfl
  | cons c pre ih =>
    rw [List.length_cons, List.cons_append, scan]
    exact ih (p.after c)

theorem scan_blanks {pre : List Char} (h : ∀ c ∈ pre, c ∈ blanks) (p : Place) (cs : List Char) :
    scan 0 p (pre ++ cs) = scan 0 (pre.foldl Place.after p) cs := by
  induction pre generalizing p with
  | nil => rfl
  | cons c pre ih =>
    rw [List.cons_append, scan, if_pos (isBlank_iff.mpr (h c List.mem_cons_self))]
    exact ih (fun d hd => h d (List.mem_cons_of_mem c hd)) (p.after c)

/-- **Each cut into lexemes is found.** -/
theorem scan_complete {ts : List (List Char)} (h : Split cs ts) (p : Place) :
    ∃ placed, scan 0 p cs = .ok placed ∧ List.Forall₂ Placed.Reads placed (solid ts) := by
  induction h generalizing p with
  | nil => exact ⟨[], rfl, .nil⟩
  | @cons t rest ts hLexeme hMaximal hRest ih =>
    rcases hLexeme with hBlank | ⟨i, hDenotes⟩ | rfl
    · obtain ⟨placed, hScan, hReads⟩ := ih (t.foldl Place.after p)
      refine ⟨placed, (scan_blanks hBlank.2 p rest).trans hScan, ?_⟩
      rw [solid_cons_blank hBlank]
      exact hReads
    · have hLiteral := literal?_complete hDenotes hMaximal
      have hToken := hDenotes.not_blank
      obtain ⟨c, ds, rfl, hBlank, hComma, -⟩ := hDenotes.shape
      obtain ⟨placed, hScan, hReads⟩ := ih (ds.foldl Place.after (p.after c))
      refine ⟨⟨.number (c :: ds), p⟩ :: placed, ?_, ?_⟩
      · rw [List.cons_append] at hLiteral ⊢
        rw [scan, if_neg (isBlank_iff.not.mpr hBlank), if_neg hComma, hLiteral]
        simp only [List.length_cons, Nat.add_sub_cancel, scan_append, hScan]
        rfl
      · rw [solid_cons hToken]
        exact .cons ⟨rfl, .inr ⟨i, hDenotes⟩⟩ hReads
    · obtain ⟨placed, hScan, hReads⟩ := ih (p.after ',')
      refine ⟨⟨.comma, p⟩ :: placed, ?_, ?_⟩
      · rw [List.singleton_append, scan, if_neg (by decide), if_pos rfl, hScan]
        rfl
      · rw [solid_cons not_blank_comma]
        exact .cons ⟨rfl, .inl rfl⟩ hReads

end

/-! ### The order of tokens -/

section

variable {ls items : List (List Char)} {l t : List Char} {q : Placed} {i : Int}

theorem Placed.Reads.number (h : q.Reads t) (ht : Denotes t i) : q.token = .number t := by
  obtain ⟨rfl, -⟩ := h
  cases hToken : q.token with
  | number literal => rfl
  | comma =>
    rw [hToken] at ht
    exact absurd rfl ht.ne_comma

theorem Placed.Reads.comma (h : q.Reads [',']) : q.token = .comma := by
  rcases h.2 with hComma | ⟨i, hi⟩
  · exact hComma
  · exact absurd rfl hi.ne_comma

/-- **Tokens that are read are numerals with commas between them.** -/
theorem numerals_sound : ∀ {placed : List Placed} {items : List (List Char)} {found : List Numeral},
    List.Forall₂ Placed.Reads placed items → numerals placed = .ok found →
      Listed (found.map Numeral.literal) items ∧ ∀ n ∈ found, ∃ i, Denotes n.literal i
  | [], _, _, .nil, h => by
    cases h
    exact ⟨.inl rfl, fun n hn => absurd hn List.not_mem_nil⟩
  | ⟨.comma, _⟩ :: _, _, _, _, h => by cases h
  | [⟨.number literal, place⟩], _, _, .cons ⟨hText, hDenotes⟩ .nil, h => by
    cases h
    subst hText
    refine ⟨.inl rfl, fun n hn => ?_⟩
    rw [List.mem_singleton.mp hn]
    exact hDenotes.resolve_left nofun
  | ⟨.number _, _⟩ :: ⟨.number _, _⟩ :: _, _, _, _, h => by cases h
  | ⟨.number literal, place⟩ :: ⟨.comma, _⟩ :: rest, _, found,
      .cons ⟨hText, hDenotes⟩ (.cons ⟨hComma, _⟩ hRest), h => by
    obtain ⟨ns, hFound, rfl⟩ := map_eq_ok_iff.mp h
    obtain ⟨hListed, hAll⟩ := numerals_sound hRest hFound
    subst hText hComma
    refine ⟨hListed.cons _, fun n hn => ?_⟩
    rcases List.mem_cons.mp hn with rfl | hn
    · exact hDenotes.resolve_left nofun
    · exact hAll n hn

/-- **Numerals with commas between them are read.** -/
theorem numerals_complete {placed : List Placed} (hReads : List.Forall₂ Placed.Reads placed items)
    (hListed : Listed ls items) (hDenotes : ∀ l ∈ ls, ∃ i, Denotes l i) :
    ∃ found, numerals placed = .ok found ∧ found.map Numeral.literal = ls := by
  induction ls generalizing items placed with
  | nil =>
    rcases hListed with rfl | ⟨hSome, -⟩
    · cases hReads
      exact ⟨[], rfl, rfl⟩
    · exact absurd rfl hSome
  | cons l ls ih =>
    obtain ⟨i, hi⟩ := hDenotes l List.mem_cons_self
    rcases hListed.uncons with ⟨rfl, rfl⟩ | ⟨rest, rfl, hRest⟩
    · cases hReads with
      | @cons q _ placed _ hFirst hNil =>
        cases hNil
        obtain ⟨token, place⟩ := q
        obtain rfl := hFirst.number hi
        exact ⟨[⟨l, place⟩], rfl, rfl⟩
    · cases hReads with
      | @cons q _ _ _ hFirst hOthers =>
        cases hOthers with
        | @cons q' _ placed _ hSecond hOthers =>
          obtain ⟨found, hFound, hLiterals⟩ :=
            ih hOthers hRest fun l hl => hDenotes l (List.mem_cons_of_mem _ hl)
          obtain ⟨token, place⟩ := q
          obtain ⟨token', place'⟩ := q'
          obtain rfl := hFirst.number hi
          obtain rfl := hSecond.comma
          refine ⟨⟨l, place⟩ :: found, ?_, by rw [List.map_cons, hLiterals]⟩
          exact map_eq_ok_iff.mpr ⟨found, hFound, rfl⟩

end

/-! ### Texts -/

theorem parse_eq_ok_iff {cs : List Char} {vs : List Int64} : parse cs = .ok vs ↔
    ∃ placed found, tokens cs = .ok placed ∧ numerals placed = .ok found ∧
      values 0 found = .ok vs := by
  unfold parse
  cases tokens cs with
  | error e => exact ⟨nofun, fun ⟨_, _, h, _⟩ => nomatch h⟩
  | ok placed =>
    change (numerals placed).bind (values 0) = .ok vs ↔ _
    cases hFound : numerals placed with
    | error e =>
      constructor
      · nofun
      · rintro ⟨placed', found, hPlaced, hFound', -⟩
        cases hPlaced
        rw [hFound] at hFound'
        cases hFound'
    | ok found =>
      constructor
      · exact fun h => ⟨placed, found, rfl, hFound, h⟩
      · rintro ⟨placed', found', hPlaced, hFound', h⟩
        cases hPlaced
        cases hFound.symm.trans hFound'
        exact h

/-- **A text is read as cells if and only if it is written so.** -/
theorem parse_iff {cs : List Char} {vs : List Int64} :
    parse cs = .ok vs ↔ Written cs (vs.map Int64.toInt) := by
  rw [parse_eq_ok_iff]
  constructor
  · rintro ⟨placed, found, hTokens, hNumerals, hValues⟩
    obtain ⟨ts, hSplit, hReads⟩ := scan_sound hTokens
    obtain ⟨hListed, hDenotes⟩ := numerals_sound hReads hNumerals
    refine ⟨ts, found.map Numeral.literal, hSplit, hListed, forall₂_denotes_iff.mpr ⟨?_, ?_⟩⟩
    · intro t ht
      obtain ⟨n, hn, rfl⟩ := List.mem_map.mp ht
      exact hDenotes n hn
    · rw [List.map_map, ← values_iff.mp hValues]
      rfl
  · rintro ⟨ts, ls, hSplit, hListed, hDenotes⟩
    obtain ⟨hAll, hInts⟩ := forall₂_denotes_iff.mp hDenotes
    obtain ⟨placed, hTokens, hReads⟩ := scan_complete hSplit {}
    obtain ⟨found, hNumerals, rfl⟩ := numerals_complete hReads hListed hAll
    refine ⟨placed, found, hTokens, hNumerals, values_iff.mpr ?_⟩
    rw [hInts, List.map_map]
    rfl

/-- No byte beyond ASCII is part of an image. -/
theorem parseBytes_iff {bytes : List UInt8} {vs : List Int64} :
    parseBytes bytes = .ok vs ↔ Written (Text.latin bytes) (vs.map Int64.toInt) := by
  rw [parseBytes, parse_iff]
  constructor
  · intro h
    obtain ⟨ts, -, hSplit, -⟩ := id h
    rwa [← Text.lossy_eq_latin hSplit.ascii]
  · intro h
    obtain ⟨ts, -, hSplit, -⟩ := id h
    rwa [Text.lossy_latin hSplit.ascii]

theorem latin_asciiBytes {cs : List Char} (h : ∀ c ∈ cs, c.toNat < 128) :
    Text.latin (Decimal.asciiBytes cs) = cs := by
  rw [Text.latin, Decimal.asciiBytes, List.map_map]
  refine (List.map_congr_left fun c hc => ?_).trans (List.map_id cs)
  have hByte : c.toNat.toUInt8.toNat = c.toNat := by
    have := h c hc
    rw [Nat.toUInt8, UInt8.toNat_ofNat']
    omega
  rw [Function.comp, hByte, Char.ofNat_toNat, id]

theorem not_blank_of_mem_numeral {i : Int} {c : Char} (hc : c ∈ Decimal.ofInt i) : c ∉ blanks := by
  obtain ⟨first, digits, hShape, hFirst, -, hDigits⟩ := (denotes_ofInt i).shape
  rw [hShape] at hc
  rcases List.mem_cons.mp hc with rfl | hc
  · exact hFirst
  · exact not_blank_of_isDigit (hDigits c hc)

theorem feed_not_mem_numeral (i : Int) : '\n' ∉ Decimal.ofInt i := fun hFeed =>
  not_blank_of_mem_numeral hFeed (by decide)

/-- Lines without the character that ends each of them are read back by splitting there. -/
theorem splitOn_ended {α : Type} [BEq α] [LawfulBEq α] {stop : α} {lines : List (List α)}
    (h : ∀ l ∈ lines, stop ∉ l) :
    (lines.flatMap fun line => line ++ [stop]).splitOn stop = lines ++ [[]] := by
  induction lines with
  | nil => rfl
  | cons l lines ih =>
    rw [List.flatMap_cons, List.append_assoc, List.singleton_append,
      List.splitOn_append_cons_self_of_not_mem (h l List.mem_cons_self),
      ih fun l' hl' => h l' (List.mem_cons_of_mem l hl')]
    rfl

/-- A numeral is the image of its cell. -/
theorem written_numeral (v : Int64) : Written (Decimal.ofInt v.toInt) [v.toInt] := by
  have hSpaced : Spaced [Decimal.ofInt v.toInt] (Decimal.ofInt v.toInt) := by
    have hAlone := @Spaced.cons [] (Decimal.ofInt v.toInt) [] [] nofun (.nil nofun)
    rwa [List.nil_append, List.append_nil] at hAlone
  exact @Spaced.written [v] _ _ hSpaced (.inl rfl)

/-- **An image is read if and only if it is written by the rules**, as text or as bytes, and then
its cells are the integers that it is written with.  All cells can be written so, with any blanks
around their numerals and the commas, and with or without a comma after the last. -/
theorem reads_written_images :
    (∀ (cs : List Char) (vs : List Int64),
      parse cs = .ok vs ↔ Written cs (vs.map Int64.toInt)) ∧
    (∀ cs : List Char, (∃ vs, parse cs = .ok vs) ↔ ∃ is, Written cs is ∧
      ∀ i ∈ is, -9223372036854775808 ≤ i ∧ i ≤ 9223372036854775807) ∧
    (∀ (bytes : List UInt8) (vs : List Int64),
      parseBytes bytes = .ok vs ↔ Written (Text.latin bytes) (vs.map Int64.toInt)) ∧
    (∀ (vs : List Int64) (items : List (List Char)) (text : List Char),
      Listed (vs.map fun v => Decimal.ofInt v.toInt) items → Spaced items text →
      parse text = .ok vs ∧ parseBytes (Decimal.asciiBytes text) = .ok vs) := by
  refine ⟨fun cs vs => parse_iff, fun cs => ?_, fun bytes vs => parseBytes_iff,
    fun vs items text hListed hSpaced => ?_⟩
  · constructor
    · rintro ⟨vs, hParse⟩
      refine ⟨vs.map Int64.toInt, parse_iff.mp hParse, fun i hi => ?_⟩
      obtain ⟨v, -, rfl⟩ := List.mem_map.mp hi
      exact ⟨v.minValue_le_toInt, v.toInt_le⟩
    · rintro ⟨is, hWritten, hRange⟩
      refine ⟨is.map Int64.ofInt, parse_iff.mpr ?_⟩
      have hSame : (is.map Int64.ofInt).map Int64.toInt = is := by
        rw [List.map_map]
        refine (List.map_congr_left fun i hi => ?_).trans (List.map_id is)
        obtain ⟨hLow, hHigh⟩ := hRange i hi
        exact Int64.toInt_ofInt_of_le hLow (Int.lt_of_le_of_lt hHigh (by decide))
      rwa [hSame]
  · have hWritten := hSpaced.written hListed
    refine ⟨parse_iff.mpr hWritten, parseBytes_iff.mpr ?_⟩
    obtain ⟨ts, -, hSplit, -⟩ := id hWritten
    rwa [latin_asciiBytes hSplit.ascii]

/-- Blanks and a comma after the last numeral, and the least cell. -/
theorem reads_written_images_spaced :
    let text := [' ', '-', '3', '0', '\n', ',', '\t', '7', ',', ' ']
    let items := [['-', '3', '0'], [','], ['7'], [',']]
    Listed [Decimal.ofInt (-30), Decimal.ofInt 7] items ∧ Spaced items text ∧
      parse text = .ok [-30, 7] ∧
      Written "-9223372036854775808".toList [-9223372036854775808] := by
  intro text items
  have hListed : Listed [Decimal.ofInt (-30), Decimal.ofInt 7] items := .inr (by decide)
  have hGap : ∀ {c : Char}, c ∈ blanks → ∀ d ∈ [c], d ∈ blanks := fun h =>
    List.forall_mem_singleton.mpr h
  have hSpaced : Spaced items text :=
    @Spaced.cons [' '] _ _ _ (hGap (by decide)) (@Spaced.cons ['\n'] _ _ _ (hGap (by decide))
      (@Spaced.cons ['\t'] _ _ _ (hGap (by decide)) (@Spaced.cons [] _ _ _ nofun
        (@Spaced.nil [' '] (hGap (by decide))))))
  have hLeast : parse "-9223372036854775808".toList = .ok [Int64.minValue] := by decide +kernel
  obtain ⟨hParse, -, -, hSpelled⟩ := reads_written_images
  exact ⟨hListed, hSpaced, (hSpelled [-30, 7] items text hListed hSpaced).1,
    (hParse _ _).mp hLeast⟩

example : (["1-2", "1 2", ",", "1,,2", "- 1", "9223372036854775808"].map fun text =>
    (parse text.toList).isOk) = List.replicate 6 false := by decide +kernel

end HullRobot.Image
