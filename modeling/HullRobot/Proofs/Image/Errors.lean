import HullRobot.Proofs.Image.Reading
import Mathlib.Data.List.DropRight
import Mathlib.Data.Nat.Find

/-!
# What a rejected image is told

A text that is no image has a first fault, and its error tells which one and where (`Misread`).  If
the text cannot be cut into lexemes, the fault is where the cut ends.  If it can, but the lexemes
are in no order that an image has, the fault is the first that no image can have there.  Else it is
the first number that no cell can hold.

* `scan_cut`, `scan_stuck`: **scanning follows the cut and ends where the cut ends.**
* `numerals_error_iff`: **the first lexeme out of order is reported**.  `values_error_iff`: **so is
  the first number out of range**.
* `placeBehind_eq`: the place that is carried along is the one that counts lines and characters.
* `parseBytes_eq_error_iff`: so the error of a text is that of its first fault.
-/

namespace HullRobot.Image

/-! ### Cutting a text -/

/-- No lexeme starts the text. -/
def Stuck (rest : List Char) : Prop := ∀ t, t <+: rest → ¬Lexeme t

/-- The text is cut into lexemes, each as long as it can be, up to `rest`. -/
inductive Cut : List Char → List (List Char) → List Char → Prop
  | done (rest : List Char) : Cut rest [] rest
  | cons {t cs rest : List Char} {ts : List (List Char)} (hLexeme : Lexeme t)
      (hMaximal : Maximal t cs) (hRest : Cut cs ts rest) : Cut (t ++ cs) (t :: ts) rest

section

variable {t cs rest : List Char} {ts : List (List Char)}

theorem Cut.eq_append (h : Cut cs ts rest) : cs = ts.flatten ++ rest := by
  induction h with
  | done rest => rfl
  | cons _ _ _ ih => rw [List.flatten_cons, List.append_assoc, ← ih]

theorem Cut.lexeme (h : Cut cs ts rest) : ∀ t ∈ ts, Lexeme t := by
  induction h with
  | done rest => exact fun t ht => absurd ht List.not_mem_nil
  | cons hLexeme _ _ ih => exact List.forall_mem_cons.mpr ⟨hLexeme, ih⟩

theorem cut_nil_iff : Cut cs ts [] ↔ Split cs ts := by
  constructor
  · intro h
    generalize hEnd : ([] : List Char) = rest at h
    induction h with
    | done rest => exact hEnd ▸ .nil
    | cons hLexeme hMaximal _ ih => exact .cons hLexeme hMaximal (ih hEnd)
  · intro h
    induction h with
    | nil => exact .done []
    | cons hLexeme hMaximal _ ih => exact .cons hLexeme hMaximal ih

theorem Split.lexeme (h : Split cs ts) : ∀ t ∈ ts, Lexeme t := (cut_nil_iff.mpr h).lexeme

/-- Of the lexemes that start a text one is the longest. -/
theorem exists_maximal (h : ¬Stuck cs) : ∃ t rest, cs = t ++ rest ∧ Lexeme t ∧ Maximal t rest := by
  classical
  simp only [Stuck, not_forall, not_not] at h
  obtain ⟨u, hPrefix, hu⟩ := h
  have hStart : cs.take u.length = u := (List.prefix_iff_eq_take.mp hPrefix).symm
  let longest := Nat.findGreatest (fun n => Lexeme (cs.take n)) cs.length
  have hLongest : Lexeme (cs.take longest) :=
    Nat.findGreatest_spec (P := fun n => Lexeme (cs.take n)) hPrefix.length_le (hStart.symm ▸ hu)
  refine ⟨cs.take longest, cs.drop longest, (List.take_append_drop _ _).symm, hLongest, ?_⟩
  rintro v hv ⟨rest, hRest⟩ hLexeme
  have hLength := congrArg List.length hRest
  rw [List.length_append, List.length_drop] at hLength
  have hSome := List.length_pos_iff.mpr hv
  have hTake : cs.take longest ++ v = cs.take (longest + v.length) := by
    rw [List.take_add, ← hRest, List.take_left]
  exact Nat.findGreatest_is_greatest (P := fun n => Lexeme (cs.take n))
    (show longest < longest + v.length by omega) (by omega) (hTake ▸ hLexeme)

/-- Every text is cut as far as it can be. -/
theorem exists_cut (cs : List Char) : ∃ ts rest, Cut cs ts rest ∧ Stuck rest := by
  induction hLength : cs.length using Nat.strong_induction_on generalizing cs with
  | _ n ih =>
    by_cases hStuck : Stuck cs
    · exact ⟨[], cs, .done cs, hStuck⟩
    · obtain ⟨t, cs, rfl, hLexeme, hMaximal⟩ := exists_maximal hStuck
      have hSome := List.length_pos_iff.mpr hLexeme.ne_nil
      rw [List.length_append] at hLength
      obtain ⟨ts, rest, hCut, hEnd⟩ := ih cs.length (by omega) cs rfl
      exact ⟨t :: ts, rest, .cons hLexeme hMaximal hCut, hEnd⟩

/-! ### Scanning a cut text -/

/-- The token that a lexeme is. -/
def tokenOf (t : List Char) : Token := if t = [','] then .comma else .number t

theorem chars_tokenOf (t : List Char) : (tokenOf t).chars = t := by
  unfold tokenOf
  split
  · next h => exact h.symm
  · rfl

theorem tokenOf_denotes {i : Int} (h : Denotes t i) : tokenOf t = .number t := if_neg h.ne_comma

/-- The lexemes that are not blank, as tokens where they stand if the first lexeme stands at `p`. -/
def placedFrom : Place → List (List Char) → List Placed
  | _, [] => []
  | p, t :: ts =>
    if Blank t then placedFrom (t.foldl Place.after p) ts
    else ⟨tokenOf t, p⟩ :: placedFrom (t.foldl Place.after p) ts

/-- **Scanning follows the cut.** -/
theorem scan_cut (h : Cut cs ts rest) (p : Place) :
    scan 0 p cs = (scan 0 (ts.flatten.foldl Place.after p) rest).map (placedFrom p ts ++ ·) := by
  induction h generalizing p with
  | done rest =>
    change scan 0 p rest = (scan 0 p rest).map id
    cases scan 0 p rest <;> rfl
  | @cons t cs rest ts hLexeme hMaximal hRest ih =>
    rw [List.flatten_cons, List.foldl_append, placedFrom]
    rcases hLexeme with hBlank | ⟨i, hDenotes⟩ | rfl
    · rw [scan_blanks hBlank.2, if_pos hBlank, ih]
    · have hLiteral := literal?_complete hDenotes hMaximal
      rw [if_neg hDenotes.not_blank, tokenOf_denotes hDenotes]
      obtain ⟨c, ds, rfl, hBlank, hComma, -⟩ := hDenotes.shape
      rw [List.cons_append] at hLiteral ⊢
      rw [scan, if_neg (isBlank_iff.not.mpr hBlank), if_neg hComma, hLiteral]
      simp only [List.length_cons, Nat.add_sub_cancel, scan_append, ih, List.foldl_cons]
      cases scan 0 _ rest <;> rfl
    · rw [if_neg not_blank_comma, List.singleton_append, scan, if_neg (by decide), if_pos rfl, ih]
      simp only [List.foldl_cons, List.foldl_nil]
      cases scan 0 _ rest <;> rfl

/-- **It ends where the cut ends.** -/
theorem scan_stuck (h : Stuck rest) (hSome : rest ≠ []) (p : Place) :
    scan 0 p rest = .error (.noToken p rest) := by
  obtain ⟨c, cs, rfl⟩ := List.exists_cons_of_ne_nil hSome
  have hOne : [c] <+: c :: cs := ⟨cs, rfl⟩
  have hBlank : ¬isBlank c = true := fun hBlank =>
    h [c] hOne (.inl ⟨List.cons_ne_nil c [], List.forall_mem_singleton.mpr (isBlank_iff.mp hBlank)⟩)
  have hComma : c ≠ ',' := fun hComma => h [c] hOne (.inr (.inr (by rw [hComma])))
  have hLiteral : literal? (c :: cs) = none := by
    rw [Option.eq_none_iff_forall_not_mem]
    intro t ht
    obtain ⟨rest, hText, hDenotes, -⟩ := literal?_sound ht
    exact h t ⟨rest, hText.symm⟩ (.inr (.inl hDenotes))
  rw [scan, if_neg hBlank, if_neg hComma, hLiteral]

end

/-! ### Tokens where they stand -/

section

variable {p : Place} {ts : List (List Char)}

theorem placedFrom_append (p : Place) (ts us : List (List Char)) : placedFrom p (ts ++ us) =
    placedFrom p ts ++ placedFrom (ts.flatten.foldl Place.after p) us := by
  induction ts generalizing p with
  | nil => rfl
  | cons t ts ih =>
    rw [List.cons_append, placedFrom, placedFrom, List.flatten_cons, List.foldl_append, ih]
    split <;> rfl

theorem placedFrom_cons {t : List Char} (h : ¬Blank t) (p : Place) (ts : List (List Char)) :
    placedFrom p (t :: ts) = ⟨tokenOf t, p⟩ :: placedFrom (t.foldl Place.after p) ts := by
  rw [placedFrom, if_neg h]

theorem placedFrom_skip {t : List Char} (h : ¬Blank t) (p : Place)
    (skipped others : List (List Char)) :
    placedFrom p (skipped ++ t :: others) = placedFrom p skipped ++
      ⟨tokenOf t, skipped.flatten.foldl Place.after p⟩ ::
        placedFrom ((skipped ++ [t]).flatten.foldl Place.after p) others := by
  rw [placedFrom_append, placedFrom_cons h, List.flatten_append, List.foldl_append,
    List.flatten_singleton]

/-- Each token is some lexeme, and it stands behind those before. -/
theorem eq_of_placedFrom {before after : List Placed} {q : Placed}
    (h : placedFrom p ts = before ++ q :: after) :
    ∃ skipped t others, ts = skipped ++ t :: others ∧ ¬Blank t ∧ placedFrom p skipped = before ∧
      q = ⟨tokenOf t, skipped.flatten.foldl Place.after p⟩ := by
  induction ts generalizing p before with
  | nil => exact absurd h.symm (List.append_ne_nil_of_right_ne_nil _ (List.cons_ne_nil _ _))
  | cons t ts ih =>
    -- A blank lexeme or a token of `before` stands in front of those that are skipped later.
    have hSkip : ∀ {before' : List Placed},
        placedFrom (t.foldl Place.after p) ts = before' ++ q :: after →
        placedFrom p [t] ++ before' = before →
        ∃ skipped u others, t :: ts = skipped ++ u :: others ∧ ¬Blank u ∧
          placedFrom p skipped = before ∧
          q = ⟨tokenOf u, skipped.flatten.foldl Place.after p⟩ := by
      intro before' hLater hBefore
      obtain ⟨skipped, u, others, rfl, hu, rfl, rfl⟩ := ih hLater
      refine ⟨t :: skipped, u, others, rfl, hu, ?_, ?_⟩
      · rw [← hBefore, ← List.singleton_append, placedFrom_append, List.flatten_singleton]
      · rw [List.flatten_cons, List.foldl_append]
    rw [placedFrom] at h
    split at h
    · next hBlank => exact hSkip h (by rw [placedFrom, if_pos hBlank]; rfl)
    · next hSolid =>
      cases before with
      | nil =>
        obtain ⟨rfl, -⟩ := List.cons.inj h
        exact ⟨[], t, ts, rfl, hSolid, rfl, rfl⟩
      | cons q' before =>
        obtain ⟨rfl, hLater⟩ := List.cons.inj h
        exact hSkip hLater (by rw [placedFrom_cons hSolid]; rfl)

theorem reads_placedFrom (h : ∀ t ∈ ts, Lexeme t) (p : Place) :
    List.Forall₂ Placed.Reads (placedFrom p ts) (solid ts) := by
  induction ts generalizing p with
  | nil => exact .nil
  | cons t ts ih =>
    obtain ⟨hLexeme, hRest⟩ := List.forall_mem_cons.mp h
    by_cases hBlank : Blank t
    · rw [placedFrom, if_pos hBlank, solid_cons_blank hBlank]
      exact ih hRest _
    · rw [placedFrom_cons hBlank, solid_cons hBlank]
      refine .cons ⟨(chars_tokenOf t).symm, ?_⟩ (ih hRest _)
      rcases hLexeme.resolve_left hBlank with hDenotes | rfl
      · exact .inr hDenotes
      · exact .inl rfl

end

/-! ### The order of tokens -/

/-- The lexemes are those of an image, but for blanks and for what the numerals denote. -/
def Arranged (items : List (List Char)) : Prop :=
  ∃ numerals, Listed numerals items ∧ ∀ t ∈ numerals, ∃ i, Denotes t i

/-- Some image starts with the lexemes. -/
def Viable (items : List (List Char)) : Prop := ∃ more, Arranged (items ++ more)

/-- What starts an image is one. -/
theorem Arranged.of_append {items more : List (List Char)} (h : Arranged (items ++ more)) :
    Arranged items := by
  obtain ⟨ls, hListed, hDenotes⟩ := h
  induction ls generalizing items with
  | nil =>
    rcases hListed with hNil | ⟨hSome, -⟩
    · exact ⟨[], .inl (List.append_eq_nil_iff.mp hNil).1, hDenotes⟩
    · exact absurd rfl hSome
  | cons l ls ih =>
    obtain ⟨hFirst, hRest⟩ := List.forall_mem_cons.mp hDenotes
    have hOne : ∀ t ∈ [l], ∃ i, Denotes t i := List.forall_mem_singleton.mpr hFirst
    match items with
    | [] => exact ⟨[], .inl rfl, fun t ht => absurd ht List.not_mem_nil⟩
    | [t] =>
      rcases hListed.uncons with ⟨-, hItems⟩ | ⟨rest, hItems, -⟩
      all_goals
        obtain ⟨rfl, -⟩ := List.cons.inj hItems
        exact ⟨[t], .inl rfl, hOne⟩
    | t :: u :: items =>
      rcases hListed.uncons with ⟨-, hItems⟩ | ⟨rest, hItems, hOthers⟩
      · cases (List.cons.inj hItems).2
      · obtain ⟨rfl, hTail⟩ := List.cons.inj hItems
        obtain ⟨rfl, rfl⟩ := List.cons.inj hTail
        obtain ⟨ls', hListed', hDenotes'⟩ := ih hOthers hRest
        exact ⟨t :: ls', hListed'.cons t, List.forall_mem_cons.mpr ⟨hFirst, hDenotes'⟩⟩

theorem viable_iff {items : List (List Char)} : Viable items ↔ Arranged items := by
  constructor
  · rintro ⟨more, h⟩
    exact h.of_append
  · intro h
    exact ⟨[], by rwa [List.append_nil]⟩

theorem arranged_iff {placed : List Placed} {items : List (List Char)}
    (h : List.Forall₂ Placed.Reads placed items) :
    Arranged items ↔ ∃ found, numerals placed = .ok found := by
  constructor
  · rintro ⟨ls, hListed, hDenotes⟩
    obtain ⟨found, hFound, -⟩ := numerals_complete h hListed hDenotes
    exact ⟨found, hFound⟩
  · rintro ⟨found, hFound⟩
    obtain ⟨hListed, hDenotes⟩ := numerals_sound h hFound
    refine ⟨_, hListed, fun t ht => ?_⟩
    obtain ⟨n, hn, rfl⟩ := List.mem_map.mp ht
    exact hDenotes n hn

/-- The number that a token is, and where. -/
def Placed.numeral? : Placed → Option Numeral
  | ⟨.number literal, place⟩ => some ⟨literal, place⟩
  | ⟨.comma, _⟩ => none

/-- Reads tokens where a number may stand, or where a comma may. -/
def ordered (number : Bool) (placed : List Placed) : Except Error (List Numeral) :=
  if number then numerals placed else numeralsAfter placed

section

variable {number : Bool} {placed before after rest : List Placed} {q : Placed}
  {found : List Numeral} {e : Error}

theorem ordered_nil (number : Bool) : ordered number [] = .ok [] := by
  cases number <;> rfl

theorem ordered_cons (number : Bool) (q : Placed) (rest : List Placed) :
    ordered number (q :: rest) = if q.numeral?.isSome = number
      then (ordered (!number) rest).map (q.numeral?.toList ++ ·)
      else .error (.unexpected q.place q.token) := by
  obtain ⟨token, place⟩ := q
  cases number <;> cases token
  · rfl
  · change numerals rest = (numerals rest).map id
    cases numerals rest <;> rfl
  · rfl
  · rfl

theorem ordered_append (h : ordered number before = .ok found) :
    ∃ next, ∀ rest, ordered number (before ++ rest) = (ordered next rest).map (found ++ ·) := by
  induction before generalizing number found with
  | nil =>
    rw [ordered_nil] at h
    cases h
    refine ⟨number, fun rest => ?_⟩
    change ordered number rest = (ordered number rest).map id
    cases ordered number rest <;> rfl
  | cons q before ih =>
    rw [ordered_cons] at h
    split at h
    · next hTurn =>
      obtain ⟨later, hLater, rfl⟩ := map_eq_ok_iff.mp h
      obtain ⟨next, hNext⟩ := ih hLater
      refine ⟨next, fun rest => ?_⟩
      rw [List.cons_append, ordered_cons, if_pos hTurn, hNext]
      cases ordered next rest with
      | error e => rfl
      | ok others => exact congrArg Except.ok (List.append_assoc _ _ _).symm
    · cases h

theorem map_eq_error_iff {α β : Type} {f : α → β} {x : Except Error α} :
    x.map f = .error e ↔ x = .error e := by
  cases x with
  | error e' =>
    constructor
    · rintro ⟨⟩
      rfl
    · rintro ⟨⟩
      rfl
  | ok a => exact ⟨nofun, nofun⟩

/-- **The first token out of order is reported.** -/
theorem ordered_error_iff : ordered number placed = .error e ↔
    ∃ before q after, placed = before ++ q :: after ∧ (∃ found, ordered number before = .ok found) ∧
      (¬∃ found, ordered number (before ++ [q]) = .ok found) ∧
      e = .unexpected q.place q.token := by
  constructor
  · intro h
    induction placed generalizing number with
    | nil =>
      rw [ordered_nil] at h
      cases h
    | cons q rest ih =>
      rw [ordered_cons] at h
      split at h
      · next hTurn =>
        obtain ⟨before, q', after, rfl, ⟨found, hFound⟩, hBad, rfl⟩ := ih (map_eq_error_iff.mp h)
        refine ⟨q :: before, q', after, rfl, ⟨q.numeral?.toList ++ found, ?_⟩, ?_, rfl⟩
        · rw [ordered_cons, if_pos hTurn, hFound]
          rfl
        · rintro ⟨all, hAll⟩
          rw [List.cons_append, ordered_cons, if_pos hTurn] at hAll
          obtain ⟨found', hFound', -⟩ := map_eq_ok_iff.mp hAll
          exact hBad ⟨found', hFound'⟩
      · next hTurn =>
        cases h
        refine ⟨[], q, rest, rfl, ⟨[], ordered_nil number⟩, ?_, rfl⟩
        rintro ⟨found, hFound⟩
        rw [List.nil_append, ordered_cons, if_neg hTurn] at hFound
        cases hFound
  · rintro ⟨before, q, after, rfl, ⟨found, hFound⟩, hBad, rfl⟩
    obtain ⟨next, hNext⟩ := ordered_append hFound
    have hTurn : ¬q.numeral?.isSome = next := by
      intro hTurn
      refine hBad ⟨found ++ (q.numeral?.toList ++ []), ?_⟩
      rw [hNext, ordered_cons, if_pos hTurn, ordered_nil]
      rfl
    rw [hNext, ordered_cons, if_neg hTurn]
    rfl

/-- The numbers are taken with their places. -/
theorem ordered_ok (h : ordered number placed = .ok found) :
    found = placed.filterMap Placed.numeral? := by
  induction placed generalizing number found with
  | nil =>
    rw [ordered_nil] at h
    cases h
    rfl
  | cons q rest ih =>
    rw [ordered_cons] at h
    split at h
    · obtain ⟨later, hLater, rfl⟩ := map_eq_ok_iff.mp h
      rw [ih hLater, List.filterMap_cons]
      cases q.numeral? <;> rfl
    · cases h

theorem numerals_ok (h : numerals placed = .ok found) :
    found = placed.filterMap Placed.numeral? := @ordered_ok true placed found h

end

/-! ### Numbers out of range -/

/-- Some cell can hold the integer. -/
def Fits (i : Int) : Prop := -9223372036854775808 ≤ i ∧ i ≤ 9223372036854775807

theorem cell?_eq_none_iff {i : Int} : cell? i = none ↔ ¬Fits i := by
  unfold cell?
  split
  · next h => exact ⟨nofun, fun hLarge => absurd h hLarge⟩
  · next h => exact ⟨fun _ => h, fun _ => rfl⟩

/-- **The first number out of range is reported.** -/
theorem values_error_iff {index : Nat} {found : List Numeral} {e : Error} :
    values index found = .error e ↔ ∃ before n after, found = before ++ n :: after ∧
      (∀ m ∈ before, Fits (literalValue m.literal)) ∧ ¬Fits (literalValue n.literal) ∧
      e = .outOfRange n.place (index + before.length) n.literal := by
  induction found generalizing index with
  | nil =>
    constructor
    · nofun
    · rintro ⟨before, n, after, hNil, -⟩
      exact absurd hNil.symm (List.append_ne_nil_of_right_ne_nil _ (List.cons_ne_nil _ _))
  | cons n rest ih =>
    rw [values]
    cases hCell : cell? (literalValue n.literal) with
    | none =>
      have hLarge := cell?_eq_none_iff.mp hCell
      constructor
      · rintro ⟨⟩
        exact ⟨[], n, rest, rfl, fun m hm => absurd hm List.not_mem_nil, hLarge, rfl⟩
      · rintro ⟨before, n', after, hFound, hFits, -, rfl⟩
        cases before with
        | nil =>
          obtain ⟨rfl, -⟩ := List.cons.inj hFound
          rfl
        | cons m before =>
          obtain ⟨rfl, -⟩ := List.cons.inj hFound
          exact absurd (hFits n List.mem_cons_self) hLarge
    | some v =>
      have hFirst : Fits (literalValue n.literal) := by
        by_contra hLarge
        rw [cell?_eq_none_iff.mpr hLarge] at hCell
        cases hCell
      rw [map_eq_error_iff, ih]
      constructor
      · rintro ⟨before, n', after, rfl, hFits, hLarge, rfl⟩
        refine ⟨n :: before, n', after, rfl, List.forall_mem_cons.mpr ⟨hFirst, hFits⟩, hLarge, ?_⟩
        rw [List.length_cons, Nat.add_right_comm, Nat.add_assoc]
      · rintro ⟨before, n', after, hFound, hFits, hLarge, rfl⟩
        cases before with
        | nil =>
          obtain ⟨rfl, -⟩ := List.cons.inj hFound
          exact absurd hFirst hLarge
        | cons m before =>
          obtain ⟨rfl, rfl⟩ := List.cons.inj hFound
          refine ⟨before, n', after, rfl, (List.forall_mem_cons.mp hFits).2, hLarge, ?_⟩
          rw [List.length_cons, Nat.add_right_comm, Nat.add_assoc]

/-! ### Lexemes out of order or out of range -/

/-- The numerals of some lexemes. -/
def figures (ts : List (List Char)) : List (List Char) := (solid ts).filter (· ≠ [','])

section

variable {ts : List (List Char)} {e : Error}

theorem solid_append (ts us : List (List Char)) : solid (ts ++ us) = solid ts ++ solid us :=
  List.filter_append ts us

theorem mem_figures {t : List Char} {i : Int} (hMem : t ∈ ts) (h : Denotes t i) :
    t ∈ figures ts := by
  refine List.mem_filter.mpr ⟨List.mem_filter.mpr ⟨hMem, ?_⟩, ?_⟩
  · simpa using h.not_blank
  · simpa using h.ne_comma

theorem literals_placedFrom (p : Place) (ts : List (List Char)) :
    ((placedFrom p ts).filterMap Placed.numeral?).map Numeral.literal = figures ts := by
  induction ts generalizing p with
  | nil => rfl
  | cons t ts ih =>
    by_cases hBlank : Blank t
    · rw [placedFrom, if_pos hBlank, ih, figures, figures, solid_cons_blank hBlank]
    · rw [placedFrom_cons hBlank, figures, solid_cons hBlank]
      by_cases hComma : t = [',']
      · rw [List.filterMap_cons_none (by rw [tokenOf, if_pos hComma]; rfl), ih,
          List.filter_cons_of_neg (by simpa using hComma), figures]
      · rw [List.filterMap_cons_some (b := ⟨t, p⟩) (by rw [tokenOf, if_neg hComma]; rfl),
          List.map_cons, ih, List.filter_cons_of_pos (by simpa using hComma), figures]

theorem viable_solid_iff (h : ∀ t ∈ ts, Lexeme t) (p : Place) :
    Viable (solid ts) ↔ ∃ found, numerals (placedFrom p ts) = .ok found :=
  viable_iff.trans (arranged_iff (reads_placedFrom h p))

/-- **The first lexeme that no image has there is reported.** -/
theorem numerals_error_iff (h : ∀ t ∈ ts, Lexeme t) (p : Place) :
    numerals (placedFrom p ts) = .error e ↔
      ∃ skipped t others, ts = skipped ++ t :: others ∧ ¬Blank t ∧ Viable (solid skipped) ∧
        ¬Viable (solid skipped ++ [t]) ∧
        e = .unexpected (skipped.flatten.foldl Place.after p) (tokenOf t) := by
  have hSnoc : ∀ {skipped : List (List Char)} {t : List Char}, ¬Blank t →
      solid skipped ++ [t] = solid (skipped ++ [t]) := by
    intro skipped t hSolid
    rw [solid_append, solid_cons hSolid]
    rfl
  have hSome : ∀ {skipped : List (List Char)} {t : List Char} {others : List (List Char)},
      ts = skipped ++ t :: others →
      (∀ u ∈ skipped, Lexeme u) ∧ ∀ u ∈ skipped ++ [t], Lexeme u := by
    rintro skipped t others rfl
    refine ⟨fun u hu => h u (List.mem_append_left _ hu), fun u hu => h u ?_⟩
    rw [← List.singleton_append, ← List.append_assoc]
    exact List.mem_append_left _ hu
  change ordered true (placedFrom p ts) = .error e ↔ _
  rw [ordered_error_iff]
  constructor
  · rintro ⟨before, q, after, hPlaced, hBefore, hBad, rfl⟩
    obtain ⟨skipped, t, others, hText, hSolid, rfl, rfl⟩ := eq_of_placedFrom hPlaced
    obtain ⟨hSkipped, hUpTo⟩ := hSome hText
    refine ⟨skipped, t, others, hText, hSolid, (viable_solid_iff hSkipped p).mpr hBefore, ?_, rfl⟩
    rw [hSnoc hSolid, viable_solid_iff hUpTo p, placedFrom_skip hSolid]
    exact hBad
  · rintro ⟨skipped, t, others, rfl, hSolid, hViable, hBad, rfl⟩
    obtain ⟨hSkipped, hUpTo⟩ := hSome rfl
    rw [hSnoc hSolid, viable_solid_iff hUpTo p, placedFrom_skip hSolid] at hBad
    exact ⟨placedFrom p skipped, _, _, placedFrom_skip hSolid p skipped others,
      (viable_solid_iff hSkipped p).mp hViable, hBad, rfl⟩

/-- **The first numeral that no cell can hold is reported.** -/
theorem values_placedFrom_error_iff (h : ∀ t ∈ ts, Lexeme t) (p : Place) :
    values 0 ((placedFrom p ts).filterMap Placed.numeral?) = .error e ↔
      ∃ skipped t others i, ts = skipped ++ t :: others ∧ Denotes t i ∧ ¬Fits i ∧
        (∀ u ∈ figures skipped, ∀ j, Denotes u j → Fits j) ∧
        e = .outOfRange (skipped.flatten.foldl Place.after p) (figures skipped).length t := by
  have hLexeme : ∀ {skipped : List (List Char)} {t : List Char} {others : List (List Char)},
      ts = skipped ++ t :: others → Lexeme t := fun hText =>
    h _ (hText ▸ List.mem_append_right _ List.mem_cons_self)
  rw [values_error_iff]
  constructor
  · rintro ⟨before, n, after, hFound, hFits, hLarge, rfl⟩
    obtain ⟨placed, placed', hPlaced, rfl, hFound'⟩ := List.filterMap_eq_append_iff.mp hFound
    obtain ⟨commas, q, later, rfl, hCommas, hNumeral, -⟩ := List.filterMap_eq_cons_iff.mp hFound'
    rw [← List.append_assoc] at hPlaced
    obtain ⟨skipped, t, others, hText, hSolid, hSkipped, rfl⟩ := eq_of_placedFrom hPlaced
    have hBefore : (placedFrom p skipped).filterMap Placed.numeral? =
        placed.filterMap Placed.numeral? := by
      rw [hSkipped, List.filterMap_append, List.filterMap_eq_nil_iff.mpr hCommas, List.append_nil]
    have hFigures := literals_placedFrom p skipped
    rw [hBefore] at hFigures
    rcases (hLexeme hText).resolve_left hSolid with ⟨i, hDenotes⟩ | rfl
    · rw [tokenOf_denotes hDenotes] at hNumeral
      cases hNumeral
      rw [hDenotes.literalValue_eq] at hLarge
      refine ⟨skipped, t, others, i, hText, hDenotes, hLarge, ?_, ?_⟩
      · intro u hu j hj
        rw [← hFigures] at hu
        obtain ⟨m, hm, rfl⟩ := List.mem_map.mp hu
        rw [← hj.literalValue_eq]
        exact hFits m hm
      · rw [← hFigures, List.length_map, Nat.zero_add]
    · cases hNumeral
  · rintro ⟨skipped, t, others, i, rfl, hDenotes, hLarge, hFits, rfl⟩
    have hFigures := literals_placedFrom p skipped
    rw [placedFrom_skip hDenotes.not_blank, List.filterMap_append, tokenOf_denotes hDenotes]
    refine ⟨_, ⟨t, skipped.flatten.foldl Place.after p⟩, _, rfl, ?_, ?_, ?_⟩
    · intro m hm
      have hMem : m.literal ∈ figures skipped := hFigures ▸ List.mem_map_of_mem hm
      obtain ⟨hSolid, hComma⟩ := List.mem_filter.mp hMem
      obtain ⟨hIn, hBlank⟩ := List.mem_filter.mp hSolid
      have hNumeral := ((h _ (List.mem_append_left _ hIn)).resolve_left (by simpa using hBlank)
        ).resolve_right (by simpa using hComma)
      obtain ⟨j, hj⟩ := hNumeral
      rw [hj.literalValue_eq]
      exact hFits _ hMem j hj
    · rwa [hDenotes.literalValue_eq]
    · rw [← hFigures, List.length_map, Nat.zero_add]

end

/-! ### Places -/

/-- The place behind some bytes.  The line counts the line feeds before it, and the column the
characters since the last; a byte that is part of no character counts as one. -/
def placeBehind (before : List UInt8) : Place where
  line := 1 + before.count 0x0A
  column := 1 + (Text.lossy (before.rtakeWhile (· ≠ 0x0A))).length

theorem latin_concat (before : List UInt8) (b : UInt8) :
    Text.latin (before ++ [b]) = Text.latin before ++ [Char.ofNat b.toNat] := List.map_append

/-- **The place that is carried along counts lines and characters.** -/
theorem placeBehind_eq {before : List UInt8} (h : ∀ c ∈ Text.latin before, c.toNat < 128) :
    placeBehind before = (Text.latin before).foldl Place.after {} := by
  induction before using List.reverseRecOn with
  | nil => rfl
  | append_singleton before b ih =>
    have hBefore : ∀ c ∈ Text.latin before, c.toNat < 128 := fun c hc =>
      h c (latin_concat before b ▸ List.mem_append_left _ hc)
    rw [latin_concat, List.foldl_append, ← ih hBefore, List.foldl_cons, List.foldl_nil]
    by_cases hFeed : b = 0x0A
    · subst hFeed
      rw [placeBehind, List.rtakeWhile_concat_neg _ _ _ (by decide), List.count_append]
      rfl
    · have hChar : Char.ofNat b.toNat ≠ '\n' := by
        intro hEq
        have hNat := congrArg Char.toNat hEq
        rw [Text.toNat_latin] at hNat
        exact hFeed (UInt8.toNat_inj.mp hNat)
      -- The bytes since the last line feed are ASCII, so each shows one character.
      have hSince : ∀ c ∈ Text.latin (before.rtakeWhile (· ≠ 0x0A)), c.toNat < 128 := by
        intro c hc
        obtain ⟨a, ha, rfl⟩ := List.mem_map.mp hc
        exact hBefore _ (List.mem_map_of_mem ((List.rtakeWhile_suffix _ _).subset ha))
      have hColumn : (Text.lossy ((before ++ [b]).rtakeWhile (· ≠ 0x0A))).length =
          (Text.lossy (before.rtakeWhile (· ≠ 0x0A))).length + 1 := by
        have hb : b < 0x80 := by
          have := h _ (latin_concat before b ▸ List.mem_append_right _ List.mem_cons_self)
          rw [Text.toNat_latin] at this
          exact UInt8.lt_iff_toNat_lt.mpr this
        rw [List.rtakeWhile_concat_pos _ _ _ (by simpa using hFeed), Text.lossy_append hSince,
          Text.lossy_latin hSince, Text.lossy_cons_of_ascii hb, List.length_append]
        rfl
      rw [placeBehind, Place.after, if_neg hChar, hColumn, List.count_append,
        List.count_singleton, if_neg (by simpa using hFeed)]
      rfl

/-! ### Bytes -/

section

variable {t : List Char} {ts skipped : List (List Char)} {bytes before rest : List UInt8}

theorem Maximal.lossy (h : Maximal t (Text.latin bytes)) : Maximal t (Text.lossy bytes) := by
  intro u hSome hPrefix hLexeme
  have hAscii : ∀ c ∈ u, c.toNat < 128 := fun c hc =>
    hLexeme.ascii c (List.mem_append_right t hc)
  exact h u hSome ((Text.prefix_lossy_iff hAscii).mp hPrefix) hLexeme

theorem Stuck.lossy (h : Stuck (Text.latin bytes)) : Stuck (Text.lossy bytes) := by
  intro t hPrefix hLexeme
  exact h t ((Text.prefix_lossy_iff hLexeme.ascii).mp hPrefix) hLexeme

/-- Bytes that are cut into lexemes show these lexemes. -/
theorem Cut.lossy {cs cs' : List Char} (h : Cut cs ts cs')
    (hBefore : Text.latin before = ts.flatten) (hRest : Text.latin rest = cs') :
    Cut (Text.lossy (before ++ rest)) ts (Text.lossy rest) := by
  induction h generalizing before with
  | done cs' =>
    rw [List.map_eq_nil_iff.mp hBefore]
    exact .done _
  | @cons t cs cs' ts hLexeme hMaximal hCut ih =>
    obtain ⟨first, later, rfl, rfl, hLater⟩ := List.map_eq_append_iff.mp hBefore
    have hText : Text.latin (later ++ rest) = cs := by
      rw [hCut.eq_append, ← hRest, ← hLater]
      exact List.map_append
    rw [List.append_assoc, Text.lossy_append hLexeme.ascii]
    exact .cons hLexeme (hText ▸ hMaximal).lossy (ih hLater hRest)

theorem place_of_lexemes (h : ∀ t ∈ ts, Lexeme t) (hBefore : Text.latin before = ts.flatten) :
    ts.flatten.foldl Place.after {} = placeBehind before := by
  rw [← hBefore, placeBehind_eq]
  intro c hc
  rw [hBefore] at hc
  obtain ⟨t, ht, hc⟩ := List.mem_flatten.mp hc
  exact (h t ht).ascii c hc

theorem parseBytes_of_stuck (hCut : Cut (Text.latin (before ++ rest)) ts (Text.latin rest))
    (hRest : rest ≠ []) (hStuck : Stuck (Text.latin rest)) :
    parseBytes (before ++ rest) = .error (.noToken (placeBehind before) (Text.lossy rest)) := by
  have hBefore : Text.latin before = ts.flatten :=
    List.append_cancel_right (List.map_append.symm.trans hCut.eq_append)
  have hShown := hCut.lossy hBefore rfl
  rw [parseBytes, parse, tokens, scan_cut hShown, place_of_lexemes hCut.lexeme hBefore,
    scan_stuck hStuck.lossy (Text.lossy_ne_nil hRest)]
  rfl

theorem parseBytes_of_split (h : Split (Text.latin bytes) ts) :
    parseBytes bytes = (numerals (placedFrom {} ts)).bind (values 0) := by
  have hScan := scan_cut (cut_nil_iff.mpr h) {}
  rw [scan] at hScan
  rw [parseBytes, parse, tokens, Text.lossy_latin h.ascii, hScan]
  simp only [Except.map, List.append_nil]
  rfl

theorem place_of_split {others : List (List Char)}
    (h : Split (Text.latin bytes) (skipped ++ others))
    (hBefore : Text.latin before = skipped.flatten) :
    skipped.flatten.foldl Place.after {} = placeBehind before :=
  place_of_lexemes (fun t ht => h.lexeme t (List.mem_append_left others ht)) hBefore

theorem exists_before {others : List (List Char)}
    (h : Split (Text.latin bytes) (skipped ++ others)) :
    ∃ before, Text.latin before = skipped.flatten := by
  have hText := (cut_nil_iff.mpr h).eq_append
  rw [List.append_nil, List.flatten_append] at hText
  obtain ⟨before, later, -, hBefore, -⟩ := List.map_eq_append_iff.mp hText
  exact ⟨before, hBefore⟩

end

/-! ### The error of a rejected image -/

/-- The first fault of some bytes, and the error that tells it. -/
inductive Misread (bytes : List UInt8) : Error → Prop
  /-- The bytes before are cut into lexemes, and no lexeme starts behind them. -/
  | noToken {before rest : List UInt8} {ts : List (List Char)} (hBytes : bytes = before ++ rest)
      (hCut : Cut (Text.latin bytes) ts (Text.latin rest)) (hRest : rest ≠ [])
      (hStuck : Stuck (Text.latin rest)) :
      Misread bytes (.noToken (placeBehind before) (Text.lossy rest))
  /-- All bytes are cut into lexemes.  Some image starts with those before `t`, but none goes on
  with `t`. -/
  | unexpected {before : List UInt8} {skipped others : List (List Char)} {t : List Char}
      (hSplit : Split (Text.latin bytes) (skipped ++ t :: others))
      (hBefore : Text.latin before = skipped.flatten) (hSolid : ¬Blank t)
      (hViable : Viable (solid skipped)) (hBad : ¬Viable (solid skipped ++ [t])) :
      Misread bytes (.unexpected (placeBehind before) (tokenOf t))
  /-- The lexemes are those of an image, but `t` denotes an integer that no cell can hold, and no
  numeral before it does. -/
  | outOfRange {before : List UInt8} {skipped others : List (List Char)} {t : List Char} {i : Int}
      (hSplit : Split (Text.latin bytes) (skipped ++ t :: others))
      (hBefore : Text.latin before = skipped.flatten)
      (hArranged : Arranged (solid (skipped ++ t :: others))) (hDenotes : Denotes t i)
      (hLarge : ¬Fits i) (hFits : ∀ u ∈ figures skipped, ∀ j, Denotes u j → Fits j) :
      Misread bytes (.outOfRange (placeBehind before) (figures skipped).length t)

section

variable {bytes : List UInt8} {ts : List (List Char)} {e : Error}

/-- Bytes are cut into lexemes, or they are told where the cut ends. -/
theorem split_or_misread (bytes : List UInt8) :
    (∃ ts, Split (Text.latin bytes) ts) ∨
      ∃ place rest, Misread bytes (.noToken place rest) ∧
        parseBytes bytes = .error (.noToken place rest) := by
  obtain ⟨ts, cs, hCut, hStuck⟩ := exists_cut (Text.latin bytes)
  obtain ⟨before, rest, rfl, -, rfl⟩ := List.map_eq_append_iff.mp hCut.eq_append
  by_cases hRest : rest = []
  · subst hRest
    exact .inl ⟨ts, cut_nil_iff.mp hCut⟩
  · exact .inr ⟨_, _, .noToken rfl hCut hRest hStuck, parseBytes_of_stuck hCut hRest hStuck⟩

/-- Lexemes are out of order, or a number is out of range, or the image is read. -/
theorem Split.outcome (hSplit : Split (Text.latin bytes) ts) :
    ¬Arranged (solid ts) ∧ (∃ place token, parseBytes bytes = .error (.unexpected place token)) ∨
    Arranged (solid ts) ∧ (∃ t ∈ figures ts, ∃ i, Denotes t i ∧ ¬Fits i) ∧
      (∃ place index literal, parseBytes bytes = .error (.outOfRange place index literal)) ∨
    (∀ t ∈ figures ts, ∀ i, Denotes t i → Fits i) ∧ Arranged (solid ts) ∧
      ∃ vs, parseBytes bytes = .ok vs := by
  have hLexeme := hSplit.lexeme
  rw [arranged_iff (reads_placedFrom hLexeme {}), parseBytes_of_split hSplit]
  cases hFound : numerals (placedFrom {} ts) with
  | error e =>
    obtain ⟨skipped, t, others, -, -, -, -, rfl⟩ := (numerals_error_iff hLexeme {}).mp hFound
    exact .inl ⟨nofun, _, _, rfl⟩
  | ok found =>
    have hTaken := numerals_ok hFound
    cases hValues : values 0 found with
    | error e =>
      have hFault := hValues
      rw [hTaken, values_placedFrom_error_iff hLexeme] at hFault
      obtain ⟨skipped, t, others, i, rfl, hDenotes, hLarge, -, rfl⟩ := hFault
      have hMem : t ∈ figures (skipped ++ t :: others) :=
        mem_figures (List.mem_append_right skipped List.mem_cons_self) hDenotes
      exact .inr (.inl ⟨⟨found, rfl⟩, ⟨t, hMem, i, hDenotes, hLarge⟩, _, _, _, hValues⟩)
    | ok vs =>
      refine .inr (.inr ⟨fun t ht i hi => ?_, ⟨found, rfl⟩, vs, hValues⟩)
      rw [← literals_placedFrom {}, ← hTaken] at ht
      obtain ⟨n, hn, rfl⟩ := List.mem_map.mp ht
      have hMem := List.mem_map_of_mem (f := fun n => literalValue n.literal) hn
      rw [values_iff.mp hValues, hi.literalValue_eq] at hMem
      obtain ⟨v, -, rfl⟩ := List.mem_map.mp hMem
      exact ⟨v.minValue_le_toInt, v.toInt_le⟩

theorem parseBytes_eq_error_iff : parseBytes bytes = .error e ↔ Misread bytes e := by
  constructor
  · intro h
    rcases split_or_misread bytes with ⟨ts, hSplit⟩ | ⟨place, rest, hMisread, hError⟩
    · have hLexeme := hSplit.lexeme
      rw [parseBytes_of_split hSplit] at h
      cases hFound : numerals (placedFrom {} ts) with
      | error e' =>
        rw [hFound] at h
        cases h
        obtain ⟨skipped, t, others, rfl, hSolid, hViable, hBad, rfl⟩ :=
          (numerals_error_iff hLexeme {}).mp hFound
        obtain ⟨before, hBefore⟩ := exists_before hSplit
        rw [place_of_split hSplit hBefore]
        exact .unexpected hSplit hBefore hSolid hViable hBad
      | ok found =>
        rw [hFound] at h
        have hArranged := (arranged_iff (reads_placedFrom hLexeme {})).mpr ⟨found, hFound⟩
        have hValues : values 0 found = .error e := h
        rw [numerals_ok hFound, values_placedFrom_error_iff hLexeme] at hValues
        obtain ⟨skipped, t, others, i, rfl, hDenotes, hLarge, hFits, rfl⟩ := hValues
        obtain ⟨before, hBefore⟩ := exists_before hSplit
        rw [place_of_split hSplit hBefore]
        exact .outOfRange hSplit hBefore hArranged hDenotes hLarge hFits
    · rw [hError] at h
      cases h
      exact hMisread
  · intro h
    cases h with
    | noToken hBytes hCut hRest hStuck =>
      subst hBytes
      exact parseBytes_of_stuck hCut hRest hStuck
    | unexpected hSplit hBefore hSolid hViable hBad =>
      have hFound := (numerals_error_iff hSplit.lexeme {}).mpr
        ⟨_, _, _, rfl, hSolid, hViable, hBad, rfl⟩
      rw [parseBytes_of_split hSplit, hFound, place_of_split hSplit hBefore]
      rfl
    | outOfRange hSplit hBefore hArranged hDenotes hLarge hFits =>
      have hLexeme := hSplit.lexeme
      obtain ⟨found, hFound⟩ := (arranged_iff (reads_placedFrom hLexeme {})).mp hArranged
      rw [parseBytes_of_split hSplit, hFound, ← place_of_split hSplit hBefore]
      change values 0 found = _
      rw [numerals_ok hFound, values_placedFrom_error_iff hLexeme]
      exact ⟨_, _, _, _, rfl, hDenotes, hLarge, hFits, rfl⟩

end

/-- **A rejected image is told its first fault, and where.**  The text cannot be cut into lexemes,
or the lexemes are in no order that an image has, or a number is out of range.  The first of these
that is so gives the error, and there is always one. -/
theorem rejection_tells_first_fault (bytes : List UInt8) :
    (∀ e, parseBytes bytes = .error e ↔ Misread bytes e) ∧
    ((¬∃ vs, parseBytes bytes = .ok vs) ↔ ∃! e, Misread bytes e) ∧
    ((∃ place rest, parseBytes bytes = .error (.noToken place rest)) ↔
      ¬∃ ts, Split (Text.latin bytes) ts) ∧
    ((∃ place token, parseBytes bytes = .error (.unexpected place token)) ↔
      ∃ ts, Split (Text.latin bytes) ts ∧ ¬Arranged (solid ts)) ∧
    ((∃ place index literal, parseBytes bytes = .error (.outOfRange place index literal)) ↔
      ∃ ts, Split (Text.latin bytes) ts ∧ Arranged (solid ts) ∧
        ∃ t ∈ figures ts, ∃ i, Denotes t i ∧ ¬Fits i) := by
  refine ⟨fun e => parseBytes_eq_error_iff, ?_, ?_, ?_, ?_⟩
  · constructor
    · intro hRejected
      cases hParse : parseBytes bytes with
      | ok vs => exact absurd ⟨vs, hParse⟩ hRejected
      | error e =>
        refine ⟨e, parseBytes_eq_error_iff.mp hParse, fun e' he' => ?_⟩
        have hOther := parseBytes_eq_error_iff.mpr he'
        rw [hParse] at hOther
        exact (Except.error.inj hOther).symm
    · rintro ⟨e, he, -⟩ ⟨vs, hParse⟩
      rw [parseBytes_eq_error_iff.mpr he] at hParse
      cases hParse
  · constructor
    · rintro ⟨place, rest, hParse⟩ ⟨ts, hSplit⟩
      rcases hSplit.outcome with ⟨-, _, _, h⟩ | ⟨-, -, _, _, _, h⟩ | ⟨-, -, _, h⟩
      all_goals
        rw [h] at hParse
        cases hParse
    · intro hNone
      rcases split_or_misread bytes with hSome | ⟨place, rest, -, hParse⟩
      · exact absurd hSome hNone
      · exact ⟨place, rest, hParse⟩
  · constructor
    · rintro ⟨place, token, hParse⟩
      rcases split_or_misread bytes with ⟨ts, hSplit⟩ | ⟨_, _, -, h⟩
      · rcases hSplit.outcome with ⟨hBad, -⟩ | ⟨-, -, _, _, _, h⟩ | ⟨-, -, _, h⟩
        · exact ⟨ts, hSplit, hBad⟩
        all_goals
          rw [h] at hParse
          cases hParse
      · rw [h] at hParse
        cases hParse
    · rintro ⟨ts, hSplit, hBad⟩
      rcases hSplit.outcome with ⟨-, hParse⟩ | ⟨hArranged, -⟩ | ⟨-, hArranged, -⟩
      · exact hParse
      all_goals exact absurd hArranged hBad
  · constructor
    · rintro ⟨place, index, literal, hParse⟩
      rcases split_or_misread bytes with ⟨ts, hSplit⟩ | ⟨_, _, -, h⟩
      · rcases hSplit.outcome with ⟨-, _, _, h⟩ | ⟨hArranged, hLarge, -⟩ | ⟨-, -, _, h⟩
        · rw [h] at hParse
          cases hParse
        · exact ⟨ts, hSplit, hArranged, hLarge⟩
        · rw [h] at hParse
          cases hParse
      · rw [h] at hParse
        cases hParse
    · rintro ⟨ts, hSplit, hArranged, t, ht, i, hDenotes, hLarge⟩
      rcases hSplit.outcome with ⟨hBad, -⟩ | ⟨-, -, hParse⟩ | ⟨hFits, -⟩
      · exact absurd hArranged hBad
      · exact hParse
      · exact absurd (hFits t ht i hDenotes) hLarge

-- The bytes of an accented letter show one character, and a byte that starts none shows another.
example : parseBytes [0x2C, 0x0A, 0x20, 0xC3, 0xA9, 0xFF] =
    .error (.noToken ⟨2, 2⟩ ['\u00e9', Text.replacement]) := by decide +kernel

example : parse "9223372036854775808 ,\n\t,".toList = .error (.unexpected ⟨2, 2⟩ .comma) := by
  decide +kernel

example : parse "7,\r-9223372036854775809,".toList =
    .error (.outOfRange ⟨1, 4⟩ 1 "-9223372036854775809".toList) := by decide +kernel

end HullRobot.Image
