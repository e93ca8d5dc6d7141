import HullRobot.Proofs.Image.Reading
import HullRobot.Proofs.Memory.Unmade

/-!
# Dumps can be read back

A dump lists the rows of all pages that are not all zero.  `readRows?` reads the rows of a text:
below the line about the memory, each line is an address and the cells from there on, whatever the
row size and the width of the addresses were.  `Lists` says that rows show a memory.

* `words_append`: words are what stands between blanks.  `readRow?_rowLine`, `readRows?_dump`:
  **what is read from a dump are the rows that are in it.**
* `page_entries_iff`: the rows of a page have all its cells, each at its address.
* `lists_pages`: the rows of ordered pages show the memory.  `Lists.eq_of_rows`: a memory is known
  from its rows.
* `represents_of_unmade`: pages show a map as long as none is missing.
* `dump_lists_memory`: a dump lists the memory exactly if no page is missing.
* `dump_lost_with_page`: a machine with pages of one size that cannot be dumped.
-/

namespace HullRobot.Listing

open Machine (Layout padded rows rowLine pageLines largestWidth)
open Memory (Page)

/-! ### The reader -/

/-- What stands between blanks. -/
def words (line : List Char) : List (List Char) := (line.splitOn ' ').filter (· ≠ [])

/-- The mark in front of an address whose width was too large. -/
def widthMark : List Char := "%!(BADWIDTH)".toList

/-- Reads an address. -/
def readAddress? : List Char → Option Nat
  | '@' :: rest =>
    Decimal.read? (if widthMark.isPrefixOf rest then rest.drop widthMark.length else rest)
  | _ => none

/-- Reads the numeral of a cell. -/
def readCell? (word : List Char) : Option Int64 :=
  match Image.parse word with
  | .ok [v] => some v
  | _ => none

/-- Reads a row: an address and the cells from there on. -/
def readRow? (line : List Char) : Option (Nat × List Int64) :=
  match words line with
  | [] => none
  | first :: rest => do
    let address ← readAddress? first
    let cells ← rest.mapM readCell?
    pure (address, cells)

/-- How the line about the memory begins. -/
def memoryMark : List Char := "# Memory".toList

/-- Reads the rows below the line about the memory. -/
def readRows? (text : String) : Option (List (Nat × List Int64)) :=
  let below := (text.toList.splitOn '\n').dropWhile fun line => !memoryMark.isPrefixOf line
  ((below.drop 1).filter (· ≠ [])).mapM readRow?

/-- The cells of rows, each with its address. -/
def entries (rows : List (Nat × List Int64)) : List (Nat × Int64) :=
  rows.flatMap fun (address, cells) => cells.zipIdx.map fun (v, i) => (address + i, v)

/-! ### Words -/

theorem words_append (l rest : List Char) : words (l ++ ' ' :: rest) = words l ++ words rest := by
  unfold words
  rw [List.splitOn_append_cons_self, List.filter_append]

theorem words_solid {w : List Char} (hSome : w ≠ []) (hSolid : ' ' ∉ w) : words w = [w] := by
  unfold words
  rw [List.splitOn_eq_singleton hSolid]
  simp [hSome]

theorem words_blanks (l : List Char) (n : Nat) : words (l ++ List.replicate n ' ') = words l := by
  induction n with
  | zero => rw [List.replicate_zero, List.append_nil]
  | succ n ih =>
    rw [List.replicate_succ', ← List.append_assoc, words_append, ih]
    exact List.append_nil _

theorem words_numeral (i : Int) : words (Decimal.ofInt i) = [Decimal.ofInt i] := by
  refine words_solid (fun hNone => ?_) fun hBlank => ?_
  · obtain ⟨c, ds, hShape, -⟩ := (Image.denotes_ofInt i).shape
    rw [hNone] at hShape
    cases hShape
  · exact Image.not_blank_of_mem_numeral hBlank (by decide)

theorem words_cells (l : List Char) (cells : List Int64) :
    words (l ++ cells.flatMap fun v => ' ' :: Decimal.ofInt v.toInt) =
      words l ++ cells.map fun v => Decimal.ofInt v.toInt := by
  induction cells generalizing l with
  | nil => simp
  | cons v cells ih =>
    rw [List.flatMap_cons, List.cons_append, words_append, ih, words_numeral, List.map_cons,
      List.singleton_append]

/-! ### Rows -/

theorem readCell?_numeral (v : Int64) : readCell? (Decimal.ofInt v.toInt) = some v := by
  have hParse : Image.parse (Decimal.ofInt v.toInt) = .ok [v] :=
    Image.parse_iff.mpr (Image.written_numeral v)
  rw [readCell?, hParse]

theorem digits_eq (n : Nat) : Decimal.digits n = Decimal.ofInt n := by
  rw [Decimal.ofInt, if_neg (by omega), Int.natAbs_natCast]

theorem read?_digits (n : Nat) : Decimal.read? (Decimal.digits n) = some n := by
  obtain ⟨hSome, hDigits⟩ := Image.digits_toDigits n
  have hAll : (Decimal.digits n).all Char.isDigit = true := List.all_eq_true.mpr hDigits
  rw [Decimal.read?, hAll, Image.extend_zero, Image.magnitude_digits]
  simp [hSome]

theorem mapM_of_read {α β : Type} {f : β → Option α} {g : α → β} {xs : List α}
    (h : ∀ x ∈ xs, f (g x) = some x) : (xs.map g).mapM f = some xs := by
  induction xs with
  | nil => rfl
  | cons x xs ih =>
    rw [List.map_cons, List.mapM_cons, h x List.mem_cons_self,
      ih fun y hy => h y (List.mem_cons_of_mem x hy)]
    rfl

/-- The first word of a row, whatever the width is. -/
theorem words_address (width : Int) (address : Nat) :
    ∃ word, words (' ' :: ' ' :: '@' :: padded width address) = [word] ∧
      readAddress? word = some address := by
  have hDigits : ' ' ∉ Decimal.digits address := by
    rw [digits_eq]
    exact fun hBlank => Image.not_blank_of_mem_numeral hBlank (by decide)
  have hFront : ∀ l, words (' ' :: ' ' :: l) = words l := fun l => by
    have h := words_append [' '] l
    exact h.trans rfl
  rw [hFront, padded]
  by_cases hLarge : largestWidth < width.natAbs
  · rw [if_pos hLarge]
    refine ⟨'@' :: (widthMark ++ Decimal.digits address), words_solid nofun ?_, ?_⟩
    · simp only [List.mem_cons, List.mem_append, not_or]
      exact ⟨by decide, by decide, hDigits⟩
    · have hMark : widthMark.isPrefixOf (widthMark ++ Decimal.digits address) = true :=
        List.isPrefixOf_iff_prefix.mpr (List.prefix_append ..)
      rw [readAddress?, if_pos hMark, List.drop_left, read?_digits]
  · rw [if_neg hLarge]
    refine ⟨'@' :: Decimal.digits address, ?_, ?_⟩
    · rw [← List.cons_append, words_blanks]
      refine words_solid nofun ?_
      simp only [List.mem_cons, not_or]
      exact ⟨by decide, hDigits⟩
    · -- A numeral does not begin like the mark.
      have hMark : ¬widthMark.isPrefixOf (Decimal.digits address) = true := by
        intro hPrefix
        have hFirst :=
          (List.isPrefixOf_iff_prefix.mp hPrefix).subset (show '%' ∈ widthMark by decide)
        have hDigit := (Image.digits_toDigits address).2 '%' hFirst
        cases hDigit
      rw [readAddress?, if_neg hMark, read?_digits]

/-- **The line of a row is read as the row.** -/
theorem readRow?_rowLine (width : Int) (row : Nat × List Int64) :
    readRow? (rowLine width row.1 row.2) = some row := by
  obtain ⟨word, hWord, hAddress⟩ := words_address width row.1
  have hWords : words (rowLine width row.1 row.2) =
      word :: row.2.map fun v => Decimal.ofInt v.toInt := by
    rw [rowLine, words_cells, hWord, List.singleton_append]
  rw [readRow?, hWords]
  simp only [hAddress, mapM_of_read fun v _ => readCell?_numeral v]
  rfl

/-! ### Texts -/

theorem feed_not_mem_digits (n : Nat) : '\n' ∉ Decimal.digits n := by
  rw [digits_eq]
  exact Image.feed_not_mem_numeral n

theorem feed_not_mem_rowLine (width : Int) (row : Nat × List Int64) :
    '\n' ∉ rowLine width row.1 row.2 := by
  have hPadded : '\n' ∉ padded width row.1 := by
    unfold padded
    split
    · rw [List.mem_append, not_or]
      exact ⟨by decide, feed_not_mem_digits _⟩
    · rw [List.mem_append, not_or]
      exact ⟨feed_not_mem_digits _,
        fun hFeed => absurd (List.eq_of_mem_replicate hFeed) (by decide)⟩
  simp only [rowLine, List.mem_append, List.mem_cons, List.mem_flatMap, not_or, not_exists, not_and]
  exact ⟨⟨by decide, by decide, by decide, hPadded⟩, fun v _ =>
    ⟨by decide, Image.feed_not_mem_numeral v.toInt⟩⟩

/-- **What is read from a text are the rows below the line about the memory.** -/
theorem readRows?_text {front : List (List Char)} {title : List Char} (width : Int)
    (rows : List (Nat × List Int64)) (hFront : ∀ l ∈ front, '\n' ∉ l ∧ ¬memoryMark <+: l)
    (hTitle : '\n' ∉ title ∧ memoryMark <+: title) :
    readRows? (String.ofList ((front ++ title :: rows.map fun row =>
      rowLine width row.1 row.2).flatMap fun line => line ++ ['\n'])) = some rows := by
  have hFeeds : ∀ l ∈ front ++ title :: rows.map fun row => rowLine width row.1 row.2,
      '\n' ∉ l := by
    intro l hl
    rcases List.mem_append.mp hl with hl | hl
    · exact (hFront l hl).1
    · rcases List.mem_cons.mp hl with rfl | hl
      · exact hTitle.1
      · obtain ⟨row, -, rfl⟩ := List.mem_map.mp hl
        exact feed_not_mem_rowLine width row
  have hSkip : ∀ l ∈ front, (!memoryMark.isPrefixOf l) = true := fun l hl => by
    rw [Bool.not_eq_true', Bool.eq_false_iff]
    exact fun hPrefix => (hFront l hl).2 (List.isPrefixOf_iff_prefix.mp hPrefix)
  have hStop : ¬(!memoryMark.isPrefixOf title) = true := by
    rw [List.isPrefixOf_iff_prefix.mpr hTitle.2]
    decide
  have hRows : ∀ l ∈ rows.map fun row => rowLine width row.1 row.2, decide (l ≠ []) = true := by
    intro l hl
    obtain ⟨row, -, rfl⟩ := List.mem_map.mp hl
    exact decide_eq_true nofun
  unfold readRows?
  rw [String.toList_ofList, Image.splitOn_ended hFeeds, List.append_assoc,
    List.dropWhile_append_of_pos hSkip, List.cons_append, List.dropWhile_cons,
    if_neg hStop]
  simp only [List.drop_one, List.tail_cons, List.filter_append, List.filter_eq_self.mpr hRows]
  exact (congrArg (List.mapM readRow?) (List.append_nil _)).trans
    (mapM_of_read fun row _ => readRow?_rowLine width row)

/-! ### The rows of a memory -/

/-- The rows of a page that are in a dump. -/
def shown (row : Nat) (page : Nat × Array Int64) : List (Nat × List Int64) :=
  (rows row page.1 page.2).filter fun r => !r.2.all (· = 0)

theorem pageLines_eq (row : Nat) (width : Int) (page : Nat × Array Int64) :
    pageLines row width page = (shown row page).map fun r => rowLine width r.1 r.2 := by
  unfold pageLines shown
  induction rows row page.1 page.2 with
  | nil => rfl
  | cons r rest ih =>
    rw [List.filterMap_cons, ih]
    cases hZero : r.2.all (· = 0) with
    | true => simp [hZero]
    | false => simp [hZero]

/-- The row size of a layout; 0 stands for 8. -/
def rowSize (layout : Layout) : Nat := if layout.row = 0 then 8 else layout.row.toNat

/-- **A dump is read as the rows of the pages.** -/
theorem readRows?_dump {m : Machine} {size : Nat} (hSize : m.memory.size = .ok size)
    {layout : Layout} (hRow : 0 ≤ layout.row) :
    ∃ text, m.dump layout = .ok text ∧
      readRows? text = some (m.memory.pages.flatMap (shown (rowSize layout))) := by
  have hSmall : ¬((if layout.row = 0 then 8 else layout.row) < 0 ∧
      m.memory.pages.any (fun page => !page.2.isEmpty) = true) := by
    rintro ⟨hNegative, -⟩
    split at hNegative <;> omega
  have hRowSize : (if layout.row = 0 then 8 else layout.row).toNat = rowSize layout := by
    unfold rowSize
    split <;> rfl
  unfold Machine.dump Machine.dumpLines
  rw [hSize]
  simp only [bind, Except.bind, if_neg hSmall, pure, Except.pure, Except.map, hRowSize]
  refine ⟨_, rfl, ?_⟩
  have hPages : ∀ width, m.memory.pages.flatMap (pageLines (rowSize layout) width) =
      (m.memory.pages.flatMap (shown (rowSize layout))).map fun r => rowLine width r.1 r.2 := by
    intro width
    rw [List.map_flatMap]
    exact congrArg m.memory.pages.flatMap (funext fun page => pageLines_eq _ width page)
  rw [hPages, List.append_assoc, List.singleton_append]
  refine readRows?_text _ _ ?_ ?_
  · intro l hl
    have hOther : ∀ first rest, first ≠ '#' → ¬memoryMark <+: first :: rest := by
      rintro first rest hFirst ⟨tail, hTail⟩
      exact hFirst (List.cons.inj hTail).1.symm
    have hNumeral : ∀ (name : List Char) i, '\n' ∉ name → '\n' ∉ name ++ Decimal.ofInt i := by
      intro name i hName
      rw [List.mem_append, not_or]
      exact ⟨hName, Image.feed_not_mem_numeral i⟩
    rw [digits_eq] at hl
    rcases List.mem_append.mp hl with hl | hl
    · simp only [List.mem_cons, List.not_mem_nil, or_false] at hl
      rcases hl with rfl | rfl | rfl | rfl
      · exact ⟨by decide, by decide⟩
      · exact ⟨hNumeral _ _ (by decide), hOther _ _ (by decide)⟩
      · exact ⟨hNumeral _ _ (by decide), hOther _ _ (by decide)⟩
      · exact ⟨hNumeral _ _ (by decide), hOther _ _ (by decide)⟩
    · cases hHalted : m.halted with
      | false =>
        rw [hHalted] at hl
        cases hl
      | true =>
        rw [hHalted] at hl
        obtain rfl := List.mem_singleton.mp hl
        exact ⟨by decide, by decide⟩
  · simp only [List.mem_append, not_or, List.append_assoc]
    refine ⟨⟨by decide, feed_not_mem_digits _, by decide, feed_not_mem_digits _⟩, ?_⟩
    exact ⟨_, rfl⟩

/-! ### Rows of a page -/

theorem mem_entries_iff {rows : List (Nat × List Int64)} {n : Nat} {v : Int64} :
    (n, v) ∈ entries rows ↔ ∃ r ∈ rows, r.1 ≤ n ∧ r.2[n - r.1]? = some v := by
  unfold entries
  rw [List.mem_flatMap]
  refine exists_congr fun r => and_congr_right fun _ => ?_
  rw [List.mem_map]
  constructor
  · rintro ⟨⟨w, i⟩, hMem, hPair⟩
    obtain ⟨rfl, rfl⟩ := Prod.mk.inj hPair
    rw [Nat.add_sub_cancel_left]
    exact ⟨Nat.le_add_right _ _, List.mem_zipIdx_iff_getElem?.mp hMem⟩
  · rintro ⟨hLe, hGet⟩
    refine ⟨(v, n - r.1), List.mem_zipIdx_iff_getElem?.mpr hGet, ?_⟩
    show (r.1 + (n - r.1), v) = (n, v)
    rw [Nat.add_sub_cancel' hLe]

section Page

variable {row : Nat} {p : Page}

/-- A row of a page: where it is, and what it has. -/
structure IsRow (row : Nat) (p : Page) (r : Nat × List Int64) (i : Nat) : Prop where
  address_eq : r.1 = p.base + i * row
  length_le : r.2.length ≤ row
  within : r.1 + r.2.length ≤ p.stop
  get?_eq : ∀ k, k < row → r.2[k]? = p.cells[i * row + k]?

theorem isRow_extract {i : Nat} (h : i * row < p.cells.size) :
    IsRow row p (p.base + i * row, (p.cells.extract (i * row) ((i + 1) * row)).toList) i := by
  have hNext : (i + 1) * row = i * row + row := Nat.succ_mul i row
  have hLength : (p.cells.extract (i * row) ((i + 1) * row)).toList.length =
      min (i * row + row) p.cells.size - i * row := by
    rw [Array.length_toList, Array.size_extract, hNext]
  refine ⟨rfl, ?_, ?_, fun k hk => ?_⟩
  · show (p.cells.extract _ _).toList.length ≤ row
    omega
  · show p.base + i * row + (p.cells.extract _ _).toList.length ≤ p.base + p.cells.size
    omega
  · show (p.cells.extract _ _).toList[k]? = _
    rw [Array.getElem?_toList, Array.getElem?_extract, hNext]
    split
    · rfl
    · exact (Array.getElem?_eq_none (by omega)).symm

theorem lt_rows_iff (hRow : 0 < row) (i size : Nat) :
    i < (size + row - 1) / row ↔ i * row < size := by
  rw [← Nat.succ_le_iff, Nat.le_div_iff_mul_le hRow, Nat.succ_mul]
  omega

theorem isRow_of_mem (hRow : 0 < row) {r : Nat × List Int64} (h : r ∈ rows row p.base p.cells) :
    ∃ i, IsRow row p r i := by
  obtain ⟨i, hi, rfl⟩ := List.mem_map.mp h
  exact ⟨i, isRow_extract ((lt_rows_iff hRow i _).mp (List.mem_range.mp hi))⟩

/-- **The rows of a page have all its cells**, each at its address, and nothing else. -/
theorem page_entries_iff (hRow : 0 < row) {n : Nat} {v : Int64} :
    (n, v) ∈ entries (rows row p.base p.cells) ↔ p.cell? n = some v := by
  rw [mem_entries_iff]
  constructor
  · rintro ⟨r, hMem, hLe, hGet⟩
    obtain ⟨i, hIs⟩ := isRow_of_mem hRow hMem
    have hLt : n - r.1 < r.2.length := (List.getElem?_eq_some_iff.mp hGet).1
    have hLength := hIs.length_le
    rw [hIs.get?_eq _ (by omega)] at hGet
    rw [hIs.address_eq] at hLe hGet
    rw [Page.cell?_of_le (by omega), ← hGet]
    congr 1
    omega
  · intro hCell
    obtain ⟨hBase, hStop⟩ := Page.bounds_of_cell? hCell
    rw [Page.cell?_of_le hBase] at hCell
    have hDivide := Nat.div_add_mod (n - p.base) row
    have hRest := Nat.mod_lt (n - p.base) hRow
    rw [Nat.mul_comm] at hDivide
    have hStart : (n - p.base) / row * row < p.cells.size := by
      simp only [Page.stop] at hStop
      omega
    have hIs := isRow_extract (p := p) hStart
    refine ⟨_, List.mem_map.mpr ⟨_, List.mem_range.mpr ((lt_rows_iff hRow _ _).mpr hStart), rfl⟩,
      ?_, ?_⟩
    · show p.base + (n - p.base) / row * row ≤ n
      omega
    · rw [hIs.get?_eq _ (by show n - (p.base + (n - p.base) / row * row) < row; omega), ← hCell]
      congr 1
      show (n - p.base) / row * row + (n - (p.base + (n - p.base) / row * row)) = n - p.base
      omega

/-- A row ends before the next one starts. -/
def Before (r s : Nat × List Int64) : Prop := r.1 + r.2.length ≤ s.1

theorem rows_ordered (row : Nat) (p : Page) : (rows row p.base p.cells).Pairwise Before := by
  unfold rows
  rw [List.pairwise_map]
  refine List.pairwise_lt_range.imp fun {i j} hij => ?_
  have hMul := Nat.mul_le_mul_right row (Nat.succ_le_of_lt hij)
  rw [Nat.succ_mul] at hMul
  simp only [Before, Array.length_toList, Array.size_extract, Nat.succ_mul]
  omega

end Page

theorem addresses_entries (rows : List (Nat × List Int64)) :
    (entries rows).map Prod.fst = rows.flatMap fun r => List.range' r.1 r.2.length := by
  unfold entries
  rw [List.map_flatMap]
  refine congrArg rows.flatMap (funext fun r => ?_)
  rw [List.map_map, List.range'_eq_map_range, List.range_eq_range', ← List.zipIdx_map_snd 0 r.2,
    List.map_map]
  rfl

theorem addresses_increase {rows : List (Nat × List Int64)} (h : rows.Pairwise Before) :
    ((entries rows).map Prod.fst).Pairwise (· < ·) := by
  rw [addresses_entries, List.pairwise_flatMap]
  refine ⟨fun r _ => List.pairwise_lt_range', h.imp fun {r s} hBefore x hx y hy => ?_⟩
  rw [List.mem_range'_1] at hx hy
  unfold Before at hBefore
  omega

/-! ### Rows of a memory -/

/-- The rows that a dump has for these pages. -/
def listed (row : Nat) (pages : List Page) : List (Nat × List Int64) :=
  pages.flatMap fun p => shown row (p.base, p.cells)

theorem shown_build (row : Nat) (pageSize limit : Int64) (pages : List Page) :
    (Memory.build pageSize limit pages).pages.flatMap (shown row) = listed row pages := by
  have hPages : (Memory.build pageSize limit pages).pages =
      pages.map fun p => (p.base, p.cells) := by
    simp only [Memory.pages, Memory.build, List.map_map]
    exact List.zip_map'
  rw [hPages, List.flatMap_map, listed]

section Listed

variable {row : Nat} {pages : List Page}

theorem mem_listed {r : Nat × List Int64} :
    r ∈ listed row pages ↔ ∃ p ∈ pages, r ∈ rows row p.base p.cells ∧ ∃ v ∈ r.2, v ≠ 0 := by
  simp [listed, shown]

theorem listed_ordered (hRow : 0 < row) (hOrder : Memory.Ordered pages) :
    (listed row pages).Pairwise Before := by
  unfold listed
  rw [List.pairwise_flatMap]
  refine ⟨fun p _ => (rows_ordered row p).filter _, hOrder.imp fun {p q} hStop r hr s hs => ?_⟩
  obtain ⟨i, hIs⟩ := isRow_of_mem (p := p) hRow (List.mem_of_mem_filter hr)
  obtain ⟨j, hNext⟩ := isRow_of_mem (p := q) hRow (List.mem_of_mem_filter hs)
  have hWithin := hIs.within
  have hAddress := hNext.address_eq
  unfold Before
  omega

theorem listed_of_cell? (hRow : 0 < row) {p : Page} (hp : p ∈ pages) {n : Nat} {v : Int64}
    (hCell : p.cell? n = some v) (hv : v ≠ 0) : (n, v) ∈ entries (listed row pages) := by
  obtain ⟨r, hr, hLe, hGet⟩ := mem_entries_iff.mp ((page_entries_iff hRow).mpr hCell)
  exact mem_entries_iff.mpr
    ⟨r, mem_listed.mpr ⟨p, hp, hr, v, List.mem_of_getElem? hGet, hv⟩, hLe, hGet⟩

theorem cell?_of_listed (hRow : 0 < row) {n : Nat} {v : Int64}
    (h : (n, v) ∈ entries (listed row pages)) : ∃ p ∈ pages, p.cell? n = some v := by
  obtain ⟨r, hr, hLe, hGet⟩ := mem_entries_iff.mp h
  obtain ⟨p, hp, hRows, -⟩ := mem_listed.mp hr
  exact ⟨p, hp, (page_entries_iff hRow).mp (mem_entries_iff.mpr ⟨r, hRows, hLe, hGet⟩)⟩

theorem cell?_of_cellOf {n : Nat} (h : Memory.cellOf pages n ≠ 0) :
    ∃ p ∈ pages, p.cell? n = some (Memory.cellOf pages n) := by
  unfold Memory.cellOf at h ⊢
  cases hFirst : pages.findSome? (·.cell? n) with
  | none =>
    rw [hFirst] at h
    exact absurd rfl h
  | some v => exact List.exists_of_findSome?_eq_some hFirst

theorem cellOf_of_cell? (hOrder : Memory.Ordered pages) {p : Page} (hp : p ∈ pages) {n : Nat}
    {v : Int64} (hCell : p.cell? n = some v) : Memory.cellOf pages n = v := by
  obtain ⟨j, hj, rfl⟩ := List.getElem_of_mem hp
  obtain ⟨hBase, hStop⟩ := Page.bounds_of_cell? hCell
  have hGet := List.getElem?_eq_getElem hj
  rw [← Memory.found_eq_cellOf hOrder, Memory.foundCell,
    Memory.eq_found_of_holds hOrder hGet hBase hStop, hGet, Option.bind_some, hCell]
  rfl

end Listed

/-! ### Listings -/

/-- The memory without its limit: what can be loaded from it are its contents. -/
def unlimited (m : Memory) : Memory := { m with limit := 0 }

/-- The rows show the memory: they stand in the order of their addresses, none has more than `row`
cells or zeros only, every cell that is not zero is in them once, and what is in them is in the
memory. -/
structure Lists (row : Nat) (m : Memory) (rows : List (Nat × List Int64)) : Prop where
  ordered : rows.Pairwise Before
  short : ∀ r ∈ rows, r.2.length ≤ row
  marked : ∀ r ∈ rows, ∃ v ∈ r.2, v ≠ 0
  once : ((entries rows).map Prod.fst).Pairwise (· < ·)
  complete : ∀ a v, m.load a = .ok v ∨ (unlimited m).load a = .ok v → v ≠ 0 →
    (a.toNatClampNeg, v) ∈ entries rows
  truthful : ∀ n v, (n, v) ∈ entries rows → ∃ a : Int64, a.toNatClampNeg = n ∧
    (unlimited m).load a = .ok v ∧ ∀ w, m.load a = .ok w → w = v
  loads : ∀ a, Memory.Accepts 0 a 1 → ∃ v, (unlimited m).load a = .ok v

theorem eq_of_toNatClampNeg {a b : Int64} (ha : 0 ≤ a.toInt) (hb : 0 ≤ b.toInt)
    (h : a.toNatClampNeg = b.toNatClampNeg) : a = b := by
  rw [← Int64.toInt_inj, ← Memory.toNat_eq_toInt ha, ← Memory.toNat_eq_toInt hb, h]

section Contents

variable {m other : Memory} {a : Int64}

theorem load_refused (m : Memory) (h : ¬Memory.Accepts 0 a 1) :
    ∃ fault, Memory.checkRange 0 .load a 1 = .error fault ∧
      (unlimited m).load a = .error (.fault fault) := by
  cases hCheck : Memory.checkRange 0 .load a 1 with
  | ok u => exact absurd (Memory.checkRange_ok_iff.mp hCheck) h
  | error fault =>
    refine ⟨fault, rfl, ?_⟩
    rw [Memory.load, show (unlimited m).limit = 0 from rfl, hCheck]

theorem accepts_of_load {v : Int64} (h : (unlimited m).load a = .ok v) : Memory.Accepts 0 a 1 := by
  by_contra hRefused
  obtain ⟨fault, -, hFault⟩ := load_refused m hRefused
  rw [hFault] at h
  cases h

variable {row row' : Nat} {rows : List (Nat × List Int64)}

theorem Lists.load_of_rows (h : Lists row m rows) (h' : Lists row' other rows) {v : Int64}
    (hv : v ≠ 0) (hLoad : (unlimited m).load a = .ok v) : (unlimited other).load a = .ok v := by
  obtain ⟨b, hb, hOther, -⟩ := h'.truthful _ _ (h.complete a v (Or.inr hLoad) hv)
  obtain rfl := eq_of_toNatClampNeg (accepts_of_load hOther).1 (accepts_of_load hLoad).1 hb
  exact hOther

/-- **A memory is known from its rows.** -/
theorem Lists.eq_of_rows (h : Lists row m rows) (h' : Lists row' other rows) (a : Int64) :
    (unlimited m).load a = (unlimited other).load a := by
  by_cases hAccepts : Memory.Accepts 0 a 1
  · obtain ⟨v, hv⟩ := h.loads a hAccepts
    obtain ⟨w, hw⟩ := h'.loads a hAccepts
    by_cases hZero : v = 0
    · by_cases hOther : w = 0
      · rw [hv, hw, hZero, hOther]
      · rw [hw, h'.load_of_rows h hOther hw]
    · rw [hv, h.load_of_rows h' hZero hv]
  · obtain ⟨fault, hCheck, hFault⟩ := load_refused m hAccepts
    obtain ⟨fault', hCheck', hFault'⟩ := load_refused other hAccepts
    rw [hCheck] at hCheck'
    cases hCheck'
    rw [hFault, hFault']

end Contents

section Represents

variable {size : Nat} {m : Memory} {f : Memory.FlatMemory} {pages : List Page}

theorem represents_unlimited (h : Memory.Represents size m f pages) :
    Memory.Represents size (unlimited m) { f with limit := 0 } pages := by
  refine ⟨h.size_eq, ?_, h.laid, h.ordered, h.canonical, rfl, h.cells_eq⟩
  exact congrArg unlimited h.eq_build

theorem lists_pages (h : Memory.Represents size m f pages) {row : Nat} (hRow : 0 < row) :
    Lists row m (listed row pages) := by
  have hFree := represents_unlimited h
  have hOrdered := listed_ordered hRow h.ordered
  refine ⟨hOrdered, fun r hr => ?_, fun r hr => ?_, addresses_increase hOrdered,
    fun a v hLoad hv => ?_, fun n v hEntry => ?_, fun a hAccepts => ?_⟩
  · obtain ⟨p, -, hRows, -⟩ := mem_listed.mp hr
    obtain ⟨i, hIs⟩ := isRow_of_mem hRow hRows
    exact hIs.length_le
  · obtain ⟨p, -, -, hMarked⟩ := mem_listed.mp hr
    exact hMarked
  · -- The limit decides whether a cell can be loaded, not what is in it.
    have hCell : 0 ≤ a.toInt ∧ v = f.cells a := by
      rcases hLoad with hLoad | hLoad
      · obtain ⟨hAccepts, hEq⟩ := h.load_ok_iff.mp hLoad
        exact ⟨hAccepts.1, hEq⟩
      · obtain ⟨hAccepts, hEq⟩ := hFree.load_ok_iff.mp hLoad
        exact ⟨hAccepts.1, hEq⟩
    obtain ⟨hNonneg, rfl⟩ := hCell
    rw [h.cells_eq a hNonneg] at hv ⊢
    obtain ⟨p, hp, hGet⟩ := cell?_of_cellOf hv
    exact listed_of_cell? hRow hp hGet hv
  · obtain ⟨p, hp, hCell⟩ := cell?_of_listed hRow hEntry
    have hStop := (Page.bounds_of_cell? hCell).2
    have hTop := (h.laid p hp).2
    have hSmall : n < 2 ^ 63 := by
      simp only [Memory.addressStop] at hTop
      omega
    have hInt : (Int64.ofNat n).toInt = n := Int64.toInt_ofNat_of_lt hSmall
    have hNat : (Int64.ofNat n).toNatClampNeg = n := Int64.toNatClampNeg_ofNat_of_lt hSmall
    have hValue : v = f.cells (Int64.ofNat n) := by
      rw [h.cells_eq _ (by omega), hNat, cellOf_of_cell? h.ordered hp hCell]
    refine ⟨Int64.ofNat n, hNat, hFree.load_ok_iff.mpr ⟨⟨?_, ?_, Or.inl rfl⟩, hValue⟩, ?_⟩
    · omega
    · omega
    · intro w hLoad
      rw [hValue, (h.load_ok_iff.mp hLoad).2]
  · exact ⟨_, hFree.load_ok_iff.mpr ⟨hAccepts, rfl⟩⟩

/-- **Pages show a map again after a reset**, and as long as all of them are made. -/
theorem represents_of_unmade {ops : List Memory.Op} {n : Nat} (hFixed : ∀ n, .pageSize n ∉ ops)
    (h : n = 0 → ∃ size f pages, Memory.Represents size m f pages) (hNone : m.unmade n ops = 0) :
    ∃ size f pages, Memory.Represents size (m.run ops) f pages := by
  induction ops generalizing m n with
  | nil => exact h hNone
  | cons op rest ih =>
    have hOp : ∀ n, op ≠ .pageSize n := fun n hEq => hFixed n (by simp [hEq])
    refine ih (fun n hMem => hFixed n (List.mem_cons_of_mem op hMem)) (fun hTally => ?_) hNone
    have hStep : n = 0 → Memory.madePages (m.perform op) = true →
        ∃ size f pages, Memory.Represents size (leaves (m.perform op)) f pages := by
      intro hZero hMade
      obtain ⟨size, f, pages, hShown⟩ := h hZero
      rcases hShown.perform hOp with ⟨-, pages', hNext⟩ | ⟨-, hFailed⟩
      · exact ⟨size, _, pages', hNext⟩
      · rw [hMade] at hFailed
        cases hFailed
    cases op with
    | reset => exact ⟨_, _, _, Memory.Represents.empty m.pageSize m.limit⟩
    | store address values =>
      rw [Memory.tally] at hTally
      split at hTally
      · exact hStep hTally ‹_›
      · cases hTally
    | limit limit => exact hStep hTally rfl
    | pageSize size => exact absurd rfl (hOp size)

end Represents

/-- **A dump lists the memory.**  Let the memory of a machine be built under one page size.  If no
page was missing since the last reset, then for every row size and every width of the addresses the
dump is written, and the rows read from it show the memory; another memory shown by the same rows
has the same contents.  If a page was missing there is no dump.  Pages no larger than a block are
never missing. -/
theorem dump_lists_memory (pageSize limit : Int64) (ops : List Memory.Op) (m : Machine)
    (hMemory : m.memory = Memory.run { pageSize, limit } ops)
    (hFixed : ∀ n, Memory.Op.pageSize n ∉ ops) (layout : Layout) (hRow : 0 ≤ layout.row) :
    let missing := Memory.unmade { pageSize, limit } 0 ops
    (missing = 0 → ∃ text rows, m.dump layout = .ok text ∧ readRows? text = some rows ∧
      Lists (rowSize layout) m.memory rows ∧
      ∀ row' other, Lists row' other rows →
        ∀ a, (unlimited other).load a = (unlimited m.memory).load a) ∧
    (missing ≠ 0 → ∃ crash, m.dump layout = .error crash) ∧
    (Memory.pageCells pageSize ≤ Memory.largestBlock → missing = 0) := by
  intro missing
  have hEmpty := Memory.Represents.empty pageSize limit
  have hLacks : Memory.Lacks m.memory missing := by
    rw [hMemory]
    exact Memory.run_lacks rfl
  refine ⟨fun hNone => ?_, fun hSome => ?_, fun hSmall => ?_⟩
  · obtain ⟨size, f, pages, h⟩ := represents_of_unmade hFixed (fun _ => ⟨_, _, _, hEmpty⟩) hNone
    rw [← hMemory] at h
    rw [hNone] at hLacks
    obtain ⟨n, hSize⟩ := hLacks.size_ok
    obtain ⟨text, hDump, hRead⟩ := readRows?_dump hSize hRow
    have hPos : 0 < rowSize layout := by
      unfold rowSize
      split <;> omega
    have hLists := lists_pages h hPos
    rw [h.eq_build, shown_build] at hRead
    exact ⟨text, _, hDump, hRead, hLists, fun row' other hOther a => hOther.eq_of_rows hLists a⟩
  · exact ⟨_, Memory.dump_of_size_error (hLacks.size_eq (Nat.pos_of_ne_zero hSome)) layout⟩
  · exact Memory.unmade_eq_zero (hEmpty.allocates hFixed hSmall)

/-- Rows of two cells on pages of three, with a hole and a limit in front of the last page. -/
theorem dump_lists_memory_holes :
    let ops : List Memory.Op := [.store 1 [5, 0, -7], .store 100 [9], .limit 50]
    let m : Machine := { memory := Memory.run { pageSize := 3 } ops }
    let text := "# VM Dump\n  ip: 0\n  rb: 0\n  steps: 0\n# Memory pages:3 size:102\n" ++
      "  @0    0 5\n  @3    -7 0\n  @99   0 9\n"
    Memory.unmade { pageSize := 3 } 0 ops = 0 ∧ m.dump { row := 2, width := 4 } = .ok text ∧
      ∃ rows, readRows? text = some rows ∧ Lists 2 m.memory rows := by
  intro ops m text
  have hFixed : ∀ n, Memory.Op.pageSize n ∉ ops := by simp [ops]
  have hText : m.dump { row := 2, width := 4 } = .ok text := by decide +kernel
  obtain ⟨hListed, -, hSmall⟩ :=
    dump_lists_memory 3 0 ops m rfl hFixed { row := 2, width := 4 } (by decide)
  have hNone := hSmall (by decide)
  obtain ⟨text', rows, hDump, hRead, hLists, -⟩ := hListed hNone
  rw [hText] at hDump
  cases hDump
  exact ⟨hNone, hText, rows, hRead, hLists⟩

/-- The program adds 5 and 6 and stores the sum at 0, in front of the only page.  The page for it
cannot be made, and with that the machine can no longer be dumped. -/
theorem dump_lost_with_page :
    let page : Int64 := 9223372036854775791
    let ops : List Memory.Op := [.store page [1101, 5, 6, 0]]
    let m : Machine := { memory := Memory.run { pageSize := page } ops, ip := page }
    let out := m.run ⟨9, .canceled⟩
    out.1 = some (.crashedOn "VM" Crash.allocation.message) ∧
      out.2.memory = Memory.run { pageSize := page } (ops ++ [.store 0 [11]]) ∧
      Memory.unmade { pageSize := page } 0 (ops ++ [.store 0 [11]]) = 1 ∧
      m.dump {} = .ok ("# VM Dump\n  ip: 9223372036854775791\n  rb: 0\n  steps: 0\n" ++
        "# Memory pages:1 size:9223372036854775807\n  @9223372036854775791 1101 5 6 0 0 0 0 0\n") ∧
      out.2.dump {} = .error (.outOfRange 1 1) := by
  decide +kernel

end HullRobot.Listing
