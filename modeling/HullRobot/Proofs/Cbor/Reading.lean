import HullRobot.Cbor.Decode
import Mathlib.Data.List.Basic
import Mathlib.Tactic.Ring

/-!
# Written items are read back

An item is read from its own bytes, whatever follows them, as long as its arrays and maps are no
longer and no deeper than the reader allows.

* `readHead_head`: **a shortest head is read back**, with the number in it.
* `Plain bound levels item`: numbers of 64 bits, texts in one piece, null, and arrays and maps of
  these, of length at most `bound` and nested at most `levels` deep.
* `readNested_encode`: **a plain item is read back and the rest is left.**
* `readNested_long`: an array above the bound is refused at its head.
-/

namespace HullRobot.Cbor

/-- The first number that a head has no room for. -/
def headStop : Nat := 0x10000000000000000

/-! ### Numbers -/

theorem length_bigEndian (width n : Nat) : (bigEndian width n).length = width := by
  induction width with
  | zero => rfl
  | succ width ih => rw [bigEndian, List.length_cons, ih]

/-- Bytes that follow a number shift it to the left. -/
theorem foldl_bigEndian (width n start : Nat) :
    (bigEndian width n).foldl (fun n b => 256 * n + b.toNat) start =
      start * Nat.pow 256 width + n % Nat.pow 256 width := by
  induction width generalizing start with
  | zero =>
    show start = start * 1 + n % 1
    omega
  | succ width ih =>
    have hByte : (n / Nat.pow 256 width).toUInt8.toNat = n / Nat.pow 256 width % 256 :=
      UInt8.toNat_ofNat'
    have hSplit : n % (Nat.pow 256 width * 256) =
        n % Nat.pow 256 width + Nat.pow 256 width * (n / Nat.pow 256 width % 256) := Nat.mod_mul
    rw [bigEndian, List.foldl_cons, ih, hByte, show Nat.pow 256 (width + 1) =
      Nat.pow 256 width * 256 from rfl, hSplit]
    ring

theorem ofBigEndian_bigEndian {width n : Nat} (h : n < Nat.pow 256 width) :
    ofBigEndian (bigEndian width n) = n := by
  rw [ofBigEndian, foldl_bigEndian, Nat.zero_mul, Nat.zero_add, Nat.mod_eq_of_lt h]

/-! ### Heads -/

theorem take_append (taken rest : List UInt8) :
    take taken.length (taken ++ rest) = .ok (taken, rest) := by
  induction taken with
  | nil => rfl
  | cons b taken ih =>
    rw [List.length_cons, List.cons_append, take, ih]
    rfl

theorem toNat_initial {major info : Nat} (hMajor : major < 8) (hInfo : info < 32) :
    (initial major info).toNat = 32 * major + info := by
  have hByte : (initial major info).toNat = (32 * major + info) % 256 := UInt8.toNat_ofNat'
  omega

/-- A head with its number in the bytes behind the first one. -/
theorem readHead_wide {major info n : Nat} (hMajor : major < 7) (hLow : 24 ≤ info)
    (hHigh : info < 28) (hFits : n < Nat.pow 256 (widthOf info)) (rest : List UInt8) :
    readHead (initial major info :: (bigEndian (widthOf info) n ++ rest)) =
      .ok (⟨major, info, n⟩, rest) := by
  have hByte := toNat_initial (show major < 8 by omega) (show info < 32 by omega)
  have hKind : majorOf (initial major info) = major := by
    rw [majorOf, hByte]
    omega
  have hInfo : (initial major info).toNat % 32 = info := by omega
  have hTake := take_append (bigEndian (widthOf info) n) rest
  rw [length_bigEndian] at hTake
  simp only [readHead, hKind, hInfo, hTake, ofBigEndian_bigEndian hFits]
  rw [if_neg (by omega), if_pos hHigh, if_neg (by omega)]

/-- **A shortest head is read back**, with the number in it. -/
theorem readHead_head {major n : Nat} (hMajor : major < 7) (hFits : n < headStop)
    (rest : List UInt8) :
    ∃ info < 28, readHead (head major n ++ rest) = .ok (⟨major, info, n⟩, rest) := by
  have hWide : ∀ info, 24 ≤ info → info < 28 → n < Nat.pow 256 (widthOf info) →
      head major n = initial major info :: bigEndian (widthOf info) n →
      ∃ info < 28, readHead (head major n ++ rest) = .ok (⟨major, info, n⟩, rest) := by
    intro info hLow hHigh hNumber hHead
    rw [hHead]
    exact ⟨info, hHigh, readHead_wide hMajor hLow hHigh hNumber rest⟩
  by_cases h0 : n < 24
  · have hByte := toNat_initial (show major < 8 by omega) (show n < 32 by omega)
    refine ⟨n, by omega, ?_⟩
    rw [head, if_pos h0, List.singleton_append]
    simp only [readHead, majorOf, hByte]
    rw [show (32 * major + n) % 32 = n by omega, if_pos h0,
      show (32 * major + n) / 32 = major by omega]
  by_cases h1 : n < 0x100
  · exact hWide 24 (by omega) (by omega) h1 (by rw [head, if_neg h0, if_pos h1]; rfl)
  by_cases h2 : n < 0x10000
  · exact hWide 25 (by omega) (by omega) h2 (by rw [head, if_neg h0, if_neg h1, if_pos h2]; rfl)
  by_cases h4 : n < 0x100000000
  · refine hWide 26 (by omega) (by omega) h4 ?_
    rw [head, if_neg h0, if_neg h1, if_neg h2, if_pos h4]
    rfl
  · refine hWide 27 (by omega) (by omega) hFits ?_
    rw [head, if_neg h0, if_neg h1, if_neg h2, if_neg h4]
    rfl

/-! ### Items -/

/-- Numbers of 64 bits, texts in one piece, null, and arrays and maps of these, of length at most
`bound` and nested at most `levels` deep. -/
inductive Plain (bound : Nat) : (levels : Nat) → Item → Prop
  | unsigned {levels n : Nat} (hFits : n < headStop) : Plain bound levels (.unsigned n)
  | negative {levels n : Nat} (hFits : n < headStop) : Plain bound levels (.negative n)
  | text {levels : Nat} {chunk : List UInt8} (hFits : chunk.length < 0x8000000000000000) :
      Plain bound levels (.text [chunk])
  | null {levels : Nat} : Plain bound levels .null
  | array {levels : Nat} {items : List Item} (hLength : items.length ≤ bound)
      (hItems : ∀ i ∈ items, Plain bound levels i) : Plain bound (levels + 1) (.array items)
  | map {levels : Nat} {entries : List (Item × Item)} (hLength : entries.length ≤ bound)
      (hKeys : ∀ e ∈ entries, Plain bound levels e.1)
      (hValues : ∀ e ∈ entries, Plain bound levels e.2) : Plain bound (levels + 1) (.map entries)

/-- The keys and values of a map in a row. -/
def inRow (entries : List (Item × Item)) : List Item := entries.flatMap fun e => [e.1, e.2]

theorem inRow_cons (e : Item × Item) (entries : List (Item × Item)) :
    inRow (e :: entries) = e.1 :: e.2 :: inRow entries := rfl

theorem length_inRow (entries : List (Item × Item)) :
    (inRow entries).length = 2 * entries.length := by
  induction entries with
  | nil => rfl
  | cons e entries ih =>
    rw [inRow_cons, List.length_cons, List.length_cons, List.length_cons, ih]
    omega

theorem pairUp_inRow (entries : List (Item × Item)) : pairUp (inRow entries) = entries := by
  induction entries with
  | nil => rfl
  | cons e entries ih => rw [inRow_cons, pairUp, ih]

theorem encodeEntries_eq (entries : List (Item × Item)) :
    encodeEntries entries = encodeAll (inRow entries) := by
  induction entries with
  | nil => rfl
  | cons e entries ih =>
    rw [inRow_cons, encodeEntries, encodeAll, encodeAll, ih, List.append_assoc]

/-- The reader reads an item from its own bytes and leaves what follows. -/
def Reads (one : Reader Item) (i : Item) : Prop := ∀ rest, one (encode i ++ rest) = .ok (i, rest)

theorem readMany_encodeAll {one : Reader Item} {items : List Item} (h : ∀ i ∈ items, Reads one i)
    (rest : List UInt8) :
    readMany one items.length (encodeAll items ++ rest) = .ok (items, rest) := by
  induction items with
  | nil => rfl
  | cons i items ih =>
    obtain ⟨hFirst, hLater⟩ := List.forall_mem_cons.mp h
    rw [List.length_cons, encodeAll, List.append_assoc, readMany, hFirst]
    simp only [bind, Except.bind, ih hLater]

/-- The first item that cannot be read is the error of the row. -/
theorem readMany_error {one : Reader Item} {e : Malformed} {i : Item} {front back : List Item}
    (hFront : ∀ j ∈ front, Reads one j) (h : ∀ rest, one (encode i ++ rest) = .error e)
    (rest : List UInt8) :
    readMany one (front ++ i :: back).length (encodeAll (front ++ i :: back) ++ rest) =
      .error e := by
  induction front with
  | nil =>
    rw [List.nil_append, List.length_cons, encodeAll, List.append_assoc, readMany, h]
    rfl
  | cons j front ih =>
    obtain ⟨hFirst, hLater⟩ := List.forall_mem_cons.mp hFront
    rw [List.cons_append, List.length_cons, encodeAll, List.append_assoc, readMany, hFirst]
    simp only [bind, Except.bind, ih hLater]

section

variable {bound levels : Nat} {inner : Option (Reader Item)} {one : Reader Item}

theorem readNested_eq (bound levels : Nat) :
    ∃ inner, readNested bound levels = readItem bound inner := by
  cases levels with
  | zero => exact ⟨_, rfl⟩
  | succ levels => exact ⟨_, rfl⟩

/-- What an item without a tag is read as after its head. -/
theorem readItem_head (bound : Nat) (inner : Option (Reader Item)) {major n : Nat}
    (hMajor : major < 6) (hFits : n < headStop) (rest : List UInt8) :
    ∃ info < 28, readItem bound inner (head major n ++ rest) =
      readUntagged bound inner ⟨major, info, n⟩ rest := by
  obtain ⟨info, hInfo, hHead⟩ := readHead_head (show major < 7 by omega) hFits rest
  refine ⟨info, hInfo, ?_⟩
  simp only [readItem, hHead, bind, Except.bind]
  rw [if_neg (show major ≠ 6 by omega)]

theorem isOpen_eq_false {major info value : Nat} (h : info < 28) :
    (Head.mk major info value).isOpen = false := by
  rw [Head.isOpen, decide_eq_false_iff_not]
  show info ≠ 31
  omega

theorem reads_unsigned {n : Nat} (hFits : n < headStop) :
    Reads (readItem bound inner) (.unsigned n) := by
  intro rest
  obtain ⟨info, -, hRead⟩ := readItem_head bound inner (show 0 < 6 by omega) hFits rest
  exact hRead

theorem reads_negative {n : Nat} (hFits : n < headStop) :
    Reads (readItem bound inner) (.negative n) := by
  intro rest
  obtain ⟨info, -, hRead⟩ := readItem_head bound inner (show 1 < 6 by omega) hFits rest
  exact hRead

theorem reads_text {chunk : List UInt8} (hFits : chunk.length < 0x8000000000000000) :
    Reads (readItem bound inner) (.text [chunk]) := by
  intro rest
  have hHead : chunk.length < headStop := Nat.lt_trans hFits (by decide)
  obtain ⟨info, hInfo, hRead⟩ :=
    readItem_head bound inner (show 3 < 6 by omega) hHead (chunk ++ rest)
  rw [encode, encodeString, List.append_assoc, hRead]
  simp only [readUntagged, readString, isOpen_eq_false hInfo, Bool.false_eq_true, if_false,
    readChunk, if_neg (Nat.not_le.mpr hFits), take_append, bind, Except.bind]

theorem reads_null : Reads (readItem bound inner) .null := fun _ => rfl

theorem readArray_closed {h : Head} (hOpen : h.isOpen = false) (bytes : List UInt8) :
    readArray bound one h bytes =
      if bound < h.value then .error .tooLong
      else (readMany one h.value bytes).map fun p => (.array p.1, p.2) := by
  simp only [readArray, hOpen, Bool.false_eq_true, if_false]
  split
  · rfl
  · cases readMany one h.value bytes <;> rfl

theorem readMap_closed {h : Head} (hOpen : h.isOpen = false) (bytes : List UInt8) :
    readMap bound one h bytes =
      if bound < h.value then .error .tooLong
      else (readMany one (2 * h.value) bytes).map fun p => (.map (pairUp p.1), p.2) := by
  simp only [readMap, hOpen, Bool.false_eq_true, if_false]
  split
  · rfl
  · cases readMany one (2 * h.value) bytes <;> rfl

/-- How an array is read from its bytes. -/
theorem readItem_array {items : List Item} (hFits : items.length < headStop) (rest : List UInt8) :
    readItem bound (some one) (encode (.array items) ++ rest) =
      if bound < items.length then .error .tooLong
      else (readMany one items.length (encodeAll items ++ rest)).map
        fun p => (.array p.1, p.2) := by
  obtain ⟨info, hInfo, hRead⟩ :=
    readItem_head bound (some one) (show 4 < 6 by omega) hFits (encodeAll items ++ rest)
  rw [encode, List.append_assoc, hRead]
  exact readArray_closed (isOpen_eq_false hInfo) _

/-- How a map is read from its bytes. -/
theorem readItem_map {entries : List (Item × Item)} (hFits : entries.length < headStop)
    (rest : List UInt8) :
    readItem bound (some one) (encode (.map entries) ++ rest) =
      if bound < entries.length then .error .tooLong
      else (readMany one (inRow entries).length (encodeAll (inRow entries) ++ rest)).map fun p =>
        (.map (pairUp p.1), p.2) := by
  obtain ⟨info, hInfo, hRead⟩ :=
    readItem_head bound (some one) (show 5 < 6 by omega) hFits (encodeEntries entries ++ rest)
  rw [encode, List.append_assoc, hRead, encodeEntries_eq, length_inRow]
  exact readMap_closed (isOpen_eq_false hInfo) _

/-- **A plain item is read back and the rest is left.** -/
theorem readNested_encode {i : Item} (hBound : bound < headStop) (h : Plain bound levels i) :
    Reads (readNested bound levels) i := by
  induction h with
  | @unsigned levels n hFits =>
    obtain ⟨inner, hInner⟩ := readNested_eq bound levels
    exact hInner ▸ reads_unsigned hFits
  | @negative levels n hFits =>
    obtain ⟨inner, hInner⟩ := readNested_eq bound levels
    exact hInner ▸ reads_negative hFits
  | @text levels chunk hFits =>
    obtain ⟨inner, hInner⟩ := readNested_eq bound levels
    exact hInner ▸ reads_text hFits
  | @null levels =>
    obtain ⟨inner, hInner⟩ := readNested_eq bound levels
    exact hInner ▸ reads_null
  | array hLength _ ih =>
    intro rest
    rw [readNested, readItem_array (Nat.lt_of_le_of_lt hLength hBound),
      if_neg (Nat.not_lt.mpr hLength), readMany_encodeAll ih]
    rfl
  | @map levels entries hLength _ _ ihKeys ihValues =>
    intro rest
    have hRow : ∀ i ∈ inRow entries, Reads (readNested bound levels) i := by
      intro i hi
      obtain ⟨e, he, hSide⟩ := List.mem_flatMap.mp hi
      rcases List.mem_pair.mp hSide with rfl | rfl
      · exact ihKeys e he
      · exact ihValues e he
    rw [readNested, readItem_map (Nat.lt_of_le_of_lt hLength hBound),
      if_neg (Nat.not_lt.mpr hLength), readMany_encodeAll hRow]
    simp only [Except.map, pairUp_inRow]

/-- An array above the bound is refused at its head. -/
theorem readNested_long {items : List Item} (hFits : items.length < headStop)
    (hLong : bound < items.length) (rest : List UInt8) :
    readNested bound (levels + 1) (encode (.array items) ++ rest) = .error .tooLong := by
  rw [readNested, readItem_array hFits, if_pos hLong]

/-- The first key or value of a map that cannot be read is the error of the map. -/
theorem readNested_map_error {entries : List (Item × Item)} (front : List Item)
    {back : List Item} {i : Item} {e : Malformed} (hBound : bound < headStop)
    (hLength : entries.length ≤ bound) (hRow : inRow entries = front ++ i :: back)
    (hFront : ∀ j ∈ front, Reads (readNested bound levels) j)
    (h : ∀ rest, readNested bound levels (encode i ++ rest) = .error e) (rest : List UInt8) :
    readNested bound (levels + 1) (encode (.map entries) ++ rest) = .error e := by
  rw [readNested, readItem_map (Nat.lt_of_le_of_lt hLength hBound),
    if_neg (Nat.not_lt.mpr hLength), hRow, readMany_error hFront h]
  rfl

end

/-! ### Whole texts -/

theorem decodeWithin_eq {bound : Nat} {bytes : List UInt8}
    (h : readNested bound maxDepth bytes ≠ .error .truncated) :
    decodeWithin bound bytes =
      match readNested bound maxDepth bytes with
      | .error e => .error e
      | .ok (item, rest) => if rest.isEmpty then .ok item else .error .trailing := by
  cases bytes with
  | nil => exact absurd rfl h
  | cons b rest => rfl

theorem decodeWithin_encode {bound : Nat} {i : Item} (hBound : bound < headStop)
    (h : Plain bound maxDepth i) : decodeWithin bound (encode i) = .ok i := by
  have hRead := readNested_encode hBound h []
  rw [List.append_nil] at hRead
  rw [decodeWithin_eq (by rw [hRead]; nofun), hRead]
  rfl

end HullRobot.Cbor
