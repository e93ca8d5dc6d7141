import HullRobot.Proofs.Cbor.Reading
import HullRobot.Snapshot

/-!
# Snapshots are read back

The item of a snapshot gives the snapshot again, field by field.  Its bytes give the item again if
the reader allows lists as long as those of the snapshot, and are refused if it does not.

* `ofRead_item`: **the item of a snapshot gives the snapshot.**
* `decodeWithin_encode_short`, `decodeWithin_encode_long`: its bytes give the item exactly if no
  list is longer than the bound of the reader.  `ofRead_decodeWithin_encode`: **then they give the
  snapshot.**
* `reads_back_short_lists`: **what becomes of a snapshot that is written and read**, and that no two
  snapshots have the same bytes.
* `long_outputs_lost`: a snapshot that cannot be read back.
-/

namespace HullRobot

namespace Cbor

/-! ### Values -/

theorem view_ofInt (i : Int) : view (.ofInt i) = .ok (.integer i) := by
  cases i with
  | ofNat n => rfl
  | negSucc n =>
    simp only [Item.ofInt, view, Int.negSucc_eq]
    congr 2
    omega

theorem readInteger_of_fits {α : Type} {zero : α} {fits? : Int → Option α} {item : Item} {i : Int}
    {a : α} (hView : view item = .ok (.integer i)) (hFits : fits? i = some a) :
    readInteger zero fits? item = ⟨a, none⟩ := by
  simp only [readInteger, hView, hFits]

theorem readInt64_ofInt (i : Int64) : readInt64 (.ofInt i.toInt) = ⟨i, none⟩ := by
  have hRange : Int64.minValue.toInt ≤ i.toInt ∧ i.toInt ≤ Int64.maxValue.toInt :=
    ⟨Int64.minValue_le_toInt i, Int64.toInt_le i⟩
  refine readInteger_of_fits (view_ofInt i.toInt) ?_
  rw [if_pos hRange, Int64.ofInt_toInt]

theorem readUInt64_unsigned (n : UInt64) : readUInt64 (.unsigned n.toNat) = ⟨n, none⟩ := by
  have hRange : (0 : Int) ≤ n.toNat ∧ (n.toNat : Int) < UInt64.size :=
    ⟨Int.natCast_nonneg _, Int.ofNat_lt.mpr n.toNat_lt_size⟩
  refine readInteger_of_fits (view_ofInt n.toNat) ?_
  rw [if_pos hRange, Int.toNat_natCast, UInt64.ofNat_toNat]

theorem firstError_eq_none {α : Type} {readings : List (Reading α)}
    (h : ∀ r ∈ readings, r.error = none) : firstError readings = none :=
  List.findSome?_eq_none_iff.mpr h

/-! ### Fields -/

/-- A field takes the first entry with its name, and the other fields go on with the rest. -/
theorem readEntries_field {σ α : Type} {fields : List (Field σ)} (name : String)
    {read : Item → Reading α} {set : σ → α → σ} {value : Item} {a : α}
    (hText : validText [Text.bytes name] = true)
    (hField : (fields.find? fun f => f.isNamed (Text.bytes name)) = some (fieldOf name read set))
    (hRead : read value = ⟨a, none⟩) (rest : List (Item × Item)) (s : σ) :
    readEntries fields ((.text [Text.bytes name], value) :: rest) s =
      readEntries (fields.filter fun f => f.name ≠ name) rest (set s a) := by
  have hKey : keyName? (.text [Text.bytes name]) = .ok (some (Text.bytes name)) := by
    rw [keyName?, if_pos hText, List.flatten_singleton]
  simp only [readEntries, hKey, hField, fieldOf, hRead, Option.none_or]

end Cbor

namespace Snapshot

open Cbor

variable {s : Snapshot}

/-! ### From items -/

theorem readList_listItem {α : Type} {one : α → Item} {read : Item → Reading α}
    (h : ∀ a, read (one a) = ⟨a, none⟩) (xs : Option (List α)) :
    readList read (listItem one xs) = ⟨xs, none⟩ := by
  cases xs with
  | none => rfl
  | some xs =>
    have hReadings : (xs.map one).map read = xs.map fun a => ⟨a, none⟩ := by
      rw [List.map_map]
      exact List.map_congr_left fun a _ => h a
    simp only [listItem, readList, view, hReadings, List.map_map]
    rw [firstError_eq_none (by simp)]
    exact congrArg (Reading.mk · none) (congrArg some (List.map_id xs))

theorem readRecord_panelItem (p : Panel) : readRecord panelFields {} (panelItem p) = ⟨p, none⟩ := by
  rw [readRecord, panelItem, view]
  refine (readEntries_field "x" (by decide +kernel) rfl (readInt64_ofInt p.x) _ _).trans ?_
  refine (readEntries_field "y" (by decide +kernel) rfl (readInt64_ofInt p.y) _ _).trans ?_
  exact (readEntries_field "color" (by decide +kernel) rfl (readInt64_ofInt p.color) _ _).trans rfl

/-- **The item of a snapshot gives the snapshot.** -/
theorem ofRead_item (s : Snapshot) : ofRead (.ok s.item) = (s, none) := by
  have hEntries : readRecord fields {} s.item = ⟨s, none⟩ := by
    rw [readRecord, item, view]
    refine (readEntries_field "steps" (by decide +kernel) rfl
      (readUInt64_unsigned s.steps) _ _).trans ?_
    refine (readEntries_field "panels" (by decide +kernel) rfl
      (readList_listItem readRecord_panelItem s.panels) _ _).trans ?_
    refine (readEntries_field "outputs" (by decide +kernel) rfl
      (readList_listItem readInt64_ofInt s.outputs) _ _).trans ?_
    exact (readEntries_field "painted" (by decide +kernel) rfl
      (readInt64_ofInt s.painted) _ _).trans rfl
  rw [ofRead, hEntries]
  rfl

/-! ### From bytes -/

/-- No list of the snapshot has more than `n` elements. -/
def Within (n : Nat) (s : Snapshot) : Prop :=
  (∀ panels ∈ s.panels, panels.length ≤ n) ∧ ∀ outputs ∈ s.outputs, outputs.length ≤ n

instance (n : Nat) (s : Snapshot) : Decidable (s.Within n) := inferInstanceAs (Decidable (_ ∧ _))

section

variable {bound levels : Nat}

theorem plain_numberItem (i : Int64) : Plain bound levels (numberItem i) := by
  have hLow := i.le_toInt
  have hHigh := i.toInt_lt
  unfold numberItem
  cases hInt : i.toInt with
  | ofNat n =>
    rw [Int.ofNat_eq_natCast] at hInt
    exact .unsigned (by simp only [headStop]; omega)
  | negSucc n => exact .negative (by simp only [headStop]; omega)

theorem plain_panelItem (hBound : 3 ≤ bound) (p : Panel) :
    Plain bound (levels + 1) (panelItem p) := by
  refine .map hBound ?_ ?_
  · simp only [List.forall_mem_cons, List.not_mem_nil, false_imp_iff, implies_true, and_true]
    exact ⟨.text (by decide +kernel), .text (by decide +kernel), .text (by decide +kernel)⟩
  · simp only [List.forall_mem_cons, List.not_mem_nil, false_imp_iff, implies_true, and_true]
    exact ⟨plain_numberItem p.x, plain_numberItem p.y, plain_numberItem p.color⟩

theorem plain_listItem {α : Type} {one : α → Item} {xs : Option (List α)}
    (hOne : ∀ a, Plain bound levels (one a)) (hLength : ∀ ys ∈ xs, ys.length ≤ bound) :
    Plain bound (levels + 1) (listItem one xs) := by
  cases xs with
  | none => exact .null
  | some xs =>
    refine .array ((List.length_map one).trans_le (hLength xs rfl)) fun i hi => ?_
    obtain ⟨a, -, rfl⟩ := List.mem_map.mp hi
    exact hOne a

theorem plain_item (levels : Nat) (hBound : 4 ≤ bound) (h : s.Within bound) :
    Plain bound (levels + 3) s.item := by
  refine .map hBound ?_ ?_
  · simp only [List.forall_mem_cons, List.not_mem_nil, false_imp_iff, implies_true, and_true]
    exact ⟨.text (by decide +kernel), .text (by decide +kernel), .text (by decide +kernel),
      .text (by decide +kernel)⟩
  · simp only [List.forall_mem_cons, List.not_mem_nil, false_imp_iff, implies_true, and_true]
    exact ⟨.unsigned s.steps.toNat_lt, plain_listItem (plain_panelItem (by omega)) h.1,
      plain_listItem plain_numberItem h.2, plain_numberItem s.painted⟩

/-- The bytes of a snapshot give its item if the reader allows lists of that length. -/
theorem decodeWithin_encode_short (hLow : 4 ≤ bound) (hHigh : bound < headStop)
    (h : s.Within bound) : decodeWithin bound s.encode = .ok s.item :=
  decodeWithin_encode hHigh (plain_item 29 hLow h)

/-- **A snapshot is read back** by a reader that allows lists of that length. -/
theorem ofRead_decodeWithin_encode (hLow : 4 ≤ bound) (hHigh : bound < headStop)
    (h : s.Within bound) : ofRead (decodeWithin bound s.encode) = (s, none) := by
  rw [decodeWithin_encode_short hLow hHigh h, ofRead_item]

theorem readNested_listItem_long {α : Type} {one : α → Item} {xs : List α}
    (hCount : xs.length < headStop) (hLong : bound < xs.length) (rest : List UInt8) :
    readNested bound (levels + 1) (Cbor.encode (listItem one (some xs)) ++ rest) =
      .error .tooLong := by
  rw [← List.length_map one] at hCount hLong
  exact readNested_long hCount hLong rest

/-- The bytes of a snapshot are refused if the reader does not allow lists of that length. -/
theorem decodeWithin_encode_long (hLow : 4 ≤ bound) (hHigh : bound < headStop)
    (hCount : s.Within (headStop - 1)) (hLong : ¬s.Within bound) :
    decodeWithin bound s.encode = .error .tooLong := by
  have hText : ∀ name, (Text.bytes name).length < 0x8000000000000000 →
      Reads (readNested bound 31) (textItem name) :=
    fun name hName => readNested_encode hHigh (.text hName)
  have hSteps : Reads (readNested bound 31) (.unsigned s.steps.toNat) :=
    readNested_encode hHigh (.unsigned s.steps.toNat_lt)
  -- The row of keys and values is read up to the first list that is too long.
  have hRead : readNested bound (31 + 1) (Cbor.encode s.item ++ []) = .error .tooLong := by
    unfold item
    by_cases hPanels : ∀ panels ∈ s.panels, panels.length ≤ bound
    · obtain ⟨outputs, hMem, hOver⟩ : ∃ outputs ∈ s.outputs, bound < outputs.length := by
        by_contra hShort
        push Not at hShort
        exact hLong ⟨hPanels, hShort⟩
      have hFits : outputs.length < headStop :=
        Nat.lt_of_le_pred (by decide) (hCount.2 outputs hMem)
      have hList : Reads (readNested bound 31) (listItem panelItem s.panels) :=
        readNested_encode hHigh (plain_listItem (plain_panelItem (by omega)) hPanels)
      refine readNested_map_error [_, _, _, _, _] hHigh ?_ rfl ?_ ?_ []
      · exact hLow
      · simp only [List.forall_mem_cons, List.not_mem_nil, false_imp_iff, implies_true, and_true]
        exact ⟨hText "steps" (by decide +kernel), hSteps, hText "panels" (by decide +kernel), hList,
          hText "outputs" (by decide +kernel)⟩
      · rw [Option.mem_def.mp hMem]
        exact readNested_listItem_long hFits hOver
    · push Not at hPanels
      obtain ⟨panels, hMem, hOver⟩ := hPanels
      have hFits : panels.length < headStop := Nat.lt_of_le_pred (by decide) (hCount.1 panels hMem)
      refine readNested_map_error [_, _, _] hHigh ?_ rfl ?_ ?_ []
      · exact hLow
      · simp only [List.forall_mem_cons, List.not_mem_nil, false_imp_iff, implies_true, and_true]
        exact ⟨hText "steps" (by decide +kernel), hSteps, hText "panels" (by decide +kernel)⟩
      · rw [Option.mem_def.mp hMem]
        exact readNested_listItem_long hFits hOver
  have hRead' : readNested bound maxDepth s.encode = .error .tooLong :=
    (congrArg _ (List.append_nil _)).symm.trans hRead
  rw [decodeWithin_eq (by rw [hRead']; nofun), hRead']

end

/-! ### What becomes of a snapshot -/

/-- **What becomes of a snapshot that is written and read.**  It is read back if neither of its
lists has more than 131072 elements, and it is refused if one has.  In both cases no other snapshot
has its bytes.  Lists are taken to be shorter than `2 ^ 64`, so that a head can count them. -/
theorem reads_back_short_lists (s : Snapshot) (hCount : s.Within (headStop - 1)) :
    decode s.encode =
      (if s.Within 131072 then (s, none) else ({}, some (.malformed .tooLong))) ∧
    ∀ s' : Snapshot, s'.Within (headStop - 1) → s'.encode = s.encode → s' = s := by
  constructor
  · by_cases hShort : s.Within 131072
    · rw [if_pos hShort]
      exact ofRead_decodeWithin_encode (by decide) (by decide) hShort
    · rw [if_neg hShort, decode, Cbor.decode]
      exact congrArg ofRead (decodeWithin_encode_long (by decide) (by decide) hCount hShort)
  · -- A reader that allows lists of any length tells the two apart.
    intro s' hCount' hSame
    have hRead := ofRead_decodeWithin_encode (by decide) (by decide) hCount
    have hRead' := ofRead_decodeWithin_encode (by decide) (by decide) hCount'
    rw [hSame, hRead] at hRead'
    exact (Prod.mk.inj hRead').1.symm

/-- The least and the largest numbers, and lists that are empty or absent. -/
theorem reads_back_short_lists_extremes :
    let s : Snapshot :=
      { painted := Int64.minValue, panels := some [⟨Int64.minValue, Int64.maxValue, -1⟩],
        outputs := some [], steps := 0xffffffffffffffff }
    let s' : Snapshot := { s with outputs := none }
    s.Within (headStop - 1) ∧ decode s.encode = (s, none) ∧ s'.encode ≠ s.encode := by
  intro s s'
  have hCount : s.Within (headStop - 1) := by decide
  obtain ⟨hRead, hOnly⟩ := reads_back_short_lists s hCount
  refine ⟨hCount, hRead.trans (if_pos (by decide)), fun hSame => ?_⟩
  exact absurd (hOnly s' (by decide) hSame) (by decide)

/-- One output too many, and nothing of the snapshot is read back. -/
theorem long_outputs_lost :
    let s : Snapshot := { outputs := some (List.replicate 131073 0) }
    decode s.encode = ({}, some (.malformed .tooLong)) ∧ decode s.encode ≠ (s, none) := by
  intro s
  have hWithin : ∀ n, s.Within n ↔ 131073 ≤ n := by
    intro n
    have hLength : (List.replicate 131073 (0 : Int64)).length = 131073 := List.length_replicate
    constructor
    · intro h
      exact hLength.symm.trans_le (h.2 _ rfl)
    · intro h
      refine ⟨nofun, fun outputs hMem => ?_⟩
      rw [← Option.some.inj hMem]
      exact hLength.trans_le h
  have hRead : decode s.encode = ({}, some (.malformed .tooLong)) := by
    refine congrArg ofRead (decodeWithin_encode_long (by decide) (by decide) ?_ ?_)
    · exact (hWithin _).mpr (by decide)
    · exact fun hShort => absurd ((hWithin _).mp hShort) (by decide)
  refine ⟨hRead, fun hSame => ?_⟩
  have hError := congrArg Prod.snd (hRead.symm.trans hSame)
  cases hError

end Snapshot

end HullRobot
