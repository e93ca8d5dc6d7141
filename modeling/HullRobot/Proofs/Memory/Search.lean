import HullRobot.Memory.Basic

/-!
# The search for a page

Every load and every store begins with a search of the directory.  It halves a range of positions
until one is left, and in a directory whose bases ascend that is the position of the last page at
or below the address.

* `narrow`, `SearchEnds`: one round of the search, and the loop that goes through rounds until its
  own condition ends it.  A bound on the rounds would not tell a loop that is done from one that
  stands still.
* `narrow_eq`: **a round reads no base behind the directory**, in whatever order that is.
* `searchEnds_locateWithin`: **the loop ends** within the rounds that it takes to halve the range
  away, and `locateWithin` gives its result.
* `locate_spec`: where the search ends, for any directory at all.
* `Ascending.lastBelow_or`: where it ends if the bases ascend.
* `InOrder.locate_eq_of_holds`: if the pages do not overlap, that is the only page with the address.
* `locate_finds_last_below`: all of this for every directory and address.
-/

namespace HullRobot.Memory

/-! ### The loop -/

/-- The base of the page at `index`; to ask for it behind the end of the directory is a crash. -/
def baseAt (extents : Array Extent) (index : Nat) : Except Crash Nat :=
  match extents[index]? with
  | some e => .ok e.base
  | none => .error (.outOfRange index extents.size)

/-- One round of the search: the positions that are left of `low … high`.  A base is read only if
the middle is a position of the directory. -/
def narrow (extents : Array Extent) (address low high : Nat) : Except Crash (Nat × Nat) :=
  let middle := (low + high) / 2 + 1
  if middle < extents.size then
    match baseAt extents middle with
    | .error c => .error c
    | .ok base => .ok (if base ≤ address then (middle, high) else (low, middle - 1))
  else .ok (low, middle - 1)

/-- The search of the positions `low … high` ends after so many rounds, at a position or with a
crash. -/
inductive SearchEnds (extents : Array Extent) (address : Nat) :
    (low high rounds : Nat) → Except Crash Nat → Prop
  | done {low high : Nat} (hClosed : high ≤ low) : SearchEnds extents address low high 0 (.ok low)
  | crash {low high : Nat} {c : Crash} (hOpen : low < high)
      (hRound : narrow extents address low high = .error c) :
      SearchEnds extents address low high 1 (.error c)
  | next {low high low' high' rounds : Nat} {result : Except Crash Nat} (hOpen : low < high)
      (hRound : narrow extents address low high = .ok (low', high'))
      (hRest : SearchEnds extents address low' high' rounds result) :
      SearchEnds extents address low high (rounds + 1) result

section Loop

variable {extents : Array Extent} {address low high : Nat}

theorem reaches_iff {index : Nat} :
    reaches extents index address = true ↔ ∃ e, extents[index]? = some e ∧ e.base ≤ address := by
  unfold reaches
  cases extents[index]? with
  | none => simp
  | some e => simp

theorem reaches_of_size_le {index : Nat} (h : extents.size ≤ index) :
    reaches extents index address = false := by
  rw [reaches, Array.getElem?_eq_none h]

/-- **A round reads inside the directory or not at all**: it never crashes, and the page in the
middle tells which half is left. -/
theorem narrow_eq :
    narrow extents address low high =
      .ok (if reaches extents ((low + high) / 2 + 1) address then ((low + high) / 2 + 1, high)
        else (low, (low + high) / 2)) := by
  unfold narrow
  dsimp only
  rw [Nat.add_sub_cancel]
  by_cases hInside : (low + high) / 2 + 1 < extents.size
  · rw [if_pos hInside, baseAt, reaches, Array.getElem?_eq_getElem hInside]
    simp only [decide_eq_true_eq]
  · rw [if_neg hInside, reaches_of_size_le (Nat.le_of_not_lt hInside), if_neg Bool.false_ne_true]

/-- A search has one end. -/
theorem SearchEnds.unique {m n : Nat} {r s : Except Crash Nat}
    (hr : SearchEnds extents address low high m r) (hs : SearchEnds extents address low high n s) :
    r = s := by
  induction hr generalizing n with
  | done hClosed =>
    cases hs with
    | done => rfl
    | crash hOpen => exact absurd hOpen (Nat.not_lt.mpr hClosed)
    | next hOpen => exact absurd hOpen (Nat.not_lt.mpr hClosed)
  | crash hOpen hRound =>
    rw [narrow_eq] at hRound
    cases hRound
  | next hOpen hRound _ ih =>
    cases hs with
    | done hClosed => exact absurd hOpen (Nat.not_lt.mpr hClosed)
    | crash _ hCrash =>
      rw [hRound] at hCrash
      cases hCrash
    | next _ hRound' hRest =>
      rw [hRound] at hRound'
      cases hRound'
      exact ih hRest

/-- **The search ends**, within any number of rounds that suffices to halve the range away. -/
theorem searchEnds_locateWithin {rounds : Nat} (h : high - low < Nat.pow 2 rounds) :
    ∃ n ≤ rounds, SearchEnds extents address low high n
      (.ok (locateWithin extents address rounds low high)) := by
  induction rounds generalizing low high with
  | zero => exact ⟨0, Nat.le_refl 0, .done (Nat.le_of_sub_eq_zero (Nat.lt_one_iff.mp h))⟩
  | succ rounds ih =>
    rw [locateWithin]
    by_cases hOpen : low < high
    · rw [if_pos hOpen]
      dsimp only
      rw [Nat.add_sub_cancel]
      -- Either half is at most half as long as the range.
      have hPow : Nat.pow 2 (rounds + 1) = Nat.pow 2 rounds * 2 := rfl
      cases hMiddle : reaches extents ((low + high) / 2 + 1) address with
      | true =>
        obtain ⟨n, hn, hRest⟩ := @ih ((low + high) / 2 + 1) high (by omega)
        exact ⟨n + 1, Nat.succ_le_succ hn, .next hOpen (by rw [narrow_eq, hMiddle]; rfl) hRest⟩
      | false =>
        obtain ⟨n, hn, hRest⟩ := @ih low ((low + high) / 2) (by omega)
        exact ⟨n + 1, Nat.succ_le_succ hn, .next hOpen (by rw [narrow_eq, hMiddle]; rfl) hRest⟩
    · rw [if_neg hOpen]
      exact ⟨0, Nat.zero_le _, .done (Nat.le_of_not_lt hOpen)⟩

/-- A search that has enough rounds ends where every other one with enough rounds ends. -/
theorem locateWithin_rounds {n k : Nat} (hn : high - low < Nat.pow 2 n)
    (hk : high - low < Nat.pow 2 k) :
    locateWithin extents address n low high = locateWithin extents address k low high := by
  obtain ⟨_, _, hEnds⟩ := @searchEnds_locateWithin extents address low high n hn
  obtain ⟨_, _, hEnds'⟩ := @searchEnds_locateWithin extents address low high k hk
  exact Except.ok.inj (hEnds.unique hEnds')

/-! ### Where it ends -/

theorem locateWithin_spec {rounds : Nat} (hBound : low ≤ high) (hRounds : high ≤ low + rounds)
    (hLow : low = 0 ∨ reaches extents low address = true)
    (hHigh : reaches extents (high + 1) address = false) :
    (locateWithin extents address rounds low high = 0 ∨
      reaches extents (locateWithin extents address rounds low high) address = true) ∧
    reaches extents (locateWithin extents address rounds low high + 1) address = false := by
  -- What is kept is that the page at `low` lies at or below the address and the one after `high`
  -- does not; nothing is said about the pages between, which need not be in order.
  induction rounds generalizing low high with
  | zero =>
    obtain rfl : low = high := by omega
    exact ⟨hLow, hHigh⟩
  | succ rounds ih =>
    rw [locateWithin]
    by_cases hOpen : low < high
    · rw [if_pos hOpen]
      dsimp only
      cases hMiddle : reaches extents ((low + high) / 2 + 1) address with
      | true =>
        rw [if_pos rfl]
        exact ih (by omega) (by omega) (Or.inr hMiddle) hHigh
      | false =>
        rw [if_neg (by simp)]
        refine ih (by omega) (by omega) hLow ?_
        rw [Nat.add_sub_cancel]
        exact hMiddle
    · obtain rfl : low = high := by omega
      rw [if_neg hOpen]
      exact ⟨hLow, hHigh⟩

end Loop

/-- **Where the search ends**, in a directory of any order: at a page at or below the address, or at
the first page, and in front of a page above the address, or at the end. -/
theorem locate_spec (extents : Array Extent) (address : Nat) :
    (locate extents address = 0 ∨ reaches extents (locate extents address) address = true) ∧
      reaches extents (locate extents address + 1) address = false :=
  locateWithin_spec (Nat.zero_le _) (by omega) (Or.inl rfl) (reaches_of_size_le (by omega))

theorem locate_lt {extents : Array Extent} (h : 0 < extents.size) (address : Nat) :
    locate extents address < extents.size := by
  rcases (locate_spec extents address).1 with hZero | hReach
  · omega
  · obtain ⟨e, hGet, _⟩ := reaches_iff.mp hReach
    exact (Array.getElem?_eq_some_iff.mp hGet).1

theorem locate_le (extents : Array Extent) (a : Nat) : locate extents a ≤ extents.size := by
  by_cases hNone : extents.size = 0
  · rw [locate, hNone]
    exact Nat.le_refl 0
  · exact Nat.le_of_lt (locate_lt (Nat.pos_of_ne_zero hNone) a)

/-- **The search ends at `locate`**, after no more rounds than it takes to halve the directory. -/
theorem searchEnds_locate (extents : Array Extent) (address : Nat) :
    ∃ rounds ≤ extents.size.log2 + 1,
      SearchEnds extents address 0 extents.size rounds (.ok (locate extents address)) := by
  obtain ⟨n, hn, hEnds⟩ :=
    @searchEnds_locateWithin extents address 0 extents.size (extents.size.log2 + 1) Nat.lt_log2_self
  have hSame : locate extents address =
      locateWithin extents address (extents.size.log2 + 1) 0 extents.size :=
    locateWithin_rounds Nat.lt_two_pow_self Nat.lt_log2_self
  exact ⟨n, hn, hSame ▸ hEnds⟩

/-! ### Directories in order -/

/-- No page of the directory starts below a page in front of it. -/
def Ascending (extents : Array Extent) : Prop := extents.toList.Pairwise fun e f => e.base ≤ f.base

instance instDecidableAscending (extents : Array Extent) : Decidable (Ascending extents) :=
  inferInstanceAs (Decidable (List.Pairwise _ _))

/-- Every page of the directory starts at or after the end of all pages in front of it. -/
def InOrder (extents : Array Extent) : Prop := extents.toList.Pairwise fun e f => e.stop ≤ f.base

instance instDecidableInOrder (extents : Array Extent) : Decidable (InOrder extents) :=
  inferInstanceAs (Decidable (List.Pairwise _ _))

/-- The page at `index` lies at or below the address, and no page behind it does. -/
structure LastBelow (extents : Array Extent) (address index : Nat) : Prop where
  below : ∃ e, extents[index]? = some e ∧ e.base ≤ address
  last : ∀ (i : Nat) (e : Extent), extents[i]? = some e → e.base ≤ address → i ≤ index

section Order

variable {extents : Array Extent} {a : Nat}

theorem Ascending.reaches (h : Ascending extents) {i j : Nat} (hij : i ≤ j)
    (hReach : reaches extents j a = true) : Memory.reaches extents i a = true := by
  obtain ⟨f, hGet, hBase⟩ := reaches_iff.mp hReach
  obtain ⟨hj, hf⟩ := Array.getElem?_eq_some_iff.mp hGet
  refine reaches_iff.mpr ⟨extents[i], Array.getElem?_eq_getElem (by omega), ?_⟩
  rcases Nat.eq_or_lt_of_le hij with rfl | hlt
  · rw [hf]
    exact hBase
  · have hLe := List.pairwise_iff_getElem.mp h i j (by simp; omega) (by simpa using hj) hlt
    simp only [Array.getElem_toList, hf] at hLe
    omega

/-- **Where the search ends if the bases ascend**: at the last page at or below the address, or at
the first position if there is none. -/
theorem Ascending.lastBelow_or (h : Ascending extents) (a : Nat) :
    LastBelow extents a (locate extents a) ∨
      (∀ e ∈ extents, a < e.base) ∧ locate extents a = 0 := by
  obtain ⟨hHere, hNext⟩ := locate_spec extents a
  have hLast : ∀ (i : Nat) (e : Extent), extents[i]? = some e → e.base ≤ a →
      i ≤ locate extents a := by
    intro i e hGet hBase
    apply Nat.le_of_not_lt
    intro hBehind
    rw [h.reaches hBehind (reaches_iff.mpr ⟨e, hGet, hBase⟩)] at hNext
    cases hNext
  cases hReach : Memory.reaches extents (locate extents a) a with
  | true => exact .inl ⟨reaches_iff.mp hReach, hLast⟩
  | false =>
    have hZero : locate extents a = 0 := hHere.resolve_right (by simp [hReach])
    refine .inr ⟨fun e he => ?_, hZero⟩
    apply Nat.lt_of_not_le
    intro hBase
    -- A page at or below the address would have the first page at or below it too.
    obtain ⟨i, hGet⟩ := Array.getElem?_of_mem he
    rw [h.reaches (show locate extents a ≤ i by omega) (reaches_iff.mpr ⟨e, hGet, hBase⟩)] at hReach
    cases hReach

/-- If the bases ascend the search ends at the only place where it can. -/
theorem Ascending.locate_eq (h : Ascending extents) {i : Nat}
    (hHere : i = 0 ∨ Memory.reaches extents i a = true)
    (hNext : Memory.reaches extents (i + 1) a = false) : locate extents a = i := by
  obtain ⟨hFound, hBehind⟩ := locate_spec extents a
  rcases Nat.lt_trichotomy (locate extents a) i with hlt | heq | hgt
  · rcases hHere with hZero | hReach
    · omega
    · rw [h.reaches (show locate extents a + 1 ≤ i by omega) hReach] at hBehind
      cases hBehind
  · exact heq
  · rcases hFound with hZero | hReach
    · omega
    · rw [h.reaches (show i + 1 ≤ locate extents a by omega) hReach] at hNext
      cases hNext

theorem InOrder.ascending (h : InOrder extents) : Ascending extents :=
  List.Pairwise.imp (fun {e _} hStop => Nat.le_trans (Nat.le_add_right e.base e.size) hStop) h

/-- **On pages that do not overlap the search finds the only page that can have the address.** -/
theorem InOrder.locate_eq_of_holds (h : InOrder extents) {j : Nat} {e : Extent}
    (hGet : extents[j]? = some e) (hBase : e.base ≤ a) (hStop : a < e.stop) :
    locate extents a = j := by
  refine h.ascending.locate_eq (.inr (reaches_iff.mpr ⟨e, hGet, hBase⟩)) ?_
  apply eq_false_of_ne_true
  intro hReach
  obtain ⟨f, hNext, hBase'⟩ := reaches_iff.mp hReach
  obtain ⟨hj, rfl⟩ := Array.getElem?_eq_some_iff.mp hGet
  obtain ⟨hj', rfl⟩ := Array.getElem?_eq_some_iff.mp hNext
  have hApart := List.pairwise_iff_getElem.mp h j (j + 1) (by simpa using hj) (by simpa using hj')
    (Nat.lt_succ_self j)
  simp only [Array.getElem_toList] at hApart
  omega

end Order

/-- **The search finds the last page at or below the address.**  In a directory whose bases ascend,
empty or not, the search for any address ends, within the rounds that it takes to halve the
directory away and without a read behind it.  It ends at the last page at or below the address, and
at the first position if there is none.  If the pages do not overlap, no other page than this one
can have the address. -/
theorem locate_finds_last_below {extents : Array Extent} (hAscending : Ascending extents)
    (address : Nat) :
    (∃ rounds ≤ extents.size.log2 + 1,
        SearchEnds extents address 0 extents.size rounds (.ok (locate extents address))) ∧
      (∀ rounds result, SearchEnds extents address 0 extents.size rounds result →
        result = .ok (locate extents address)) ∧
      (LastBelow extents address (locate extents address) ∨
        (∀ e ∈ extents, address < e.base) ∧ locate extents address = 0) ∧
      (extents ≠ #[] → locate extents address < extents.size) ∧
      (InOrder extents → ∀ (j : Nat) (e : Extent), extents[j]? = some e →
        e.base ≤ address → address < e.stop → j = locate extents address) := by
  have hEnds := searchEnds_locate extents address
  refine ⟨hEnds, ?_, hAscending.lastBelow_or address, fun hSome => ?_, ?_⟩
  · intro rounds result hResult
    obtain ⟨_, _, hFound⟩ := hEnds
    exact hResult.unique hFound
  · exact locate_lt (Array.size_pos_iff.mpr hSome) address
  · intro hOrder j e hGet hBase hStop
    exact (hOrder.locate_eq_of_holds hGet hBase hStop).symm

/-- Five pages with holes between them, and an address in the fourth. -/
theorem locate_finds_last_below_fourth :
    let extents : Array Extent := #[⟨0, 4⟩, ⟨4, 4⟩, ⟨12, 2⟩, ⟨20, 8⟩, ⟨40, 4⟩]
    Ascending extents ∧ InOrder extents ∧ extents[3]? = some ⟨20, 8⟩ ∧
      (∃ rounds ≤ 3, SearchEnds extents 27 0 extents.size rounds (.ok 3)) ∧
      LastBelow extents 27 3 := by
  intro extents
  have hAscending : Ascending extents := by decide
  have hOrder : InOrder extents := by decide
  have hRounds : extents.size.log2 + 1 = 3 := by decide
  obtain ⟨hEnds, -, hLast, -, hOnly⟩ := locate_finds_last_below hAscending 27
  have hFound : 3 = locate extents 27 := hOnly hOrder 3 ⟨20, 8⟩ rfl (by decide) (by decide)
  rw [← hFound] at hEnds hLast
  rw [hRounds] at hEnds
  exact ⟨hAscending, hOrder, rfl, hEnds, hLast.resolve_right fun h => nomatch h.2⟩

end HullRobot.Memory
