import HullRobot.Proofs.Memory.Contents
import HullRobot.Proofs.Results

/-!
# Memory is a map

A memory with one page size is a map from addresses to cells: `FlatMemory` is that map, and `Op` is
what can be done to a memory.  `Represents m f` says that the pages of `m` show the map `f`.

* `Represents.load_eq`: loads agree.
* `Represents.store`: **a store keeps the pages and the map together**, unless a page cannot be
  made.
* `run_represents`: so they stay together through every history of operations.
* `history_is_map`: after a history a load gives what was stored last.
-/

namespace HullRobot.Memory

/-! ### Histories -/

inductive Op where
  | store (address : Int64) (values : List Int64)
  | reset
  | limit (limit : Int64)
  | pageSize (size : Int64)
  deriving DecidableEq

def perform (m : Memory) : Op → EStateM.Result Error Memory Unit
  | .store address values => m.store address values
  | .reset => .ok () m.reset
  | .limit limit => .ok () { m with limit }
  | .pageSize size => .ok () { m with pageSize := size }

/-- The operation did not fail for want of a page. -/
def madePages : EStateM.Result Error Memory Unit → Bool
  | .error (.crash .allocation) _ => false
  | _ => true

def run (m : Memory) (ops : List Op) : Memory := ops.foldl (fun m op => leaves (m.perform op)) m

/-- No operation fails for want of a page. -/
def Allocates (m : Memory) : List Op → Prop
  | [] => True
  | op :: rest => madePages (m.perform op) = true ∧ Allocates (leaves (m.perform op)) rest

instance : ∀ (m : Memory) (ops : List Op), Decidable (Allocates m ops)
  | _, [] => inferInstanceAs (Decidable True)
  | m, op :: rest =>
    have : Decidable (Allocates (leaves (m.perform op)) rest) := instDecidableAllocates _ rest
    inferInstanceAs (Decidable (_ ∧ _))

@[simp] theorem run_nil (m : Memory) : m.run [] = m := rfl

@[simp] theorem run_cons (m : Memory) (op : Op) (rest : List Op) :
    m.run (op :: rest) = (leaves (m.perform op)).run rest := rfl

theorem run_append (m : Memory) (ops rest : List Op) : m.run (ops ++ rest) = (m.run ops).run rest :=
  List.foldl_append

theorem allocates_append {m : Memory} {ops rest : List Op} :
    Allocates m (ops ++ rest) ↔ Allocates m ops ∧ Allocates (m.run ops) rest := by
  induction ops generalizing m with
  | nil => simp [Allocates]
  | cons op ops ih => rw [List.cons_append, Allocates, Allocates, ih, run_cons, and_assoc]

/-! ### The map -/

/-- A memory without pages: a cell for every address, and the first address that may not be touched
(0 for no limit). -/
structure FlatMemory where
  limit : Int64
  cells : Int64 → Int64 := fun _ => 0

namespace FlatMemory

/-- Why the cell at an address may not be touched, if it may not. -/
def refusal? (f : FlatMemory) (access : Access) (a : Int64) : Option Fault :=
  if a < 0 ∨ a = Int64.maxValue then some (.invalidAddress access a)
  else if f.limit ≠ 0 ∧ f.limit < a + 1 then some (.overLimit access (a + 1))
  else none

def load (f : FlatMemory) (a : Int64) : Except Fault Int64 :=
  match f.refusal? .load a with
  | some fault => .error fault
  | none => .ok (f.cells a)

/-- The map with values in place of the cells from `address` on. -/
def put (f : FlatMemory) (address : Int64) (values : List Int64) : FlatMemory :=
  { f with
    cells := fun a =>
      if address ≤ a then (values[(a.toInt - address.toInt).toNat]?).getD (f.cells a)
      else f.cells a }

/-- Carries out an operation; a store out of range is passed over. -/
def perform (f : FlatMemory) : Op → FlatMemory
  | .store address values =>
    if Accepts f.limit address values.length then f.put address values else f
  | .reset => { f with cells := fun _ => 0 }
  | .limit limit => { f with limit }
  | .pageSize _ => f

def run (f : FlatMemory) (ops : List Op) : FlatMemory := ops.foldl perform f

theorem put_cells {f : FlatMemory} {address a : Int64} (hAddress : 0 ≤ address.toInt)
    (ha : 0 ≤ a.toInt) {values : List Int64} {g : Nat → Int64}
    (h : f.cells a = g a.toNatClampNeg) :
    (f.put address values).cells a = overlay address.toNatClampNeg values g a.toNatClampNeg := by
  have hNat := toNat_eq_toInt hAddress
  have hNat' := toNat_eq_toInt ha
  simp only [put, Int64.le_iff_toInt_le, h]
  by_cases hLe : address.toInt ≤ a.toInt
  · rw [if_pos hLe, overlay_of_le (by omega),
      show (a.toInt - address.toInt).toNat = a.toNatClampNeg - address.toNatClampNeg by omega]
  · rw [if_neg hLe, overlay_of_lt (by omega)]

end FlatMemory

theorem maxValue_iff {a : Int64} : a = Int64.maxValue ↔ a.toInt = addressStop := by
  rw [← Int64.toInt_inj]
  rfl

theorem ofNat_succ {a : Int64} (ha : 0 ≤ a.toInt) : Int64.ofNat (a.toNatClampNeg + 1) = a + 1 := by
  rw [Int64.ofNat_add, Int64.ofNat_toNatClampNeg a (Int64.le_iff_toInt_le.mpr ha)]
  rfl

theorem checkRange_one (f : FlatMemory) (access : Access) (a : Int64) :
    checkRange f.limit access a 1 =
      match f.refusal? access a with
      | some fault => .error fault
      | none => .ok () := by
  unfold checkRange FlatMemory.refusal?
  by_cases hNeg : a < 0
  · simp only [hNeg, true_or, if_true]
  · have hInt : 0 ≤ a.toInt := by rw [neg_iff_toInt] at hNeg; omega
    have hNat := toNat_eq_toInt hInt
    have hBelow := a.toInt_lt
    have hTop : addressStop < a.toNatClampNeg + 1 ↔ a = Int64.maxValue := by
      rw [maxValue_iff]
      simp only [addressStop] at *
      omega
    simp only [hNeg, hTop, false_or, ofNat_succ hInt]
    by_cases hMax : a = Int64.maxValue
    · simp only [hMax, if_true]
    · simp only [hMax, if_false]
      split <;> rfl

/-! ### Pages that show a map -/

/-- The pages of `m`, all of them of `size` cells, show the map `f`. -/
structure Represents (size : Nat) (m : Memory) (f : FlatMemory) (pages : List Page) : Prop where
  size_eq : pageCells m.pageSize = size
  eq_build : m = build m.pageSize m.limit pages
  laid : Laid pages
  ordered : Ordered pages
  canonical : AllCanonical size pages
  limit_eq : m.limit = f.limit
  cells_eq : ∀ a : Int64, 0 ≤ a.toInt → f.cells a = cellOf pages a.toNatClampNeg

theorem Represents.empty (pageSize limit : Int64) :
    Represents (pageCells pageSize) { pageSize, limit } { limit } [] :=
  ⟨rfl, rfl, by simp [Laid], .nil, by simp [AllCanonical], rfl, fun _ _ => rfl⟩

theorem pageCells_effectiveSize (pageSize : Int64) :
    pageCells (effectiveSize pageSize) = pageCells pageSize := by
  unfold pageCells effectiveSize
  by_cases h : pageSize ≤ 0
  · rw [if_pos h]
    decide
  · rw [if_neg h, if_neg h]

/-- Under one page size every store is clear of all holes. -/
theorem AllCanonical.clearOf {size : Nat} {pages : List Page} (h : AllCanonical size pages)
    (hLaid : Laid pages) (start bound : Nat) :
    (pages.map Page.extent).IsChain (ClearOf size start bound) := by
  rw [List.isChain_iff_forall_rel_of_append_cons_cons]
  intro e e' front rest hSplit
  have hMem : ∀ x ∈ [e, e'], ∃ p ∈ pages, p.extent = x := fun x hx => by
    rw [← List.mem_map, hSplit]
    rcases List.mem_pair.mp hx with rfl | rfl <;> simp
  obtain ⟨p, hp, rfl⟩ := hMem e (by simp)
  obtain ⟨q, hq, rfl⟩ := hMem e' (by simp)
  have hBounds := hLaid q hq
  exact (h p hp).clearOf (show q.base ≤ addressStop by omega) start bound

theorem store_fault {m : Memory} {address : Int64} {values : List Int64} (hSome : values ≠ [])
    (h : ¬Accepts m.limit address values.length) :
    ∃ fault, m.store address values = .error (.fault fault) m := by
  cases hCheck : checkRange m.limit .store address values.length with
  | ok u => exact absurd (checkRange_ok_iff.mp hCheck) h
  | error fault => exact ⟨fault, store_refused hSome hCheck⟩

theorem FlatMemory.put_nil (f : FlatMemory) (address : Int64) : f.put address [] = f := by
  simp [FlatMemory.put]

section Represents

variable {size : Nat} {m : Memory} {f : FlatMemory} {pages : List Page}

theorem Represents.load_eq (h : Represents size m f pages) (a : Int64) :
    m.load a = (f.load a).mapError .fault := by
  rw [h.eq_build, load_build, h.limit_eq, checkRange_one, FlatMemory.load]
  cases hRefusal : f.refusal? .load a with
  | some fault => rfl
  | none =>
    have hAccepts : Accepts f.limit a 1 := by
      rw [← @checkRange_ok_iff f.limit a .load, checkRange_one, hRefusal]
    simp only
    rw [found_eq_cellOf h.ordered, h.cells_eq a hAccepts.1]
    rfl

/-- **A store keeps the pages and the map together**, unless a page cannot be made. -/
theorem Represents.store (h : Represents size m f pages) {address : Int64} {values : List Int64}
    (hSome : values ≠ []) (hAccepts : Accepts f.limit address values.length) :
    (∃ m' pages', m.store address values = .ok () m' ∧
      Represents size m' (f.put address values) pages') ∨
    largestBlock < size ∧ ∃ m', m.store address values = .error (.crash .allocation) m' := by
  rw [← h.limit_eq] at hAccepts
  have hNat := toNat_eq_toInt hAccepts.1
  have hTop := hAccepts.2.1
  have hPos : 0 < size := h.size_eq ▸ pageCells_pos m.pageSize
  have hWalk := @walk_or_crash m.pageSize m.limit address pages values hSome hAccepts
  rw [← h.eq_build, h.size_eq] at hWalk
  rcases hWalk with ⟨result, hWalk⟩ | hCrash
  · have hStore := Walk.store_eq hSome hAccepts (h.size_eq ▸ hWalk)
    rw [← h.eq_build] at hStore
    refine Or.inl ⟨_, _, hStore, ⟨?_, rfl, hWalk.laid h.laid, ?_, ?_, h.limit_eq, ?_⟩⟩
    · rw [build, pageCells_effectiveSize, h.size_eq]
    · exact hWalk.ordered hPos h.laid h.ordered (h.canonical.clearOf h.laid _ _)
    · exact hWalk.canonical hPos (by omega) h.canonical
    · intro a ha
      rw [hWalk.cellOf_eq h.laid h.ordered]
      exact FlatMemory.put_cells hAccepts.1 ha (h.cells_eq a ha)
  · exact Or.inr hCrash

theorem Represents.store_one (h : Represents size m f pages) (address v : Int64) :
    (∃ fault, f.refusal? .store address = some fault ∧
      m.store address [v] = .error (.fault fault) m) ∨
    (f.refusal? .store address = none ∧ ∃ m' pages', m.store address [v] = .ok () m' ∧
      Represents size m' (f.put address [v]) pages') ∨
    largestBlock < size ∧ ∃ m', m.store address [v] = .error (.crash .allocation) m' := by
  have hCheck := checkRange_one f .store address
  rw [← h.limit_eq] at hCheck
  cases hRefusal : f.refusal? .store address with
  | some fault =>
    rw [hRefusal] at hCheck
    exact Or.inl ⟨fault, rfl, store_refused (List.cons_ne_nil v []) hCheck⟩
  | none =>
    rw [hRefusal, h.limit_eq] at hCheck
    rcases h.store (List.cons_ne_nil v []) (checkRange_ok_iff.mp hCheck) with hStored | hCrash
    · exact Or.inr (Or.inl ⟨rfl, hStored⟩)
    · exact Or.inr (Or.inr hCrash)

/-! ### Whole histories -/

/-- What every operation but a change of the page size does to the pages and the map. -/
theorem Represents.perform (h : Represents size m f pages) {op : Op}
    (hFixed : ∀ n, op ≠ .pageSize n) :
    (madePages (m.perform op) = true ∧
      ∃ pages', Represents size (leaves (m.perform op)) (f.perform op) pages') ∨
    largestBlock < size ∧ madePages (m.perform op) = false := by
  cases op with
  | store address values =>
    simp only [Memory.perform, FlatMemory.perform]
    by_cases hSome : values = []
    · subst hSome
      rw [store_nil, FlatMemory.put_nil, ite_self]
      exact Or.inl ⟨rfl, pages, h⟩
    by_cases hAccepts : Accepts f.limit address values.length
    · rw [if_pos hAccepts]
      rcases h.store hSome hAccepts with ⟨m', pages', hStore, hNew⟩ | ⟨hLarge, m', hCrash⟩
      · rw [hStore]
        exact Or.inl ⟨rfl, pages', hNew⟩
      · rw [hCrash]
        exact Or.inr ⟨hLarge, rfl⟩
    · rw [if_neg hAccepts]
      rw [← h.limit_eq] at hAccepts
      obtain ⟨fault, hStore⟩ := store_fault hSome hAccepts
      rw [hStore]
      exact Or.inl ⟨rfl, pages, h⟩
  | reset =>
    exact Or.inl ⟨rfl, [], h.size_eq, rfl, by simp [Laid], .nil, by simp [AllCanonical], h.limit_eq,
      fun _ _ => rfl⟩
  | limit limit =>
    refine Or.inl ⟨rfl, pages, h.size_eq, ?_, h.laid, h.ordered, h.canonical, rfl, h.cells_eq⟩
    simp only [Memory.perform, leaves]
    rw [h.eq_build]
    rfl
  | pageSize n => exact absurd rfl (hFixed n)

/-- **The pages and the map stay together through every history.** -/
theorem run_represents {ops : List Op} (h : Represents size m f pages)
    (hFixed : ∀ n, Op.pageSize n ∉ ops) (hMade : Allocates m ops) :
    ∃ pages', Represents size (m.run ops) (f.run ops) pages' := by
  induction ops generalizing m f pages with
  | nil => exact ⟨pages, h⟩
  | cons op rest ih =>
    have hOp : ∀ n, op ≠ .pageSize n := fun n hEq => hFixed n (by simp [hEq])
    rcases h.perform hOp with ⟨_, pages', hNext⟩ | ⟨_, hFailed⟩
    · exact ih hNext (fun n hMem => hFixed n (by simp [hMem])) hMade.2
    · rw [hMade.1] at hFailed
      cases hFailed

/-- Pages that are no larger than a block can always be made. -/
theorem Represents.allocates {ops : List Op} (h : Represents size m f pages)
    (hFixed : ∀ n, Op.pageSize n ∉ ops) (hSize : size ≤ largestBlock) : Allocates m ops := by
  induction ops generalizing m f pages with
  | nil => trivial
  | cons op rest ih =>
    have hOp : ∀ n, op ≠ .pageSize n := fun n hEq => hFixed n (by simp [hEq])
    rcases h.perform hOp with ⟨hMade, pages', hNext⟩ | ⟨hLarge, _⟩
    · exact ⟨hMade, ih hNext fun n hMem => hFixed n (by simp [hMem])⟩
    · omega

theorem Represents.store_ok_iff (h : Represents size m f pages) {address : Int64}
    {values : List Int64} (hSome : values ≠ [])
    (hMade : madePages (m.store address values) = true) :
    (∃ m', m.store address values = .ok () m') ↔ Accepts m.limit address values.length := by
  constructor
  · rintro ⟨m', hStore⟩
    by_contra hRefused
    obtain ⟨fault, hFault⟩ := store_fault hSome hRefused
    rw [hFault] at hStore
    cases hStore
  · intro hAccepts
    rw [h.limit_eq] at hAccepts
    rcases h.store hSome hAccepts with ⟨m', _, hStore, _⟩ | ⟨_, m', hCrash⟩
    · exact ⟨m', hStore⟩
    · rw [hCrash] at hMade
      cases hMade

theorem Represents.load_ok_iff (h : Represents size m f pages) {a v : Int64} :
    m.load a = .ok v ↔ Accepts m.limit a 1 ∧ v = f.cells a := by
  rw [h.load_eq, FlatMemory.load, h.limit_eq, ← @checkRange_ok_iff f.limit a .load, checkRange_one]
  cases f.refusal? .load a <;> simp [Except.mapError, eq_comm]

end Represents

/-- **Paged memory is a map.**  After any history under one page size, a store of values succeeds
exactly when its cells may be touched and otherwise changes nothing; a load succeeds exactly when
its cell may be touched, and gives what was stored there last. -/
theorem history_is_map (pageSize limit : Int64) (ops : List Op)
    (hFixed : ∀ n, Op.pageSize n ∉ ops) (hMade : Allocates { pageSize, limit } ops) :
    let m := run { pageSize, limit } ops
    let f := FlatMemory.run { limit } ops
    (∀ address values, values ≠ [] → madePages (m.store address values) = true →
      ((∃ m', m.store address values = .ok () m') ↔ Accepts m.limit address values.length) ∧
      ∀ e m', m.store address values = .error e m' → m' = m) ∧
    ∀ a v, m.load a = .ok v ↔ Accepts m.limit a 1 ∧ v = f.cells a := by
  intro m f
  obtain ⟨pages, h⟩ := run_represents (Represents.empty pageSize limit) hFixed hMade
  refine ⟨fun address values hSome hStored => ?_, fun a v => h.load_ok_iff⟩
  have hIff := h.store_ok_iff hSome hStored
  refine ⟨hIff, fun e m' hError => ?_⟩
  by_cases hAccepts : Accepts m.limit address values.length
  · obtain ⟨m'', hOk⟩ := hIff.mpr hAccepts
    rw [hError] at hOk
    cases hOk
  · obtain ⟨fault, hFault⟩ := store_fault hSome hAccepts
    rw [hError] at hFault
    cases hFault
    rfl

/-- A store over a page, the hole behind it and new pages, after one past the limit. -/
theorem history_is_map_gap :
    let ops : List Op := [.store 9 [1, 2, 3, 4, 5, 6], .limit 12, .store 11 [8, 8], .store 3 [7, 7],
      .limit 0]
    Allocates { pageSize := 4 } ops ∧
      ∀ v, (run { pageSize := 4 } ops).load 11 = .ok v ↔ Accepts 0 11 1 ∧ v = 3 := by
  intro ops
  have hFixed : ∀ n, Op.pageSize n ∉ ops := by simp [ops]
  have hMade : Allocates { pageSize := 4 } ops :=
    (Represents.empty 4 0).allocates hFixed (by decide)
  exact ⟨hMade, (history_is_map 4 0 ops hFixed hMade).2 11⟩

end HullRobot.Memory
