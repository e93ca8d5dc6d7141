import HullRobot.Proofs.Command.Replay
import HullRobot.Proofs.Machine.Record

/-!
# When a command crashes

A crash within a run becomes an error of the run.  Outside of runs a command stores its image and
dumps the memory at the end.  The dump never crashes, since the pages stay in order through every
run of a command, and the image can only crash for want of its first page.

* `store_blank`: the first page of an empty memory cannot be made if it is larger than a block.
* `setUpAll_setups`: what becomes of a command's machine is what becomes of its image.
* `mapped_after`: **the memory of a command is in order after its run.**
* `command_crashes_iff`: **when a command crashes.**
* `page_size_crashes`: settings that are accepted may make a command crash.
-/

namespace HullRobot

/-! ### Memory -/

namespace Memory

variable {size : Nat} {m : Memory}

theorem mapped_blank (pageSize limit : Int64) :
    Mapped (pageCells pageSize) { pageSize, limit } := ⟨_, _, .empty pageSize limit⟩

/-- A page is larger than a block if a page size is given that is. -/
theorem largestBlock_lt_pageCells {pageSize : Int64} :
    largestBlock < pageCells pageSize ↔ (largestBlock : Int) < pageSize.toInt := by
  unfold pageCells effectiveSize
  by_cases h : pageSize ≤ 0
  · have hInt : pageSize.toInt ≤ 0 := Int64.le_iff_toInt_le.mp h
    rw [if_pos h]
    exact iff_of_false (by decide) (by omega)
  · have hInt : 0 < pageSize.toInt := Int.not_le.mp fun h' => h (Int64.le_iff_toInt_le.mpr h')
    rw [if_neg h, ← toNat_eq_toInt (Int.le_of_lt hInt)]
    omega

/-- The directory of a memory in order has a block for its last page. -/
theorem Mapped.size_ok (h : m.Mapped size) : ∃ n, m.size = .ok n := by
  obtain ⟨f, pages, h⟩ := h
  rw [h.eq_build]
  induction pages using List.reverseRecOn with
  | nil => exact ⟨0, rfl⟩
  | append_singleton front p _ =>
    refine ⟨p.base + p.cells.size, ?_⟩
    simp [Memory.size, build, Page.extent]

/-- The first page of an empty memory cannot be made if it is larger than a block. -/
theorem store_blank {pageSize limit : Int64} {values : List Int64} (hSome : values ≠ [])
    (hAccepts : Accepts limit 0 values.length) (hLarge : largestBlock < pageCells pageSize) :
    ∃ m', ({ pageSize, limit } : Memory).store 0 values = .error (.crash .allocation) m' := by
  have hStore := @store_eq_storeFrom pageSize limit 0 [] values hSome hAccepts
  obtain ⟨v, vs, rfl⟩ := List.exists_cons_of_ne_nil hSome
  have hAhead : ∀ base ∈ nextBase [], 0 < base := by
    intro base hNext
    cases hNext
  have hFits : Fits 0 none 0 (newExtent (pageCells pageSize) 0 none 0) :=
    newExtent_fits (pageCells_pos pageSize) (by decide) hAhead fun _ => Nat.le_refl 0
  have hFirst : largestBlock < (newExtent (pageCells pageSize) 0 none 0).size := by
    simp only [newExtent, tailExtent, clamp, Nat.zero_div, Nat.zero_mul, Nat.lt_irrefl, if_false]
    exact Nat.lt_min.mpr ⟨hLarge, by decide⟩
  have hRound := @storeFrom_fresh (effectiveSize pageSize) limit vs.length (pageCells pageSize) 0 []
    [] (v :: vs) _ hSome hAhead rfl hFits.base_le (by rw [Page.blank_stop]; exact hFits.lt_stop)
  rcases hRound with ⟨-, m', hCrash⟩ | ⟨hSmall, -⟩
  · rw [List.length_nil, Nat.zero_add, List.take_nil, List.drop_nil] at hStore
    exact ⟨m', hStore.trans hCrash⟩
  · have hCells : (Page.blank (newExtent (pageCells pageSize) 0 none 0)).cells.size =
        (newExtent (pageCells pageSize) 0 none 0).size := Array.size_replicate
    exact absurd hFirst (by rw [← hCells]; exact Nat.not_lt.mpr hSmall)

/-- What becomes of an image that is stored into an empty memory. -/
theorem store_image (pageSize limit : Int64) (cells : List Int64) :
    (∃ m', ({ pageSize, limit } : Memory).store 0 cells = .ok () m' ∧
      m'.Mapped (pageCells pageSize) ∧ (cells = [] → m' = { pageSize, limit }) ∧
      (cells ≠ [] → pageCells pageSize ≤ largestBlock)) ∨
    (∃ fault, ({ pageSize, limit } : Memory).store 0 cells =
      .error (.fault fault) { pageSize, limit } ∧ ¬Accepts limit 0 cells.length) ∨
    cells ≠ [] ∧ Accepts limit 0 cells.length ∧ largestBlock < pageCells pageSize ∧
      ∃ m', ({ pageSize, limit } : Memory).store 0 cells = .error (.crash .allocation) m' := by
  by_cases hSome : cells = []
  · subst hSome
    exact .inl ⟨_, rfl, mapped_blank pageSize limit, fun _ => rfl, fun h => absurd rfl h⟩
  by_cases hAccepts : Accepts limit 0 cells.length
  · by_cases hLarge : largestBlock < pageCells pageSize
    · exact .inr (.inr ⟨hSome, hAccepts, hLarge, store_blank hSome hAccepts hLarge⟩)
    · rcases (Represents.empty pageSize limit).store hSome hAccepts with
        ⟨m', pages, hStore, h⟩ | ⟨hLarge', -⟩
      · exact .inl ⟨m', hStore, ⟨_, pages, h⟩, fun h => absurd h hSome,
          fun _ => Nat.le_of_not_lt hLarge⟩
      · exact absurd hLarge' hLarge
  · obtain ⟨fault, hStore⟩ := store_fault (m := { pageSize, limit }) hSome hAccepts
    exact .inr (.inl ⟨fault, hStore, hAccepts⟩)

end Memory

/-! ### Runs -/

namespace Machine

variable {m : Machine} {size : Nat}

theorem step_mapped (h : m.memory.Mapped size) (hSmall : size ≤ Memory.largestBlock) :
    (leaves (step m)).memory.Mapped size := by
  obtain ⟨s, ⟨memory, pages, h', hStep⟩ | ⟨hLarge, -⟩⟩ := step_follows h
  · rw [hStep]
    split
    · exact ⟨_, pages, h'⟩
    · exact ⟨_, pages, h'⟩
  · exact absurd hLarge (Nat.not_lt.mpr hSmall)

/-- Steps leave the memory in order, if its pages can be made. -/
theorem stepTimes_mapped (h : m.memory.Mapped size) (hSmall : size ≤ Memory.largestBlock)
    (n : Nat) : (stepTimes n m).2.memory.Mapped size := by
  induction n generalizing m with
  | zero => exact h
  | succ n ih =>
    have hFirst := step_mapped h hSmall
    cases hStep : step m with
    | ok u m₁ =>
      rw [hStep] at hFirst
      rw [stepTimes_succ_ok hStep]
      exact ih hFirst
    | error stop m₁ =>
      rw [hStep] at hFirst
      rw [stepTimes_succ_error hStep]
      exact hFirst

/-- A machine without an instruction stops with its memory as it is. -/
theorem stepTimes_lost (h : m.instruction? = none) (n : Nat) :
    (stepTimes n m).2.memory = m.memory := by
  obtain ⟨course, hIns, -, hCourse⟩ := step_course m
  have hStep := (hCourse m.bench).1
  rw [onto_bench] at hStep
  rw [h] at hIns
  cases n with
  | zero => rfl
  | succ n =>
    cases course with
    | lost setback =>
      rw [stepTimes_succ_error (hStep.trans (halt_eq (some (setback.error m.ip)) m.atWork))]
      rfl
    | wrecked crash =>
      rw [stepTimes_succ_error hStep]
      rfl
    | works ins verdict => cases hIns

/-- There is no instruction in a memory without pages. -/
theorem instruction?_blank (hBlocks : m.memory.blocks = #[]) : m.instruction? = none := by
  unfold instruction? Memory.load
  rw [hBlocks]
  cases Memory.checkRange m.memory.limit .load m.ip 1 with
  | error f => rfl
  | ok u => rfl

theorem run_memory (hReady : m.refusal? = none) (patience : Patience) :
    (m.run patience).2.memory = (stepTimes patience.budget m).2.memory := by
  show (m.run patience).2.unindented.memory = _
  cases hSteps : stepTimes patience.budget m with
  | mk stop? last =>
    cases stop? with
    | none =>
      rw [(run_canceled hReady patience.reason hSteps).2]
      rfl
    | some stop =>
      rw [(run_stopped hReady patience.reason hSteps).2]
      rfl

/-- A dump of a memory in order does not crash. -/
theorem dumpLines_ok (h : m.memory.Mapped size) : ∃ lines, m.dumpLines {} = .ok lines := by
  obtain ⟨n, hSize⟩ := h.size_ok
  unfold dumpLines
  rw [hSize]
  exact ⟨_, rfl⟩

/-! ### Setups -/

/-- The setup is about the bench only. -/
def Setup.onBench : Setup → Bool
  | .attach _ | .input _ | .output _ | .tee _ | .journal => true
  | _ => false

theorem setUp_onBench {s : Setup} (h : s.onBench) : ∃ b, m.setUp s = .ok () (m.onto b) := by
  cases s with
  | attach device => exact ⟨_, rfl⟩
  | input input => exact ⟨_, rfl⟩
  | output output => exact ⟨_, rfl⟩
  | tee output => exact ⟨_, rfl⟩
  | journal => exact ⟨_, rfl⟩
  | _ => cases h

theorem setUpAll_onBench {setups : List Setup} (h : setups.all Setup.onBench) (rest : List Setup) :
    ∃ b, m.setUpAll (setups ++ rest) = (m.onto b).setUpAll rest := by
  induction setups generalizing m with
  | nil => exact ⟨m.bench, rfl⟩
  | cons s setups ih =>
    rw [List.all_cons, Bool.and_eq_true] at h
    obtain ⟨b, hFirst⟩ := setUp_onBench (m := m) h.1
    obtain ⟨b', hLater⟩ := ih (m := m.onto b) h.2
    refine ⟨b', ?_⟩
    rw [List.cons_append, setUpAll, hFirst]
    exact hLater

theorem setUpAll_settings (s : Settings) (b : Bench) (rest : List Setup) :
    (({} : Machine).onto b).setUpAll (s.setups ++ rest) =
      (({ memory := { pageSize := s.pageSize, limit := s.memoryLimit } } : Machine).onto b).setUpAll
        rest := by
  unfold Settings.setups
  by_cases hSize : s.pageSize = 0
  · by_cases hLimit : s.memoryLimit = 0
    · rw [if_pos hSize, if_pos hLimit, hSize, hLimit]
      rfl
    · rw [if_pos hSize, if_neg hLimit, hSize]
      rfl
  · by_cases hLimit : s.memoryLimit = 0
    · rw [if_neg hSize, if_pos hLimit, hLimit]
      rfl
    · rw [if_neg hSize, if_neg hLimit]
      rfl

end Machine

/-! ### Commands -/

namespace Command

open Memory (Accepts pageCells largestBlock)

variable {r : Request} {p : Plan} {m : Machine} {c : Crash}

/-- The memory of a command before its image is stored. -/
def Plan.blank (p : Plan) : Memory :=
  { pageSize := p.settings.pageSize, limit := p.settings.memoryLimit }

/-- The setups of a command before its settings. -/
def Plan.attached (p : Plan) (limit : Option Int) : List Machine.Setup :=
  [.attach (p.mainDevice limit)] ++
    ((if !p.settings.snapshot.isEmpty then [.attach (.tape #[])] else []) ++
      (if p.tracePath?.isSome then [.attach (.printer (.buffered { sink := {} }))] else []))

/-- The setups of a command after its image. -/
def Plan.wiring (p : Plan) : List Machine.Setup :=
  (if p.settings.trace then [.journal] else []) ++
    ([.input p.input, .output (.single (.socket Plan.mainSocket))] ++
      ((if !p.settings.snapshot.isEmpty then [.tee (.single (.socket Plan.tapeSocket))] else []) ++
        (if p.tracePath?.isSome then [.tee (.single (.socket p.traceSocket))] else [])))

theorem setups_eq (p : Plan) (limit : Option Int) :
    p.setups limit =
      p.attached limit ++ (p.settings.setups ++ .image p.cells :: p.wiring) := by
  simp only [Plan.setups, Plan.attached, Plan.wiring, List.append_assoc, List.cons_append,
    List.nil_append]

theorem attached_onBench (p : Plan) (limit : Option Int) :
    (p.attached limit).all Machine.Setup.onBench := by
  unfold Plan.attached
  cases p.settings.snapshot.isEmpty <;> cases p.tracePath?.isSome <;> rfl

theorem wiring_onBench (p : Plan) : p.wiring.all Machine.Setup.onBench := by
  unfold Plan.wiring
  cases p.settings.trace <;> cases p.settings.snapshot.isEmpty <;>
    cases p.tracePath?.isSome <;> rfl

/-- **What becomes of a command's machine is what becomes of its image.** -/
theorem setUpAll_setups (p : Plan) (limit : Option Int) :
    ∃ b, ({} : Machine).setUpAll (p.setups limit) = match p.blank.store 0 p.cells with
      | .ok () memory => .ok () (({ memory } : Machine).onto b)
      | .error (.fault fault) memory =>
        .ok () (({ memory, imageFault := some fault } : Machine).onto b)
      | .error (.crash crash) memory => .error crash (({ memory } : Machine).onto b) := by
  obtain ⟨b, hFirst⟩ := Machine.setUpAll_onBench (m := {}) (attached_onBench p limit)
    (p.settings.setups ++ .image p.cells :: p.wiring)
  have hLast (m : Machine) : ∃ b', m.setUpAll p.wiring = .ok () (m.onto b') := by
    have h := Machine.setUpAll_onBench (m := m) (wiring_onBench p) []
    rwa [List.append_nil] at h
  rw [setups_eq, hFirst, Machine.setUpAll_settings, Machine.setUpAll, Machine.setUp]
  rw [show Memory.reset _ = p.blank from rfl]
  cases p.blank.store 0 p.cells with
  | ok u memory => exact hLast (({ memory } : Machine).onto b)
  | error e memory =>
    cases e with
    | fault fault => exact hLast (({ memory, imageFault := some fault } : Machine).onto b)
    | crash crash => exact ⟨b, rfl⟩

/-- **The memory of a command is in order after its run.** -/
theorem mapped_after (h : prepare r = .ok (p, m)) (patience : Machine.Patience) :
    (m.run patience).2.memory.Mapped (pageCells p.settings.pageSize) := by
  obtain ⟨b, hSetUp⟩ := setUpAll_setups p r.stdoutLimit
  rw [prepare_setUpAll h] at hSetUp
  rcases Memory.store_image p.settings.pageSize p.settings.memoryLimit p.cells with
    ⟨memory, hStore, hMapped, hBlank, hSmall⟩ | ⟨fault, hStore, -⟩ | ⟨-, -, -, memory, hStore⟩
  · rw [Plan.blank, hStore] at hSetUp
    cases hSetUp
    rw [Machine.run_memory rfl]
    by_cases hSize : pageCells p.settings.pageSize ≤ largestBlock
    · exact Machine.stepTimes_mapped hMapped hSize _
    · -- Only an image without cells gets here, and then there is nothing to carry out.
      have hNone : p.cells = [] := by
        by_contra hSome
        exact hSize (hSmall hSome)
      obtain rfl := hBlank hNone
      rw [Machine.stepTimes_lost (Machine.instruction?_blank rfl)]
      exact hMapped
  · rw [Plan.blank, hStore] at hSetUp
    cases hSetUp
    rw [Machine.run_of_refusal rfl]
    exact Memory.mapped_blank _ _
  · rw [Plan.blank, hStore] at hSetUp
    cases hSetUp

theorem dumpLog_ok {size : Nat} (h : m.memory.Mapped size) (s : Settings) :
    ∃ lines, dumpLog s m = .ok lines := by
  unfold dumpLog
  split
  · obtain ⟨lines, hLines⟩ := Machine.dumpLines_ok h
    rw [hLines]
    exact ⟨_, rfl⟩
  · exact ⟨_, rfl⟩

theorem finish_not_crashed (limit : Option Int) (log : List String) (files : Files) :
    (finish p limit m log files).conclusion ≠ .crashed c := by
  intro h
  unfold finish at h
  simp only at h
  split at h
  · cases h
  · split at h
    · cases h
    · cases h

theorem conclude_not_crashed {size : Nat} (h : m.memory.Mapped size)
    (failure? : Option (Failure RunError)) :
    (conclude r p failure? m).conclusion ≠ .crashed c := by
  intro hCrash
  obtain ⟨lines, hDump⟩ := dumpLog_ok h p.settings
  unfold conclude at hCrash
  rw [hDump] at hCrash
  cases failure? with
  | some failure => cases hCrash
  | none => exact finish_not_crashed _ _ _ hCrash

/-- A command crashes if its machine cannot be set up, and not after that. -/
theorem run_crashed_iff : (run r).conclusion = .crashed c ↔
    ∃ flags p, Flags.parse r.args = .ok flags ∧ plan r flags = .ok p ∧
      ∃ m, ({} : Machine).setUpAll (p.setups r.stdoutLimit) = .error c m := by
  constructor
  · intro h
    cases hPrepare : prepare r with
    | ok start =>
      rw [run_prepared hPrepare] at h
      exact absurd h (conclude_not_crashed (mapped_after hPrepare _) _)
    | error outcome =>
      rw [run_unprepared hPrepare] at h
      unfold prepare at hPrepare
      split at hPrepare
      · cases hPrepare
        cases h
      · cases hPrepare
        cases h
      · next flags hFlags =>
        split at hPrepare
        · cases hPrepare
          cases h
        · next p hPlan =>
          split at hPrepare
          · next crash m hSetUp =>
            cases hPrepare
            cases h
            exact ⟨flags, p, hFlags, hPlan, m, hSetUp⟩
          · cases hPrepare
  · rintro ⟨flags, p, hFlags, hPlan, m, hSetUp⟩
    have hPrepare : prepare r =
        .error { conclusion := .crashed c, files := p.filesAfter r.files [] } := by
      simp only [prepare, hFlags, hPlan, hSetUp]
    rw [run_unprepared hPrepare]

/-- A machine cannot be set up if the first page of its image cannot be made. -/
theorem setUpAll_error_iff (limit : Option Int) :
    (∃ m, ({} : Machine).setUpAll (p.setups limit) = .error c m) ↔
    c = .allocation ∧ p.cells ≠ [] ∧ Accepts p.settings.memoryLimit 0 p.cells.length ∧
      largestBlock < pageCells p.settings.pageSize := by
  obtain ⟨b, hSetUp⟩ := setUpAll_setups p limit
  rw [hSetUp, Plan.blank]
  rcases Memory.store_image p.settings.pageSize p.settings.memoryLimit p.cells with
    ⟨memory, hStore, -, -, hSmall⟩ | ⟨fault, hStore, hRefused⟩ | ⟨hSome, hTaken, hLarge, m', hStore⟩
  · rw [hStore]
    constructor
    · rintro ⟨m, h⟩
      cases h
    · rintro ⟨-, hSome, -, hLarge⟩
      exact absurd hLarge (Nat.not_lt.mpr (hSmall hSome))
  · rw [hStore]
    constructor
    · rintro ⟨m, h⟩
      cases h
    · rintro ⟨-, -, hTaken, -⟩
      exact absurd hTaken hRefused
  · rw [hStore]
    constructor
    · rintro ⟨m, h⟩
      cases h
      exact ⟨rfl, hSome, hTaken, hLarge⟩
    · rintro ⟨rfl, -⟩
      exact ⟨_, rfl⟩

/-- **When a command crashes**: its settings are accepted and its image fits below the memory limit,
but one page of the size in the settings is larger than any block. -/
theorem command_crashes_iff (r : Request) (c : Crash) : (run r).conclusion = .crashed c ↔
    c = .allocation ∧ ∃ flags p, Flags.parse r.args = .ok flags ∧ plan r flags = .ok p ∧
      p.cells ≠ [] ∧ Accepts p.settings.memoryLimit 0 p.cells.length ∧
      (largestBlock : Int) < p.settings.pageSize.toInt := by
  rw [run_crashed_iff]
  constructor
  · rintro ⟨flags, p, hFlags, hPlan, hSetUp⟩
    obtain ⟨rfl, hSome, hTaken, hLarge⟩ := (setUpAll_error_iff _).mp hSetUp
    exact ⟨rfl, flags, p, hFlags, hPlan, hSome, hTaken, Memory.largestBlock_lt_pageCells.mp hLarge⟩
  · rintro ⟨rfl, flags, p, hFlags, hPlan, hSome, hTaken, hLarge⟩
    exact ⟨flags, p, hFlags, hPlan, (setUpAll_error_iff _).mpr
      ⟨rfl, hSome, hTaken, Memory.largestBlock_lt_pageCells.mpr hLarge⟩⟩

/-- Settings that are accepted may make a command crash. -/
theorem page_size_crashes :
    (run { args := ["-page-size", "4611686018427387904"],
           stdin := Decimal.asciiBytes ['9', '9'] }).conclusion = .crashed .allocation := by
  decide +kernel

end Command

end HullRobot
