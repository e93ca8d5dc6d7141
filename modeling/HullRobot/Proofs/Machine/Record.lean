import HullRobot.Proofs.Machine.Runs
import HullRobot.Proofs.Stream.Buffer

/-!
# The journal is a record

A machine that keeps a journal enters every instruction, every store and every value that it emits,
and at last how it halted.  So the journal tells what became of the machine.

* `Entry.replay`: what loads give when a store of the journal is applied.
* `Logged`: entries that record how one machine became another.  `Logged.trans`: records can be put
  together.
* `step_logged`: **a step enters a record of itself.**  `stepTimes_logged`, `run_logged`: so do all
  sequences of steps, and runs.
* `journal_is_faithful`: the journal of a machine with pages of one size is a faithful record.
* `journal_misses_page`: a page that cannot be made spoils the memory, and the journal does not
  tell.
-/

namespace HullRobot

/-! ### Memory with pages of one size -/

namespace Memory

variable {size : Nat} {m m' : Memory}

/-- The memory shows a map, and its pages are of one size. -/
def Mapped (size : Nat) (m : Memory) : Prop := ∃ f pages, m.Represents size f pages

theorem FlatMemory.load_put_one {f : FlatMemory} {a : Int64} (h : f.refusal? .store a = none)
    (v b : Int64) : (f.put a [v]).load b = if b = a then .ok v else f.load b := by
  have hRefusal : (f.put a [v]).refusal? .load b = f.refusal? .load b := rfl
  unfold FlatMemory.load
  rw [hRefusal]
  by_cases hSame : b = a
  · subst hSame
    have hLoad : f.refusal? .load b = none := by
      unfold FlatMemory.refusal? at h ⊢
      split at h
      · cases h
      · rename_i hValid
        rw [if_neg hValid]
        split at h
        · cases h
        · rename_i hWithin
          rw [if_neg hWithin]
    rw [if_pos rfl, hLoad]
    simp [FlatMemory.put]
  · rw [if_neg hSame]
    have hCells : (f.put a [v]).cells b = f.cells b := by
      simp only [FlatMemory.put]
      split
      · rename_i hLe
        have hNe : a.toInt ≠ b.toInt := fun hInt => hSame (Int64.toInt_inj.mp hInt).symm
        rw [Int64.le_iff_toInt_le] at hLe
        obtain ⟨k, hk⟩ : ∃ k, (b.toInt - a.toInt).toNat = k + 1 :=
          ⟨(b.toInt - a.toInt).toNat - 1, by omega⟩
        rw [hk]
        rfl
      · rfl
    rw [hCells]

/-- A store of one cell changes what a load of that cell gives, and no other. -/
theorem Mapped.store_one (h : m.Mapped size) (a v : Int64) :
    (∃ fault, m.store a [v] = .error (.fault fault) m) ∨
    (∃ m', m.store a [v] = .ok () m' ∧ m'.Mapped size ∧
      ∀ b, m'.load b = if b = a then .ok v else m.load b) ∨
    largestBlock < size ∧ ∃ m', m.store a [v] = .error (.crash .allocation) m' := by
  obtain ⟨f, pages, h⟩ := h
  rcases h.store_one a v with ⟨fault, -, hStore⟩ | ⟨hRefusal, m', pages', hStore, h'⟩ | hCrash
  · exact .inl ⟨fault, hStore⟩
  · refine .inr (.inl ⟨m', hStore, ⟨_, pages', h'⟩, fun b => ?_⟩)
    rw [h'.load_eq, h.load_eq, FlatMemory.load_put_one hRefusal]
    split <;> rfl
  · exact .inr (.inr hCrash)

end Memory

/-! ### Entries -/

namespace Entry

/-- The instruction that an entry tells of, and the relative base when it started. -/
def begun? : Entry → Option (Instruction × Int64)
  | .exec instruction base => some (instruction, base)
  | _ => none

/-- The value whose output an entry tells of. -/
def emitted? : Entry → Option Int64
  | .emitted v => some v
  | _ => none

/-- What loads give when the store that an entry tells of is applied. -/
def replay (load : Int64 → Except Memory.Error Int64) :
    Entry → Int64 → Except Memory.Error Int64
  | .stored v a => fun b => if b = a then .ok v else load b
  | _ => load

end Entry

namespace Journal

/-- The entry of the machine in a line. -/
def Line.entry? : Line → Option Entry
  | .machine _ entry => some entry
  | .robot _ => none

/-- The entries of the machine. -/
def entries (j : Journal) : List Entry := j.lines.toList.filterMap Line.entry?

theorem entries_enter {j : Journal} (h : j.kept = true) (entry : Entry) :
    (j.enter entry).entries = j.entries ++ [entry] := by
  simp [enter, h, entries, Line.entry?]

theorem kept_enter (j : Journal) (entry : Entry) : (j.enter entry).kept = j.kept := by
  unfold enter
  split <;> rfl

theorem entries_enterRobot (j : Journal) (event : Robot.Event) :
    (j.enterRobot event).entries = j.entries := by
  simp [enterRobot, entries, Line.entry?]

theorem entries_unindented (j : Journal) : j.unindented.entries = j.entries := by
  unfold entries unindented
  rw [Array.toList_map, List.filterMap_map]
  refine congrArg (List.filterMap · _) (funext fun line => ?_)
  cases line <;> rfl

end Journal

/-! ### Benches -/

namespace Bench

/-- The journals of two benches have the same entries of the machine. -/
def SameEntries (b b' : Bench) : Prop :=
  b'.journal.entries = b.journal.entries ∧ b'.journal.kept = b.journal.kept

theorem read_journal (b : Bench) : (leaves b.read).journal = b.journal := by
  unfold read
  cases b.input with
  | absent => rfl
  | constant v => rfl
  | queue values => cases values <;> rfl
  | camera socket =>
    simp only
    split <;> rfl

theorem offer_sameEntries (v : Int64) (o : Outlet) (b : Bench) :
    SameEntries b (leaves (offer v o b)) := by
  obtain ⟨input, output, devices, journal⟩ := b
  cases o with
  | drain => exact ⟨rfl, rfl⟩
  | socket socket =>
    simp only [offer]
    cases detach? devices socket with
    | none => exact ⟨rfl, rfl⟩
    | some p =>
      obtain ⟨d, rest⟩ := p
      simp only
      cases d.take v with
      | error e d' => exact ⟨rfl, rfl⟩
      | ok event d' =>
        cases event with
        | none => exact ⟨rfl, rfl⟩
        | some event => exact ⟨journal.entries_enterRobot event, rfl⟩

theorem offerAll_sameEntries (v : Int64) (outlets : List Outlet) (b : Bench) :
    SameEntries b (leaves (offerAll v outlets b)) := by
  induction outlets generalizing b with
  | nil => exact ⟨rfl, rfl⟩
  | cons o rest ih =>
    have hFirst := offer_sameEntries v o b
    unfold offerAll
    cases hOffer : offer v o b with
    | ok u b' =>
      rw [hOffer] at hFirst
      have hRest := ih b'
      exact ⟨hRest.1.trans hFirst.1, hRest.2.trans hFirst.2⟩
    | error e b' =>
      rw [hOffer] at hFirst
      exact hFirst

/-- A value that is emitted may make robots enter events, but no entry of the machine. -/
theorem emit_sameEntries (v : Int64) (b : Bench) : SameEntries b (leaves (b.emit v)) := by
  by_cases hAbsent : b.output = .absent
  · unfold emit
    rw [hAbsent]
    exact ⟨rfl, rfl⟩
  · have hOffers := offerAll_sameEntries v b.output.outlets b
    rw [emit_wired v hAbsent]
    cases hAll : offerAll v b.output.outlets b with
    | ok u b' =>
      rw [hAll] at hOffers
      exact hOffers
    | error e b' =>
      rw [hAll] at hOffers
      exact hOffers

end Bench

/-! ### Crashes of steps -/

namespace FlatMachine

theorem perform_crash {s : FlatMachine} {effect : Effect} {c : Crash}
    (h : (s.perform effect).2 = some (.crash c)) : c = .unwired := by
  have hAssign : ∀ (s : FlatMachine) (a v : Int64), (s.assign a v).2 ≠ some (.crash c) := by
    intro s a v hCrash
    unfold assign at hCrash
    split at hCrash <;> cases hCrash
  unfold perform at h
  cases effect with
  | assign a v => exact absurd h (hAssign s a v)
  | read a =>
    simp only at h
    cases hRead : s.bench.read with
    | ok v b =>
      rw [hRead] at h
      exact absurd h (hAssign _ a v)
    | error e b =>
      rw [hRead] at h
      cases e with
      | io e => cases h
      | crash c' =>
        cases h
        exact (Bench.read_crash hRead).1
  | emit v =>
    simp only at h
    rcases (s.bench.note (.emitted v)).emit_cases v with
      ⟨b, hEmit, -⟩ | ⟨e, b, hEmit, -⟩ | ⟨-, hEmit⟩
    · rw [hEmit] at h
      cases h
    · rw [hEmit] at h
      cases h
    · rw [hEmit] at h
      cases h
      rfl
  | rebase offset => cases h
  | pass => cases h
  | halt => cases h

theorem step_crash {s : FlatMachine} {c : Crash} (h : s.step.2.stop = some (.crash c)) :
    c = .unwired := by
  unfold step at h
  cases hDecoded : s.atWork.decoded with
  | error trouble =>
    rw [hDecoded] at h
    cases h
  | ok ins =>
    rw [hDecoded] at h
    simp only [execute] at h
    cases hPlan : (s.atWork.counted ins).plan ins.word ins.opcode with
    | error trouble =>
      rw [hPlan] at h
      cases h
    | ok r =>
      rw [hPlan] at h
      exact perform_crash h

end FlatMachine

namespace Machine

open FlatMachine (Effect)

variable {m m' m₁ : Machine} {size : Nat} {es es' : List Entry} {stop? : Option Stop}

theorem step_follows (h : m.memory.Mapped size) : ∃ s : FlatMachine,
    Follows size m.imageFault (step m) (s.step.1, s.step.2.stop) := by
  obtain ⟨f, pages, h⟩ := h
  exact ⟨_, @step_on size m.memory m.imageFault
    { memory := f, ip := m.ip, base := m.base, current := m.current, steps := m.steps,
      halted := m.halted, bench := m.bench } pages h⟩

/-- Only pages that are larger than a block cannot be made. -/
theorem step_allocation (h : m.memory.Mapped size)
    (hStep : step m = .error (.crash .allocation) m') : Memory.largestBlock < size := by
  obtain ⟨s, hFollows⟩ := step_follows h
  rw [hStep] at hFollows
  rcases hFollows with ⟨memory, pages', -, hResult⟩ | ⟨hLarge, -⟩
  · split at hResult
    · cases hResult
    · rename_i stop hStop
      cases hResult
      cases FlatMachine.step_crash hStop
  · exact hLarge

/-! ### Records -/

/-- The entries of the machine in its journal. -/
def entries (m : Machine) : List Entry := m.bench.journal.entries

/-- What a stop does to devices: a halt flushes the output. -/
def settled (outlets : List Outlet) (devices : Array Device) : Option Stop → Array Device
  | some (.halt _) => (Bench.flushDevices outlets devices).2
  | _ => devices

/-- The entries `es` record how `m` became `m'`, with pages of `size` cells. -/
structure Logged (size : Nat) (m : Machine) (es : List Entry) (stop? : Option Stop)
    (m' : Machine) : Prop where
  kept : m'.bench.journal.kept = true
  entries_eq : m'.entries = m.entries ++ es
  /-- Unless a page could not be made, loads give what the stores of the record tell. -/
  load_eq : stop? ≠ some (.crash .allocation) →
    m'.memory.Mapped size ∧ m'.memory.load = es.foldl Entry.replay m.memory.load
  /-- Pages of up to the largest block can always be made. -/
  allocation : stop? = some (.crash .allocation) → Memory.largestBlock < size
  /-- Every instruction of the record was counted, and no other. -/
  steps_eq : m'.steps = m.steps + UInt64.ofNat (es.filterMap Entry.begun?).length
  output_eq : m'.bench.output = m.bench.output
  /-- The sinks were offered the values of the record, one after the other. -/
  devices_eq : m'.bench.devices = settled m.bench.output.outlets
    (Bench.tellDevices m.bench.output.outlets (es.filterMap Entry.emitted?) m.bench.devices) stop?
  /-- The record tells of a halt without an error exactly if there was one, and how many
  instructions there were until then. -/
  halted_iff : ∀ steps, .halted steps ∈ es ↔ stop? = some (.halt none) ∧ steps = m'.steps

/-- **Records can be put together.** -/
theorem Logged.trans (h : Logged size m es none m₁) (h' : Logged size m₁ es' stop? m') :
    Logged size m (es ++ es') stop? m' where
  kept := h'.kept
  entries_eq := by rw [h'.entries_eq, h.entries_eq, List.append_assoc]
  load_eq hStop := by
    rw [List.foldl_append, ← (h.load_eq nofun).2]
    exact h'.load_eq hStop
  allocation := h'.allocation
  steps_eq := by
    rw [h'.steps_eq, h.steps_eq, List.filterMap_append, List.length_append, UInt64.ofNat_add,
      UInt64.add_assoc]
  output_eq := h'.output_eq.trans h.output_eq
  devices_eq := by
    rw [h'.devices_eq, h.output_eq, h.devices_eq, List.filterMap_append, Bench.tellDevices_append]
    rfl
  halted_iff steps := by
    have hFirst : .halted steps ∉ es := by
      intro hMem
      cases ((h.halted_iff steps).1 hMem).1
    rw [List.mem_append, h'.halted_iff, or_iff_right hFirst]

/-- Registers may change without an entry. -/
theorem Logged.silent (hKept : m.bench.journal.kept = true) (hMapped : m.memory.Mapped size)
    (hMemory : m'.memory = m.memory) (hSteps : m'.steps = m.steps)
    (hOutput : m'.bench.output = m.bench.output) (hDevices : m'.bench.devices = m.bench.devices)
    (hJournal : m'.bench.journal = m.bench.journal) : Logged size m [] none m' where
  kept := hJournal ▸ hKept
  entries_eq := by rw [List.append_nil, entries, hJournal, entries]
  load_eq _ := ⟨hMemory ▸ hMapped, congrArg Memory.load hMemory⟩
  allocation := nofun
  steps_eq := hSteps.trans (UInt64.add_zero _).symm
  output_eq := hOutput
  devices_eq := hDevices
  halted_iff steps := by simp

/-- A machine that halts says farewell. -/
theorem closed_logged (hKept : m.bench.journal.kept = true) (hMapped : m.memory.Mapped size)
    (cause : Option RunError) :
    Logged size m [farewell m.steps (m.lastError cause)] (some (.halt (m.lastError cause)))
      (m.closed cause) := by
  have hFlush : m.bench.flush.2 =
      { m.bench with devices := (Bench.flushDevices m.bench.output.outlets m.bench.devices).2 } :=
    congrArg Prod.snd (Bench.flushAll_devices m.bench.output.outlets m.bench)
  have hNote : (m.closed cause).bench =
      { m.bench with devices := (Bench.flushDevices m.bench.output.outlets m.bench.devices).2,
                     journal := m.bench.journal.enter (farewell m.steps (m.lastError cause)) } := by
    unfold closed Bench.note
    simp only [hFlush]
  have hSilent : ∀ error, [farewell m.steps error].filterMap Entry.begun? = [] ∧
      [farewell m.steps error].filterMap Entry.emitted? = [] ∧
      ∀ load, [farewell m.steps error].foldl Entry.replay load = load := by
    intro error
    cases error <;> exact ⟨rfl, rfl, fun _ => rfl⟩
  obtain ⟨hBegun, hEmitted, hReplay⟩ := hSilent (m.lastError cause)
  refine ⟨?_, ?_, fun _ => ⟨hMapped, (hReplay _).symm⟩, nofun, ?_, ?_, ?_, fun steps => ?_⟩
  · rw [hNote]
    exact (m.bench.journal.kept_enter _).trans hKept
  · rw [entries, hNote]
    exact m.bench.journal.entries_enter hKept _
  · rw [hBegun]
    exact (UInt64.add_zero _).symm
  · rw [hNote]
  · rw [hNote, hEmitted]
    rfl
  · cases m.lastError cause <;> simp [farewell, closed]

/-! ### Actions -/

/-- An action of `m` enters a record of itself, with the output of `vs` and no instruction. -/
def Enters (size : Nat) (m : Machine) (vs : List Int64) (r : EStateM.Result Stop Machine Unit) :
    Prop :=
  ∃ es, Logged size m es (failure? r) (leaves r) ∧ es.filterMap Entry.begun? = [] ∧
    es.filterMap Entry.emitted? = vs

theorem Enters.after {vs : List Int64} {r : EStateM.Result Stop Machine Unit}
    (h : Enters size m₁ vs r) (hFirst : Logged size m es none m₁)
    (hBegun : es.filterMap Entry.begun? = []) :
    Enters size m (es.filterMap Entry.emitted? ++ vs) r := by
  obtain ⟨es', hLogged, hNone, rfl⟩ := h
  refine ⟨es ++ es', hFirst.trans hLogged, ?_, List.filterMap_append⟩
  rw [List.filterMap_append, hBegun, hNone, List.append_nil]

section

variable (hKept : m.bench.journal.kept = true) (hMapped : m.memory.Mapped size)
include hKept hMapped

theorem halt_enters (cause : Option RunError) : Enters size m [] (halt cause m) := by
  refine ⟨_, closed_logged hKept hMapped cause, ?_, ?_⟩ <;> cases m.lastError cause <;> rfl

theorem store_enters (a v : Int64) : Enters size m [] (store a v m) := by
  rw [store_eq]
  rcases hMapped.store_one a v with
    ⟨fault, hStore⟩ | ⟨memory, hStore, hMapped', hLoad⟩ | ⟨hLarge, memory, hStore⟩
  · rw [hStore]
    exact halt_enters hKept hMapped _
  · rw [hStore]
    refine ⟨[.stored v a], ⟨?_, ?_, fun _ => ⟨hMapped', funext hLoad⟩, nofun, ?_, rfl, rfl, ?_⟩,
      rfl, rfl⟩
    · exact (m.bench.journal.kept_enter _).trans hKept
    · exact m.bench.journal.entries_enter hKept _
    · exact (UInt64.add_zero _).symm
    · simp [failure?]
  · rw [hStore]
    refine ⟨[], ⟨hKept, (List.append_nil _).symm, fun hStop => absurd rfl hStop, fun _ => hLarge,
      (UInt64.add_zero _).symm, rfl, rfl, ?_⟩, rfl, rfl⟩
    simp [failure?]

/-- A machine that crashes without touching memory enters nothing. -/
theorem crash_logged (c : Crash) (hAllocation : c = .allocation → Memory.largestBlock < size) :
    Logged size m [] (some (.crash c)) m where
  kept := hKept
  entries_eq := (List.append_nil _).symm
  load_eq _ := ⟨hMapped, rfl⟩
  allocation hStop := hAllocation (by cases hStop; rfl)
  steps_eq := (UInt64.add_zero _).symm
  output_eq := rfl
  devices_eq := rfl
  halted_iff steps := by simp

theorem read_enters (a : Int64) : Enters size m [] (act (.read a) m) := by
  rw [act_read_eq]
  have hJournal := m.bench.read_journal
  rcases m.bench.read_same with
    ⟨v, b, hRead, hOutput, hDevices⟩ | ⟨e, b, hRead, hOutput, hDevices⟩
  · rw [hRead] at hJournal ⊢
    have hSilent : Logged size m [] none (m.onto b) :=
      .silent hKept hMapped rfl rfl hOutput hDevices hJournal
    exact (store_enters hSilent.kept hMapped a v).after hSilent rfl
  · rw [hRead] at hJournal ⊢
    have hSilent : Logged size m [] none (m.onto b) :=
      .silent hKept hMapped rfl rfl hOutput hDevices hJournal
    cases e with
    | io e => exact (halt_enters hSilent.kept hMapped _).after hSilent rfl
    | crash c =>
      have hCrash := crash_logged hSilent.kept (m := m.onto b) hMapped c
        fun hEq => nomatch (Bench.read_crash hRead).1.symm.trans hEq
      exact ⟨[], hSilent.trans hCrash, rfl, rfl⟩

/-- A value is entered before it is offered to the sinks. -/
theorem emit_enters (v : Int64) : Enters size m [v] (emit v m) := by
  rw [emit_eq]
  have hSame := (m.bench.note (.emitted v)).emit_sameEntries v
  -- Whatever becomes of the value, the bench that the sinks leave has it in its journal.
  have hEmitted : ∀ b, b.output = m.bench.output →
      b.devices = Bench.tellDevices m.bench.output.outlets [v] m.bench.devices →
      Bench.SameEntries (m.bench.note (.emitted v)) b →
      Logged size m [.emitted v] none (m.onto b) := by
    intro b hOutput hDevices hEntries
    refine ⟨?_, ?_, fun _ => ⟨hMapped, rfl⟩, nofun, (UInt64.add_zero _).symm, hOutput, hDevices, ?_⟩
    · exact hEntries.2.trans ((m.bench.journal.kept_enter _).trans hKept)
    · exact hEntries.1.trans (m.bench.journal.entries_enter hKept _)
    · simp
  rcases (m.bench.note (.emitted v)).emit_cases v with
    ⟨b, hEmit, hPassed⟩ | ⟨e, b, hEmit, hOutput, hDevices, -⟩ | ⟨hAbsent, hEmit⟩
  · rw [hEmit] at hSame ⊢
    exact ⟨_, hEmitted b hPassed.output_eq hPassed.devices_eq hSame, rfl, rfl⟩
  · rw [hEmit] at hSame ⊢
    have hLogged := hEmitted b hOutput hDevices hSame
    exact (halt_enters hLogged.kept hMapped _).after hLogged rfl
  · rw [hEmit] at hSame ⊢
    have hNowhere : m.bench.output.outlets = [] := by
      rw [show m.bench.output = .absent from hAbsent]
      rfl
    have hLogged := hEmitted (m.bench.note (.emitted v)) rfl (by rw [hNowhere]; rfl) hSame
    exact ⟨_, hLogged.trans (crash_logged hLogged.kept hMapped .unwired nofun), rfl, rfl⟩

theorem act_enters (effect : Effect) :
    Enters size m (emitted (effect.exchange m.bench)) (act effect m) := by
  cases effect with
  | assign a v => exact store_enters hKept hMapped a v
  | read a => exact read_enters hKept hMapped a
  | emit v => exact emit_enters hKept hMapped v
  | rebase offset => exact ⟨[], .silent hKept hMapped rfl rfl rfl rfl rfl, rfl, rfl⟩
  | pass => exact ⟨[], .silent hKept hMapped rfl rfl rfl rfl rfl, rfl, rfl⟩
  | halt => exact halt_enters hKept hMapped none

/-! ### Steps -/

theorem begun_logged (ins : Instruction) :
    Logged size m [.exec ins m.base] none (m.begun ins) where
  kept := (m.bench.journal.kept_enter _).trans hKept
  entries_eq := m.bench.journal.entries_enter hKept _
  load_eq _ := ⟨hMapped, rfl⟩
  allocation := nofun
  steps_eq := rfl
  output_eq := rfl
  devices_eq := rfl
  halted_iff steps := by simp

/-- **A step enters a record of itself**: its instruction, if there is one, and the value that it
emits, if it does. -/
theorem step_logged :
    ∃ es, Logged size m es (failure? (step m)) (leaves (step m)) ∧
      es.filterMap Entry.begun? = (m.instruction?.map fun ins => (ins, m.base)).toList ∧
      es.filterMap Entry.emitted? = m.emits ∧
      (failure? (step m) = none → m.instruction? ≠ none) := by
  have hAllocation : ∀ {m' : Machine} {c : Crash}, step m = .error (.crash c) m' →
      c = .allocation → Memory.largestBlock < size := by
    rintro m' c hStep rfl
    exact step_allocation hMapped hStep
  obtain ⟨course, hIns, -, hCourse⟩ := step_course m
  obtain ⟨hStep, hExchange⟩ := hCourse m.bench
  rw [onto_bench] at hStep hExchange
  rw [emits, hExchange, ← hIns]
  cases course with
  | lost setback =>
    have hSilent : Logged size m [] none m.atWork := .silent hKept hMapped rfl rfl rfl rfl rfl
    obtain ⟨es, hLogged, hBegun, hEmitted⟩ :=
      halt_enters hSilent.kept hMapped (some (setback.error m.ip))
    rw [hStep]
    refine ⟨es, hSilent.trans hLogged, hBegun, hEmitted, ?_⟩
    intro hGoesOn
    cases hGoesOn
  | wrecked crash =>
    have hSilent : Logged size m [] none m.atWork := .silent hKept hMapped rfl rfl rfl rfl rfl
    rw [hStep]
    refine ⟨[], hSilent.trans (crash_logged hSilent.kept hMapped crash (hAllocation hStep)), rfl,
      rfl, ?_⟩
    intro hGoesOn
    cases hGoesOn
  | works ins verdict =>
    have hBegun : ∀ ip, Logged size m [.exec ins m.base] none { m.begun ins with ip } := by
      intro ip
      have hFirst := begun_logged hKept hMapped ins
      exact hFirst.trans (.silent hFirst.kept hMapped rfl rfl rfl rfl rfl)
    cases verdict with
    | halts setback ip =>
      obtain ⟨es, hLogged, hNone, hEmitted⟩ :=
        halt_enters (hBegun ip).kept hMapped (some (setback.error m.ip))
      rw [hStep]
      refine ⟨_, (hBegun ip).trans hLogged, ?_, ?_, fun _ => Option.some_ne_none ins⟩
      · rw [List.filterMap_append, hNone]
        rfl
      · rw [List.filterMap_append, hEmitted]
        rfl
    | crashes crash ip =>
      rw [hStep]
      exact ⟨_, (hBegun ip).trans (crash_logged (hBegun ip).kept hMapped crash (hAllocation hStep)),
        rfl, rfl, fun _ => Option.some_ne_none ins⟩
    | done effect ip =>
      obtain ⟨es, hLogged, hNone, hEmitted⟩ := act_enters (hBegun ip).kept hMapped effect
      have hSame := (Verdict.done effect ip).exchange_note m.bench (.exec ins m.base)
      rw [hStep]
      refine ⟨_, (hBegun ip).trans hLogged, ?_, ?_, fun _ => Option.some_ne_none ins⟩
      · rw [List.filterMap_append, hNone]
        rfl
      · rw [List.filterMap_append, hEmitted]
        exact congrArg emitted hSame

end

/-! ### Sequences of steps and runs -/

theorem instruction?_address {ins : Instruction} (h : m.instruction? = some ins) :
    ins.address = m.ip := by
  unfold instruction? at h
  cases hMemory : m.memory.load m.ip with
  | error e =>
    rw [hMemory] at h
    cases h
  | ok word =>
    rw [hMemory] at h
    simp only at h
    cases hDecode : Instruction.decode m.ip word with
    | error e =>
      rw [hDecode] at h
      cases h
    | ok ins' =>
      rw [hDecode] at h
      cases h
      rw [decode_eq hDecode]

/-- The `k`-th of the instructions in a record of `n` steps is the one that the `k`-th step
found. -/
def Tells (m : Machine) (n : Nat) (begun : List (Instruction × Int64)) : Prop :=
  ∀ k ins base, begun[k]? = some (ins, base) ↔
    k < n ∧ ∃ before, stepTimes k m = (none, before) ∧ before.instruction? = some ins ∧
      before.ip = ins.address ∧ before.base = base

theorem Tells.cons {n : Nat} {begun : List (Instruction × Int64)} {ins : Instruction}
    (h : m₁.Tells n begun) (hStep : step m = .ok () m₁) (hIns : m.instruction? = some ins) :
    m.Tells (n + 1) ((ins, m.base) :: begun) := by
  intro k ins' base
  cases k with
  | zero =>
    rw [List.getElem?_cons_zero]
    constructor
    · intro hFirst
      cases hFirst
      exact ⟨Nat.succ_pos n, m, rfl, hIns, (instruction?_address hIns).symm, rfl⟩
    · rintro ⟨-, before, hReach, hFound, -, rfl⟩
      cases hReach
      rw [Option.some.inj (hIns.symm.trans hFound)]
  | succ k =>
    rw [List.getElem?_cons_succ, h k ins' base, stepTimes_succ_ok hStep, Nat.succ_lt_succ_iff]

theorem tells_last {stop : Stop} (hStep : step m = .error stop m₁) (n : Nat) :
    m.Tells (n + 1) (m.instruction?.map fun ins => (ins, m.base)).toList := by
  intro k ins base
  cases k with
  | zero =>
    constructor
    · intro hFirst
      cases hIns : m.instruction? with
      | none =>
        rw [hIns] at hFirst
        cases hFirst
      | some ins' =>
        rw [hIns] at hFirst
        cases hFirst
        exact ⟨Nat.succ_pos n, m, rfl, hIns, (instruction?_address hIns).symm, rfl⟩
    · rintro ⟨-, before, hReach, hFound, -, rfl⟩
      cases hReach
      rw [hFound]
      rfl
  | succ k =>
    constructor
    · intro hLater
      cases hIns : m.instruction? <;> rw [hIns] at hLater <;> cases hLater
    · rintro ⟨-, before, hReach, -⟩
      rw [stepTimes_succ_error hStep] at hReach
      cases hReach

/-- **Steps enter a record of themselves.** -/
theorem stepTimes_logged (hKept : m.bench.journal.kept = true) (hMapped : m.memory.Mapped size)
    (n : Nat) :
    ∃ es, Logged size m es (stepTimes n m).1 (stepTimes n m).2 ∧
      es.filterMap Entry.emitted? = m.told n ∧ m.Tells n (es.filterMap Entry.begun?) := by
  induction n generalizing m with
  | zero => exact ⟨[], .silent hKept hMapped rfl rfl rfl rfl rfl, rfl, fun k _ _ => by simp⟩
  | succ n ih =>
    obtain ⟨es, hLogged, hBegun, hEmitted, hFound⟩ := step_logged hKept hMapped
    cases hStep : step m with
    | ok u m₁ =>
      rw [hStep] at hLogged hFound
      obtain ⟨es', hLogged', hEmitted', hTells⟩ := ih hLogged.kept (hLogged.load_eq nofun).1
      rw [stepTimes_succ_ok hStep, told_succ_ok hStep]
      refine ⟨es ++ es', hLogged.trans hLogged', ?_, ?_⟩
      · rw [List.filterMap_append, hEmitted, hEmitted']
        rfl
      · obtain ⟨ins, hIns⟩ := Option.ne_none_iff_exists'.mp (hFound rfl)
        rw [List.filterMap_append, hBegun, hIns]
        exact hTells.cons hStep hIns
    | error stop m₁ =>
      rw [hStep] at hLogged
      rw [stepTimes_succ_error hStep, told_succ_error hStep]
      refine ⟨es, hLogged, hEmitted, ?_⟩
      rw [hBegun]
      exact tells_last hStep n

/-- A record does not depend on indentation. -/
theorem Logged.unindented (h : Logged size m es stop? m₁) (hSame : m'.unindented = m₁.unindented) :
    Logged size m es stop? m' := by
  have hPart : ∀ {γ : Type} (part : Machine → γ), (∀ n : Machine, part n.unindented = part n) →
      part m' = part m₁ := by
    intro γ part hKeeps
    rw [← hKeeps, ← hKeeps m₁, hSame]
  have hMemory : m'.memory = m₁.memory := hPart memory fun _ => rfl
  have hSteps : m'.steps = m₁.steps := hPart steps fun _ => rfl
  refine ⟨(hPart (·.bench.journal.kept) fun _ => rfl).trans h.kept,
    (hPart entries fun n => n.bench.journal.entries_unindented).trans h.entries_eq, ?_,
    h.allocation, hSteps.trans h.steps_eq, (hPart (·.bench.output) fun _ => rfl).trans h.output_eq,
    (hPart (·.bench.devices) fun _ => rfl).trans h.devices_eq, ?_⟩
  · rw [hMemory]
    exact h.load_eq
  · rw [hSteps]
    exact h.halted_iff

/-- **A run enters a record of itself.** -/
theorem run_logged (hKept : m.bench.journal.kept = true) (hMapped : m.memory.Mapped size)
    (hReady : m.refusal? = none) (patience : Patience) :
    ∃ stop es, (m.run patience).1 = (Stop.ending stop).recovered "VM" ∧
      Logged size m es (some stop) (m.run patience).2 ∧
      es.filterMap Entry.emitted? = m.told patience.budget ∧
      m.Tells patience.budget (es.filterMap Entry.begun?) := by
  obtain ⟨budget, reason⟩ := patience
  obtain ⟨es, hLogged, hEmitted, hTells⟩ := stepTimes_logged hKept hMapped budget
  cases hSteps : stepTimes budget m with
  | mk stop? last =>
    rw [hSteps] at hLogged
    cases stop? with
    | some stop =>
      obtain ⟨hResult, hState⟩ := run_stopped hReady reason hSteps
      exact ⟨stop, es, hResult, hLogged.unindented hState, hEmitted, hTells⟩
    | none =>
      -- The budget is used up, and the machine is halted after its last step.
      obtain ⟨hResult, hState⟩ := run_canceled hReady reason hSteps
      have hClosed := closed_logged hLogged.kept (hLogged.load_eq nofun).1 (some reason)
      refine ⟨.halt (some reason), _, hResult, (hLogged.trans hClosed).unindented hState, ?_, ?_⟩
      · rw [List.filterMap_append, hEmitted]
        exact List.append_nil _
      · rw [List.filterMap_append]
        exact (List.append_nil _).symm ▸ hTells

/-- **The journal is a faithful record.**  It tells all stores of a run, or of a sequence of steps,
so that loads afterwards can be told from it, unless a page could not be made, which needs pages
larger than a block; it tells all instructions with their addresses and relative bases, and the
number of steps grows by their number; it tells all values that the sinks were offered; and it tells
of a halt without an error with the last number of steps.  A run that is refused enters nothing. -/
theorem journal_is_faithful (pageSize limit : Int64) (ops : List Memory.Op) (m : Machine)
    (hFixed : ∀ n, Memory.Op.pageSize n ∉ ops) (hMade : Memory.Allocates { pageSize, limit } ops)
    (hMemory : m.memory = Memory.run { pageSize, limit } ops)
    (hKept : m.bench.journal.kept = true) :
    (∀ n, ∃ es, Logged (Memory.pageCells pageSize) m es (stepTimes n m).1 (stepTimes n m).2 ∧
      es.filterMap Entry.emitted? = m.told n ∧ m.Tells n (es.filterMap Entry.begun?)) ∧
    (∀ patience, m.refusal? = none →
      ∃ stop es, (m.run patience).1 = (Stop.ending stop).recovered "VM" ∧
        Logged (Memory.pageCells pageSize) m es (some stop) (m.run patience).2 ∧
        es.filterMap Entry.emitted? = m.told patience.budget ∧
        m.Tells patience.budget (es.filterMap Entry.begun?)) ∧
    ∀ patience, m.refusal? ≠ none → (m.run patience).2 = m := by
  have hMapped : m.memory.Mapped (Memory.pageCells pageSize) := by
    obtain ⟨pages, h⟩ :=
      Memory.run_represents (Memory.Represents.empty pageSize limit) hFixed hMade
    exact ⟨_, pages, hMemory ▸ h⟩
  refine ⟨stepTimes_logged hKept hMapped, fun patience hReady =>
    run_logged hKept hMapped hReady patience, fun patience hRefused => ?_⟩
  obtain ⟨e, hRefusal⟩ := Option.ne_none_iff_exists'.mp hRefused
  rw [run_of_refusal hRefusal]

/-- A program that changes the operand of its own output instruction. -/
theorem journal_is_faithful_selfChanging :
    let ops : List Memory.Op := [.store 0 [1101, 2, 3, 5, 104, 0, 99]]
    let m : Machine :=
      { memory := Memory.run { pageSize := 4 } ops, bench := { journal := { kept := true } } }
    let out := m.run ⟨9, .canceled⟩
    (∀ n, Memory.Op.pageSize n ∉ ops) ∧ Memory.Allocates { pageSize := 4 } ops ∧
      m.refusal? = none ∧ out.1 = none ∧ out.2.entries.filterMap Entry.emitted? = [5] ∧
      out.2.steps = 3 ∧ .halted out.2.steps ∈ out.2.entries ∧
      out.2.memory.load = out.2.entries.foldl Entry.replay m.memory.load := by
  intro ops m out
  have hFixed : ∀ n, Memory.Op.pageSize n ∉ ops := by simp [ops]
  have hMade : Memory.Allocates { pageSize := 4 } ops := by decide +kernel
  have hReady : m.refusal? = none := by decide
  have hDone : out.1 = none := by decide +kernel
  obtain ⟨-, hRuns, -⟩ := journal_is_faithful 4 0 ops m hFixed hMade rfl rfl
  obtain ⟨stop, es, hResult, hLogged, hEmitted, -⟩ := hRuns ⟨9, .canceled⟩ hReady
  have hEntries : out.2.entries = es := hLogged.entries_eq
  have hStop : stop = .halt none := by
    rw [show (m.run ⟨9, .canceled⟩).1 = none from hDone] at hResult
    rcases stop with (_ | e) | c
    · rfl
    · cases hResult
    · cases hResult
  subst hStop
  rw [hEntries]
  refine ⟨hFixed, hMade, hReady, hDone, hEmitted.trans (by decide +kernel), by decide +kernel,
    (hLogged.halted_iff _).2 ⟨rfl, rfl⟩, (hLogged.load_eq nofun).2⟩

/-- A machine at the upper end of memory stores to address 0, and the page for that cannot be made.
The run ends with a crash.  The journal tells of no store, but a load gives another value then. -/
theorem journal_misses_page :
    let page : Int64 := 9223372036854775791
    let ops : List Memory.Op := [.store page [1101, 5, 6, 0]]
    let m : Machine :=
      { memory := Memory.run { pageSize := page } ops, ip := page,
        bench := { journal := { kept := true } } }
    let out := m.run ⟨9, .canceled⟩
    Memory.Allocates { pageSize := page } ops ∧
      out.1 = some (.crashedOn "VM" Crash.allocation.message) ∧
      out.2.entries.foldl Entry.replay m.memory.load 0 = .ok 0 ∧
      out.2.memory.load 0 = .ok 1101 := by
  decide +kernel

end Machine

end HullRobot
