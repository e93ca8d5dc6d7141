import Mathlib.Data.List.Forall2
import HullRobot.Proofs.Machine.Sturdy

/-!
# Machines that have stopped

Every way out of a run but a crash goes through a halt, and a machine that has halted refuses to
run.  Nothing that is done to it from outside can make it go on, except to load another image.

* `Visit`: what can be done to a machine from outside.  `Visit.gentle`: it touches neither the cells
  nor the registers.
* `Rested`: what visits leave as it is.  `visit_rested`, `visitAll_rested`: **gentle visits to a
  machine that has halted leave it at rest.**
* `stopped_stays_stopped`: a run ends in a halt, and a machine that has halted stays so.
-/

namespace HullRobot

/-! ### Devices at rest -/

/-- The device was flushed any number of times, and nothing else was done to it. -/
inductive Device.OnlyFlushed (d : Device) : Device → Prop
  | refl : OnlyFlushed d d
  | flush {d' : Device} (h : OnlyFlushed d d') : OnlyFlushed d d'.flushed

namespace Bench

/-- The devices were flushed any number of times, and nothing else was done to them. -/
def AtRest (devices devices' : List Device) : Prop :=
  List.Forall₂ Device.OnlyFlushed devices devices'

theorem AtRest.refl (devices : List Device) : AtRest devices devices :=
  List.forall₂_same.mpr fun _ _ => .refl

theorem AtRest.trans {a b c : List Device} (h : AtRest a b) (h' : AtRest b c) : AtRest a c := by
  induction h generalizing c with
  | nil => exact h'
  | cons hHead hTail ih =>
    cases h' with
    | cons hHead' hTail' =>
      refine .cons ?_ (ih hTail')
      induction hHead' with
      | refl => exact hHead
      | flush _ ih => exact .flush ih

theorem atRest_put {devices : Array Device} {d : Device} {o : Outlet}
    (h : o.sink? devices = some d) : AtRest devices.toList (o.put devices d.flushed).toList := by
  cases o with
  | drain => cases h
  | socket socket =>
    obtain ⟨hSocket, rfl⟩ := Array.getElem?_eq_some_iff.mp h
    rw [Outlet.put, Array.toList_setIfInBounds]
    refine List.forall₂_iff_get.mpr ⟨by rw [List.length_set], fun i hi hi' => ?_⟩
    simp only [List.get_eq_getElem, List.getElem_set, Array.getElem_toList]
    by_cases hHere : socket = i
    · subst hHere
      rw [if_pos rfl]
      exact .flush .refl
    · rw [if_neg hHere]
      exact .refl

/-- A flush leaves the devices at rest. -/
theorem atRest_flushDevices (outlets : List Outlet) (devices : Array Device) :
    AtRest devices.toList (flushDevices outlets devices).2.toList := by
  fun_induction flushDevices outlets devices with
  | case1 => exact .refl _
  | case2 o rest devices hSink ih => exact ih
  | case3 o rest devices d hSink ih => exact (atRest_put hSink).trans ih

end Bench

/-! ### Visits -/

namespace Machine

variable {m m' m'' : Machine}

/-- What can be done to a machine from outside. -/
inductive Visit where
  | run (patience : Patience)
  | setUp (s : Setup)

namespace Visit

def isRun : Visit → Bool
  | .run _ => true
  | .setUp _ => false

/-- Neither an image is loaded, nor are cells stored or registers set. -/
def gentle : Visit → Bool
  | .setUp (.image _) | .setUp (.ip _) | .setUp (.base _) | .setUp (.store ..) => false
  | _ => true

/-- The input that the machine is given. -/
def input? : Visit → Option Input
  | .setUp (.input input) => some input
  | _ => none

/-- The device that is put on the bench. -/
def device? : Visit → Option Device
  | .setUp (.attach device) => some device
  | _ => none

end Visit

/-- What a visit comes to: the report of a run, and the machine after it. -/
def visit (m : Machine) : Visit → List (Option (Failure RunError)) × Machine
  | .run patience => ([(m.run patience).1], (m.run patience).2)
  | .setUp s =>
    match m.setUp s with
    | .ok () m => ([], m)
    | .error _ m => ([], m)

/-- What visits come to, one after the other. -/
def visitAll (m : Machine) : List Visit → List (Option (Failure RunError)) × Machine
  | [] => ([], m)
  | v :: rest =>
    ((m.visit v).1 ++ ((m.visit v).2.visitAll rest).1, ((m.visit v).2.visitAll rest).2)

/-- What visits leave as it is.  The input is the last that was given, and nothing was read from
it; the devices are those that were there and those that were put there, and none was offered a
value. -/
structure Rested (visits : List Visit) (m m' : Machine) : Prop where
  extents_eq : m'.memory.extents = m.memory.extents
  blocks_eq : m'.memory.blocks = m.memory.blocks
  ip_eq : m'.ip = m.ip
  base_eq : m'.base = m.base
  current_eq : m'.current = m.current
  steps_eq : m'.steps = m.steps
  halted_eq : m'.halted = m.halted
  imageFault_eq : m'.imageFault = m.imageFault
  input_eq : m'.bench.input = (visits.filterMap Visit.input?).getLast?.getD m.bench.input
  devices : Bench.AtRest (m.bench.devices.toList ++ visits.filterMap Visit.device?)
    m'.bench.devices.toList

theorem Rested.refl (m : Machine) : Rested [] m m :=
  ⟨rfl, rfl, rfl, rfl, rfl, rfl, rfl, rfl, rfl, by
    simpa using Bench.AtRest.refl m.bench.devices.toList⟩

theorem Rested.trans {visits rest : List Visit} (h : Rested visits m m')
    (h' : Rested rest m' m'') : Rested (visits ++ rest) m m'' where
  extents_eq := h'.extents_eq.trans h.extents_eq
  blocks_eq := h'.blocks_eq.trans h.blocks_eq
  ip_eq := h'.ip_eq.trans h.ip_eq
  base_eq := h'.base_eq.trans h.base_eq
  current_eq := h'.current_eq.trans h.current_eq
  steps_eq := h'.steps_eq.trans h.steps_eq
  halted_eq := h'.halted_eq.trans h.halted_eq
  imageFault_eq := h'.imageFault_eq.trans h.imageFault_eq
  input_eq := by
    rw [h'.input_eq, h.input_eq, List.filterMap_append, List.getLast?_append, Option.getD_or]
  devices := by
    rw [List.filterMap_append, ← List.append_assoc]
    exact Bench.AtRest.trans (List.rel_append h.devices (Bench.AtRest.refl _)) h'.devices

theorem refusal?_of_halted (hHalted : m.halted = true) (hImage : m.imageFault = none) :
    m.refusal? = some .alreadyHalted := by
  unfold refusal?
  rw [hImage]
  exact if_pos hHalted

/-- **A gentle visit to a machine that has halted leaves it at rest.** -/
theorem visit_rested (hHalted : m.halted = true) (hImage : m.imageFault = none) {v : Visit}
    (hGentle : v.gentle) :
    (m.visit v).1 = List.replicate (if v.isRun then 1 else 0) (some (.plain .alreadyHalted)) ∧
      Rested [v] m (m.visit v).2 := by
  have hSame : Bench.AtRest (m.bench.devices.toList ++ []) m.bench.devices.toList := by
    simpa using Bench.AtRest.refl m.bench.devices.toList
  cases v with
  | run patience =>
    rw [visit, run_of_refusal (refusal?_of_halted hHalted hImage)]
    exact ⟨rfl, rfl, rfl, rfl, rfl, rfl, rfl, rfl, rfl, rfl, hSame⟩
  | setUp s =>
    cases s with
    | image cells => cases hGentle
    | ip address => cases hGentle
    | base base => cases hGentle
    | store address cells => cases hGentle
    | attach device =>
      refine ⟨rfl, rfl, rfl, rfl, rfl, rfl, rfl, rfl, rfl, rfl, ?_⟩
      show Bench.AtRest (m.bench.devices.toList ++ [device]) (m.bench.devices.push device).toList
      rw [Array.toList_push]
      exact .refl _
    | output output =>
      have hFlush : m.bench.flush.2 = { m.bench with
          devices := (Bench.flushDevices m.bench.output.outlets m.bench.devices).2 } := by
        rw [Bench.flush, Bench.flushAll_devices]
      refine ⟨rfl, rfl, rfl, rfl, rfl, rfl, rfl, rfl, rfl, ?_, ?_⟩
      · simp only [visit, setUp, hFlush]
        rfl
      · simp only [visit, setUp, hFlush]
        exact hSame.trans (Bench.atRest_flushDevices _ _)
    | memoryLimit limit => exact ⟨rfl, rfl, rfl, rfl, rfl, rfl, rfl, rfl, rfl, rfl, hSame⟩
    | pageSize size => exact ⟨rfl, rfl, rfl, rfl, rfl, rfl, rfl, rfl, rfl, rfl, hSame⟩
    | input input => exact ⟨rfl, rfl, rfl, rfl, rfl, rfl, rfl, rfl, rfl, rfl, hSame⟩
    | tee output => exact ⟨rfl, rfl, rfl, rfl, rfl, rfl, rfl, rfl, rfl, rfl, hSame⟩
    | journal => exact ⟨rfl, rfl, rfl, rfl, rfl, rfl, rfl, rfl, rfl, rfl, hSame⟩

theorem visitAll_rested {visits : List Visit} (hHalted : m.halted = true)
    (hImage : m.imageFault = none) (hGentle : ∀ v ∈ visits, v.gentle) :
    (m.visitAll visits).1 =
        List.replicate (visits.countP Visit.isRun) (some (.plain .alreadyHalted)) ∧
      Rested visits m (m.visitAll visits).2 := by
  induction visits generalizing m with
  | nil => exact ⟨rfl, .refl m⟩
  | cons v rest ih =>
    obtain ⟨hReport, hRested⟩ := visit_rested hHalted hImage (hGentle v (by simp))
    obtain ⟨hReports, hRest⟩ := ih (hRested.halted_eq.trans hHalted)
      (hRested.imageFault_eq.trans hImage) fun w hw => hGentle w (by simp [hw])
    refine ⟨?_, hRested.trans hRest⟩
    rw [visitAll, hReport, hReports, List.replicate_append_replicate, List.countP_cons,
      Nat.add_comm]

/-- **A machine that has stopped stays stopped.**  However a run ends that was not kept from making
a page, the machine has halted.  And once it has halted, every run reports that, whatever is done to
the machine that touches neither its cells nor its registers, and it stays at rest. -/
theorem stopped_stays_stopped (m : Machine) (hImage : m.imageFault = none) :
    (m.Reached → m.bench.Wired → ∀ patience, (m.run patience).1 ≠ some pageFailure →
      (m.run patience).2.halted = true ∧ (m.run patience).2.imageFault = none) ∧
    (m.halted = true → ∀ visits : List Visit, (∀ v ∈ visits, v.gentle) →
      (m.visitAll visits).1 =
          List.replicate (visits.countP Visit.isRun) (some (.plain .alreadyHalted)) ∧
        Rested visits m (m.visitAll visits).2) ∧
    RunError.alreadyHalted.message = "machine already halted" :=
  ⟨fun hReached hWired _ hMade => (run_endures hReached.sound hMade).2 hWired hImage,
    fun hHalted _ hGentle => visitAll_rested hHalted hImage hGentle, rfl⟩

/-- A machine whose input is used up in the middle of an instruction does not go on when it is given
more. -/
theorem stopped_stays_stopped_hungry :
    let m : Machine :=
      { memory := { pageSize := 4, extents := #[⟨0, 4⟩], blocks := #[#[3, 0, 99, 0]] },
        bench := { input := .queue [] } }
    let stopped := (m.run ⟨5, .canceled⟩).2
    let visits : List Visit := [.setUp (.input (.queue [7])), .run ⟨3, .canceled⟩]
    stopped.halted = true ∧
      (stopped.visitAll visits).1 = [some (.plain .alreadyHalted)] ∧
      (stopped.visitAll visits).2.bench.input = .queue [7] ∧
      (stopped.visitAll visits).2.memory.blocks = stopped.memory.blocks := by
  intro m stopped visits
  have hEmpty : Reached { memory := { pageSize := 4 } } := Reached.setUp (s := .pageSize 4) .new rfl
  have hLoaded : Reached { memory := m.memory } :=
    Reached.setUp (s := .image [3, 0, 99]) hEmpty (by with_unfolding_all rfl)
  have hReached : Reached m := Reached.setUp (s := .input (.queue [])) hLoaded rfl
  have hWired : m.bench.Wired := ⟨nofun, fun socket => nofun, nofun⟩
  have hReport : (m.run ⟨5, .canceled⟩).1 = some (.plain (.exec 0 (.input .endOfInput))) := by
    decide +kernel
  obtain ⟨hHalted, hImage⟩ := (stopped_stays_stopped m rfl).1 hReached hWired ⟨5, .canceled⟩
    (by rw [hReport]; nofun)
  obtain ⟨hReports, hRested⟩ := (stopped_stays_stopped stopped hImage).2.1 hHalted visits
    (by decide)
  exact ⟨hHalted, hReports, hRested.input_eq, hRested.blocks_eq⟩

end Machine

end HullRobot
