import HullRobot.Proofs.Bench.Sinks
import HullRobot.Proofs.Machine.Course

/-!
# What a machine cannot notice

A machine touches its bench by notes, reads, emits and flushes.  A change of the bench that these
pass by is unseen: the machine does the same on both benches, and the benches stay changed in the
same way.

* `Bench.Unseen`: the change commutes with what a machine does to its bench.
* `Bench.unseen_withJournal`: a change of the journal is unseen if the entries to come are entered
  in the same way.
* `step_through`, `stepTimes_through`: **steps commute with unseen changes.**
-/

namespace HullRobot

/-- A result with another state. -/
def mapState {ε σ τ α : Type} (f : σ → τ) : EStateM.Result ε σ α → EStateM.Result ε τ α
  | .ok a s => .ok a (f s)
  | .error e s => .error e (f s)

namespace Bench

/-- The change `f` of a bench commutes with everything that a machine does to it. -/
structure Unseen (f : Bench → Bench) : Prop where
  note : ∀ b entry, (f b).note entry = f (b.note entry)
  read : ∀ b, (f b).read = mapState f b.read
  emit : ∀ v b, (f b).emit v = mapState f (b.emit v)
  flush : ∀ b, (f b).flush = (b.flush.1, f b.flush.2)

/-- The bench with another journal. -/
def withJournal (g : Journal → Journal) (b : Bench) : Bench := { b with journal := g b.journal }

theorem read_withJournal (g : Journal → Journal) (b : Bench) :
    (b.withJournal g).read = mapState (withJournal g) b.read := by
  obtain ⟨input, output, devices, journal⟩ := b
  cases input with
  | absent => rfl
  | constant v => rfl
  | queue values => cases values <;> rfl
  | camera socket =>
    simp only [read, withJournal]
    split <;> rfl

section

variable {g : Journal → Journal}
  (hRobot : ∀ j event, (g j).enterRobot event = g (j.enterRobot event))
include hRobot

theorem offer_withJournal (v : Int64) (o : Outlet) (b : Bench) :
    offer v o (b.withJournal g) = mapState (withJournal g) (offer v o b) := by
  obtain ⟨input, output, devices, journal⟩ := b
  cases o with
  | drain => rfl
  | socket socket =>
    simp only [offer, withJournal]
    cases detach? devices socket with
    | none => rfl
    | some p =>
      simp only
      cases p.1.take v with
      | error e d => rfl
      | ok event d =>
        cases event with
        | none => rfl
        | some event => simp only [hRobot]; rfl

theorem offerAll_withJournal (v : Int64) (outlets : List Outlet) (b : Bench) :
    offerAll v outlets (b.withJournal g) = mapState (withJournal g) (offerAll v outlets b) := by
  induction outlets generalizing b with
  | nil => rfl
  | cons o rest ih =>
    unfold offerAll
    rw [offer_withJournal hRobot]
    cases offer v o b with
    | ok u b' => exact ih b'
    | error e b' => rfl

theorem emit_withJournal (v : Int64) (b : Bench) :
    (b.withJournal g).emit v = mapState (withJournal g) (b.emit v) := by
  have hOffer := offerAll_withJournal hRobot v b.output.outlets b
  unfold emit
  have hOutput : (b.withJournal g).output = b.output := rfl
  rw [hOutput]
  cases hSome : b.output with
  | absent => rfl
  | single o =>
    rw [hSome] at hOffer
    simp only [hOffer]
    cases offerAll v (Output.single o).outlets b <;> rfl
  | several outlets =>
    rw [hSome] at hOffer
    simp only [hOffer]
    cases offerAll v (Output.several outlets).outlets b <;> rfl

end

/-- **A change of the journal is unseen** if all later entries are made in the same way. -/
theorem unseen_withJournal {g : Journal → Journal}
    (hEnter : ∀ j entry, (g j).enter entry = g (j.enter entry))
    (hRobot : ∀ j event, (g j).enterRobot event = g (j.enterRobot event)) :
    Unseen (withJournal g) where
  note b entry := by
    unfold Bench.note withJournal
    rw [hEnter]
  read := read_withJournal g
  emit := emit_withJournal hRobot
  flush b := by
    simp only [Bench.flush, flushAll_devices]
    rfl

end Bench

namespace Machine

open FlatMachine (Effect)

/-- The machine on its bench as `f` changes it. -/
def through (f : Bench → Bench) (m : Machine) : Machine := m.onto (f m.bench)

section

variable {f : Bench → Bench} (hf : Bench.Unseen f)
include hf

theorem halt_through (error : Option RunError) (m : Machine) :
    halt error (m.through f) = mapState (through f) (halt error m : EStateM.Result _ _ Unit) := by
  obtain ⟨memory, ip, base, current, steps, halted, imageFault, bench⟩ := m
  simp only [halt, through, onto, hf.flush, hf.note]
  rfl

theorem store_through (address v : Int64) (m : Machine) :
    store address v (m.through f) = mapState (through f) (store address v m) := by
  rw [store_eq, store_eq]
  have hMemory : (m.through f).memory = m.memory := rfl
  rw [hMemory]
  cases m.memory.store address [v] with
  | ok u memory =>
    simp only [through, onto, hf.note]
    rfl
  | error e memory =>
    cases e with
    | fault fault => exact halt_through hf _ { m with memory }
    | crash c => rfl

theorem read_through (address : Int64) (m : Machine) :
    act (.read address) (m.through f) = mapState (through f) (act (.read address) m) := by
  rw [act_read_eq, act_read_eq]
  have hRead : (m.through f).bench.read = mapState f m.bench.read := hf.read m.bench
  rw [hRead]
  cases m.bench.read with
  | ok v b => exact store_through hf address v (m.onto b)
  | error e b =>
    cases e with
    | io e => exact halt_through hf _ (m.onto b)
    | crash c => rfl

theorem emit_through (v : Int64) (m : Machine) :
    emit v (m.through f) = mapState (through f) (emit v m) := by
  rw [emit_eq, emit_eq]
  have hEmit : ((m.through f).bench.note (.emitted v)).emit v =
      mapState f ((m.bench.note (.emitted v)).emit v) := by
    rw [← hf.emit, ← hf.note]
    rfl
  rw [hEmit]
  cases (m.bench.note (.emitted v)).emit v with
  | ok u b => rfl
  | error e b =>
    cases e with
    | io e => exact halt_through hf _ (m.onto b)
    | crash c => rfl

theorem act_through (effect : Effect) (m : Machine) :
    act effect (m.through f) = mapState (through f) (act effect m) := by
  cases effect with
  | assign address v => exact store_through hf address v m
  | read address => exact read_through hf address m
  | emit v => exact emit_through hf v m
  | rebase offset => rfl
  | pass => rfl
  | halt => exact halt_through hf none m

theorem follow_through (course : Course) (m : Machine) :
    course.follow (m.through f) = mapState (through f) (course.follow m) := by
  cases course with
  | lost setback => exact halt_through hf _ m.atWork
  | wrecked crash => rfl
  | works ins verdict =>
    have hBegun : (m.through f).begun ins = (m.begun ins).through f := by
      simp only [begun, through, onto, hf.note]
    simp only [Course.follow, hBegun]
    cases verdict with
    | done effect ip => exact act_through hf effect { m.begun ins with ip }
    | halts setback ip => exact halt_through hf _ { m.begun ins with ip }
    | crashes crash ip => rfl

/-- **A step commutes with unseen changes of the bench.** -/
theorem step_through (m : Machine) : step (m.through f) = mapState (through f) (step m) := by
  -- Both benches see the same course, so only the way it is followed has to commute.
  obtain ⟨course, -, -, hCourse⟩ := step_course m
  have hHere := (hCourse m.bench).1
  have hThere := (hCourse (f m.bench)).1
  rw [onto_bench] at hHere
  rw [hHere, ← follow_through hf]
  exact hThere

theorem stepTimes_through (n : Nat) (m : Machine) :
    stepTimes n (m.through f) = ((stepTimes n m).1, (stepTimes n m).2.through f) := by
  induction n generalizing m with
  | zero => rfl
  | succ n ih =>
    unfold stepTimes
    rw [step_through hf]
    cases step m with
    | ok u m' => exact ih m'
    | error stop m' => rfl

end

end Machine

end HullRobot
