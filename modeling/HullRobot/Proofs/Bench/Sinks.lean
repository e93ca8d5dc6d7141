import HullRobot.Bench.Basic
import HullRobot.Proofs.Stream.Channel
import Mathlib.Data.List.Basic

/-!
# Sinks

An output is a list of places, and a value is offered to them in order until one refuses it.  Here
the devices at these places are looked at without the rest of the bench.

* `offerDevices`, `flushDevices`: what offering and flushing do to the devices.  `offerAll_devices`,
  `flushAll_devices`: the bench does just that.
* `reached`: how many places are offered a value.
* `Device.flushed_printer`: what a printer has printed when it is flushed.
* `offerDevices_sink`, `flushDevices_sink`: **if the places are distinct, each device is changed by
  what it is offered itself, and by nothing else.**
-/

namespace HullRobot

/-! ### One device -/

namespace Device

variable (d : Device)

/-- The device after it was offered a value. -/
def offered (v : Int64) : Device :=
  match d.take v with
  | .ok _ d => d
  | .error _ d => d

/-- Why the device refuses a value, if it does. -/
def refusal? (v : Int64) : Option IoError :=
  match d.take v with
  | .ok _ _ => none
  | .error e _ => some e

/-- The device after it was offered values, one after the other. -/
def offeredAll (vs : List Int64) : Device := vs.foldl offered d

/-- The device after a flush. -/
def flushed : Device :=
  match d.flush with
  | .ok _ d => d
  | .error _ d => d

/-- Why the device cannot be flushed, if it cannot. -/
def flushError? : Option IoError :=
  match d.flush with
  | .ok _ _ => none
  | .error e _ => some e

theorem offeredAll_append (vs ws : List Int64) :
    d.offeredAll (vs ++ ws) = (d.offeredAll vs).offeredAll ws := List.foldl_append

theorem offeredAll_tape (values : Array Int64) (vs : List Int64) :
    (tape values).offeredAll vs = .tape (values ++ vs) := by
  induction vs generalizing values with
  | nil => simp only [offeredAll, List.foldl_nil, Array.appendList_nil]
  | cons v vs ih => exact (ih (values.push v)).trans (by simp)

theorem offered_printer (c : Channel) (v : Int64) :
    (printer c).offered v = .printer (leaves (c.writeValue v)) := by
  simp only [offered, take]
  cases c.writeValue v <;> rfl

theorem flush_printer (c : Channel) :
    (printer c).flushed = .printer (leaves c.flush) ∧
      (printer c).flushError? = failure? c.flush := by
  simp only [flushed, flushError?, flush]
  cases c.flush <;> exact ⟨rfl, rfl⟩

/-- A printer gives its channel a line for each value. -/
theorem offeredAll_printer {room : Option Nat} {c : Channel} {given : List UInt8}
    (h : c.Stands room given) (vs : List Int64) :
    ∃ c', (printer c).offeredAll vs = .printer c' ∧
      c'.Stands room (given ++ vs.flatMap Channel.line) := by
  induction vs generalizing c given with
  | nil => exact ⟨c, rfl, by rwa [List.flatMap_nil, List.append_nil]⟩
  | cons v vs ih =>
    obtain ⟨c', hAll, hStands⟩ := ih (h.write (Channel.line v)).1
    refine ⟨c', ?_, ?_⟩
    · rw [offeredAll, List.foldl_cons, offered_printer]
      exact hAll
    · rwa [List.flatMap_cons, ← List.append_assoc]

/-- **A printer that is flushed at the end has printed the lines of all values**, as far as there is
room, and the flush fails if there is not. -/
theorem flushed_printer {room : Option Nat} {c : Channel} (h : c.Fresh room) (vs : List Int64) :
    ∃ c', ((printer c).offeredAll vs).flushed = .printer c' ∧
      c'.received.toList = ByteSink.fitting room (vs.flatMap Channel.line) ∧
      (((printer c).offeredAll vs).flushError? = none ↔
        ∀ n, room = some n → (vs.flatMap Channel.line).length ≤ n) := by
  obtain ⟨c', hOffered, hStands⟩ := offeredAll_printer h.stands vs
  obtain ⟨hFlushed, hError⟩ := flush_printer c'
  obtain ⟨hReceived, hFailure⟩ := hStands.flush_eq
  rw [hOffered, hFlushed, hError]
  exact ⟨_, rfl, hReceived, hFailure⟩

/-- How often the device was flushed, if it counts that. -/
def flushes? : Device → Option Nat
  | .gauge _ _ flushes _ => some flushes
  | .printer channel => channel.flushes?
  | _ => none

theorem flushes?_offered (v : Int64) : (d.offered v).flushes? = d.flushes? := by
  unfold offered take
  cases d with
  | tape values => rfl
  | robot r traced => rfl
  | gauge values room flushes fails => rcases room with _ | _ | room <;> rfl
  | printer channel =>
    unfold Channel.writeValue Channel.write
    cases channel with
    | discard => rfl
    | memory received => rfl
    | buffered buffer =>
      simp only
      cases buffer.write (Channel.line v) <;> rfl
    | through sink flushes =>
      simp only
      cases sink.write (Channel.line v) <;> rfl

/-- Values do not count as flushes. -/
theorem flushes?_offeredAll (vs : List Int64) : (d.offeredAll vs).flushes? = d.flushes? := by
  induction vs generalizing d with
  | nil => rfl
  | cons v vs ih => exact (ih (d.offered v)).trans (d.flushes?_offered v)

theorem flushes?_flushed : d.flushed.flushes? = d.flushes?.map (· + 1) := by
  unfold flushed flush
  cases d with
  | tape values => rfl
  | robot r traced => rfl
  | gauge values room flushes fails => cases fails <;> rfl
  | printer channel =>
    unfold Channel.flush
    cases channel with
    | discard => rfl
    | memory received => rfl
    | buffered buffer =>
      simp only
      cases buffer.flush <;> rfl
    | through sink flushes => rfl

end Device

/-! ### The device at a place -/

namespace Outlet

/-- The device at a place. -/
def sink? (devices : Array Device) : Outlet → Option Device
  | .drain => none
  | .socket s => devices[s]?

/-- The devices with another one at a place. -/
def put (devices : Array Device) (d : Device) : Outlet → Array Device
  | .drain => devices
  | .socket s => devices.setIfInBounds s d

variable {devices : Array Device} {d d' : Device} {o o' : Outlet}

theorem sink?_put_self (h : o.sink? devices = some d) : o.sink? (o.put devices d') = some d' := by
  cases o with
  | drain => cases h
  | socket socket =>
    have hIn : socket < devices.size := (Array.getElem?_eq_some_iff.mp h).1
    simp only [sink?, put, Array.getElem?_setIfInBounds_self_of_lt hIn]

theorem size_put : (o.put devices d).size = devices.size := by
  cases o with
  | drain => rfl
  | socket s => exact Array.size_setIfInBounds

/-- The places do not share a device. -/
def Apart (o o' : Outlet) : Prop := o = .drain ∨ o ≠ o'

instance : Decidable (Apart o o') := inferInstanceAs (Decidable (_ ∨ _))

theorem Apart.symm (h : Apart o o') : Apart o' o := by
  rcases h with rfl | h
  · by_cases hDrain : o' = .drain
    · exact .inl hDrain
    · exact .inr hDrain
  · exact .inr h.symm

theorem Apart.sink?_put (h : Apart o o') : o'.sink? (o.put devices d) = o'.sink? devices := by
  rcases h with rfl | h
  · rfl
  · cases o with
    | drain => rfl
    | socket s =>
      cases o' with
      | drain => rfl
      | socket s' =>
        have hNe : s ≠ s' := fun hEq => h (congrArg socket hEq)
        simp only [sink?, put, Array.getElem?_setIfInBounds_ne hNe]

end Outlet

/-- No device is at two places. -/
def Distinct (outlets : List Outlet) : Prop := outlets.Pairwise Outlet.Apart

instance (outlets : List Outlet) : Decidable (Distinct outlets) :=
  inferInstanceAs (Decidable (List.Pairwise ..))

/-! ### Offering a value -/

namespace Bench

/-- Offers a value to devices in order.  Gives the first refusal, after which none is offered the
value any more. -/
def offerDevices (v : Int64) : List Outlet → Array Device → Option IoError × Array Device
  | [], devices => (none, devices)
  | o :: rest, devices =>
    match o.sink? devices with
    | none => offerDevices v rest devices
    | some d =>
      match d.refusal? v with
      | none => offerDevices v rest (o.put devices (d.offered v))
      | some e => (some e, o.put devices (d.offered v))

/-- How many places are offered a value. -/
def reached (v : Int64) : List Outlet → Array Device → Nat
  | [], _ => 0
  | o :: rest, devices =>
    match o.sink? devices with
    | none => reached v rest devices + 1
    | some d =>
      match d.refusal? v with
      | none => reached v rest (o.put devices (d.offered v)) + 1
      | some _ => 1

/-- A result without a value: there may be an error, and a state is left. -/
def result {ε σ : Type} (error? : Option ε) (s : σ) : EStateM.Result ε σ Unit :=
  match error? with
  | none => .ok () s
  | some e => .error e s

theorem detach?_eq (devices : Array Device) (socket : Socket) :
    detach? devices socket =
      (devices[socket]?).map fun d => (d, devices.setIfInBounds socket (.tape #[])) := by
  unfold detach?
  by_cases hIn : socket < devices.size
  · simp only [hIn, dif_pos, Array.getElem?_eq_getElem, Option.map_some, Array.setIfInBounds]
  · rw [dif_neg hIn, Array.getElem?_eq_none (Nat.le_of_not_lt hIn), Option.map_none]

/-- What an offer does to one place. -/
theorem offer_devices (v : Int64) (o : Outlet) (b : Bench) :
    ∃ journal, offer v o b = match o.sink? b.devices with
      | none => .ok () b
      | some d => result (d.refusal? v) { b with devices := o.put b.devices (d.offered v), journal }
      := by
  obtain ⟨input, output, devices, journal⟩ := b
  cases o with
  | drain => exact ⟨journal, rfl⟩
  | socket socket =>
    simp only [offer, detach?_eq, Outlet.sink?, Outlet.put]
    cases devices[socket]? with
    | none => exact ⟨journal, rfl⟩
    | some d =>
      simp only [Option.map_some, Device.refusal?, Device.offered,
        Array.setIfInBounds_setIfInBounds]
      cases d.take v with
      | error e d' => exact ⟨journal, rfl⟩
      | ok event d' =>
        cases event with
        | none => exact ⟨journal, rfl⟩
        | some event => exact ⟨journal.enterRobot event, rfl⟩

/-- **The bench offers a value to its devices in order**, and only the journal changes besides. -/
theorem offerAll_devices (v : Int64) (outlets : List Outlet) (b : Bench) :
    ∃ journal, offerAll v outlets b = result (offerDevices v outlets b.devices).1
      { b with devices := (offerDevices v outlets b.devices).2, journal } := by
  induction outlets generalizing b with
  | nil => exact ⟨b.journal, rfl⟩
  | cons o rest ih =>
    obtain ⟨journal, hOffer⟩ := offer_devices v o b
    unfold offerAll offerDevices
    rw [hOffer]
    cases o.sink? b.devices with
    | none => exact ih b
    | some d =>
      cases hRefusal : d.refusal? v with
      | some e => exact ⟨journal, by simp only [hRefusal, result]⟩
      | none => simpa only [hRefusal, result] using ih { b with devices := _, journal }

section

variable {v : Int64} {outlets : List Outlet} {devices : Array Device}

theorem size_offerDevices : (offerDevices v outlets devices).2.size = devices.size := by
  fun_induction offerDevices v outlets devices with
  | case1 => rfl
  | case2 o rest devices hSink ih => exact ih
  | case3 o rest devices d hSink hRefusal ih => exact ih.trans Outlet.size_put
  | case4 o rest devices d hSink e hRefusal => exact Outlet.size_put

theorem offerDevices_other {o : Outlet} (h : ∀ p ∈ outlets, o.Apart p) :
    o.sink? (offerDevices v outlets devices).2 = o.sink? devices := by
  fun_induction offerDevices v outlets devices with
  | case1 => rfl
  | case2 p rest devices hSink ih => exact ih fun q hq => h q (List.mem_cons_of_mem _ hq)
  | case3 p rest devices d hSink hRefusal ih =>
    rw [ih fun q hq => h q (List.mem_cons_of_mem _ hq)]
    exact (h p List.mem_cons_self).symm.sink?_put
  | case4 p rest devices d hSink e hRefusal => exact (h p List.mem_cons_self).symm.sink?_put

/-- **An offer changes the devices that it reaches, each by itself.** -/
theorem offerDevices_sink (hDistinct : Distinct outlets) {i : Nat} {o : Outlet}
    (ho : outlets[i]? = some o) :
    o.sink? (offerDevices v outlets devices).2 = (o.sink? devices).map fun d =>
      if i < reached v outlets devices then d.offered v else d := by
  induction outlets generalizing i devices with
  | nil => cases ho
  | cons p rest ih =>
    obtain ⟨hApart, hRest⟩ := List.pairwise_cons.mp hDistinct
    unfold offerDevices reached
    cases hSink : p.sink? devices with
    | none =>
      cases i with
      | zero =>
        -- No place behind `p` shares its device.
        cases ho
        simp only [offerDevices_other hApart, hSink, Option.map_none]
      | succ i => simpa only [Nat.add_lt_add_iff_right] using ih hRest ho
    | some d =>
      cases hRefusal : d.refusal? v with
      | none =>
        cases i with
        | zero =>
          cases ho
          simp only [hRefusal, offerDevices_other hApart, Outlet.sink?_put_self hSink, hSink,
            Option.map_some, Nat.succ_pos, if_true]
        | succ i =>
          have hHere : o.sink? (p.put devices (d.offered v)) = o.sink? devices :=
            (hApart o (List.mem_of_getElem? ho)).sink?_put
          simpa only [hRefusal, Nat.add_lt_add_iff_right, hHere] using
            @ih (p.put devices (d.offered v)) hRest i ho
      | some e =>
        cases i with
        | zero =>
          cases ho
          simp only [hRefusal, Outlet.sink?_put_self hSink, hSink, Option.map_some, Nat.one_pos,
            if_true]
        | succ i =>
          have hHere : o.sink? (p.put devices (d.offered v)) = o.sink? devices :=
            (hApart o (List.mem_of_getElem? ho)).sink?_put
          have hLate : ¬i + 1 < 1 := by omega
          simp only [hRefusal, hHere, if_neg hLate, Option.map_id']

/-- **A value reaches all places, or it is refused by the last one that it reaches.** -/
theorem offerDevices_cases (hDistinct : Distinct outlets) (v : Int64) (devices : Array Device) :
    (offerDevices v outlets devices).1 = none ∧ reached v outlets devices = outlets.length ∨
    ∃ r o d e, (offerDevices v outlets devices).1 = some e ∧
      reached v outlets devices = r + 1 ∧ outlets[r]? = some o ∧ o.sink? devices = some d ∧
      d.refusal? v = some e := by
  induction outlets generalizing devices with
  | nil => exact .inl ⟨rfl, rfl⟩
  | cons p rest ih =>
    obtain ⟨hApart, hRest⟩ := List.pairwise_cons.mp hDistinct
    unfold offerDevices reached
    cases hSink : p.sink? devices with
    | none =>
      rcases ih hRest devices with ⟨hNone, hAll⟩ | ⟨r, o, d, e, hSome, hReached, ho, hd, hRefusal⟩
      · exact .inl ⟨hNone, congrArg Nat.succ hAll⟩
      · exact .inr ⟨r + 1, o, d, e, hSome, congrArg Nat.succ hReached, ho, hd, hRefusal⟩
    | some d =>
      cases hRefusal : d.refusal? v with
      | none =>
        rcases ih hRest (p.put devices (d.offered v)) with
          ⟨hNone, hAll⟩ | ⟨r, o, d', e, hSome, hReached, ho, hd, hRefusal'⟩
        · simp only [hRefusal]
          exact .inl ⟨hNone, congrArg Nat.succ hAll⟩
        · simp only [hRefusal]
          rw [(hApart o (List.mem_of_getElem? ho)).sink?_put] at hd
          exact .inr ⟨r + 1, o, d', e, hSome, congrArg Nat.succ hReached, ho, hd, hRefusal'⟩
      | some e =>
        simp only [hRefusal]
        exact .inr ⟨0, p, d, e, rfl, rfl, rfl, hSink, hRefusal⟩

end

/-! ### Flushing -/

/-- Flushes all devices in order.  Gives the first failure. -/
def flushDevices : List Outlet → Array Device → Option IoError × Array Device
  | [], devices => (none, devices)
  | o :: rest, devices =>
    match o.sink? devices with
    | none => flushDevices rest devices
    | some d =>
      (d.flushError?.or (flushDevices rest (o.put devices d.flushed)).1,
        (flushDevices rest (o.put devices d.flushed)).2)

theorem flushOutlet_devices (o : Outlet) (b : Bench) :
    flushOutlet o b = match o.sink? b.devices with
      | none => .ok () b
      | some d => result d.flushError? { b with devices := o.put b.devices d.flushed } := by
  cases o with
  | drain => rfl
  | socket socket =>
    simp only [flushOutlet, detach?_eq, Outlet.sink?, Outlet.put]
    cases b.devices[socket]? with
    | none => rfl
    | some d =>
      simp only [Option.map_some, Device.flushError?, Device.flushed,
        Array.setIfInBounds_setIfInBounds]
      cases d.flush <;> rfl

/-- **The bench flushes its devices in order**, and nothing else changes. -/
theorem flushAll_devices (outlets : List Outlet) (b : Bench) :
    flushAll outlets b = ((flushDevices outlets b.devices).1,
      { b with devices := (flushDevices outlets b.devices).2 }) := by
  induction outlets generalizing b with
  | nil => rfl
  | cons o rest ih =>
    unfold flushAll flushDevices
    rw [flushOutlet_devices]
    cases o.sink? b.devices with
    | none => exact ih b
    | some d =>
      cases hError : d.flushError? with
      | none => simp only [hError, result, ih, Option.none_or]
      | some e => simp only [hError, result, ih, Option.some_or]

section

variable {outlets : List Outlet} {devices : Array Device}

theorem size_flushDevices : (flushDevices outlets devices).2.size = devices.size := by
  fun_induction flushDevices outlets devices with
  | case1 => rfl
  | case2 o rest devices hSink ih => exact ih
  | case3 o rest devices d hSink ih => exact ih.trans Outlet.size_put

theorem flushDevices_other {o : Outlet} (h : ∀ p ∈ outlets, o.Apart p) :
    o.sink? (flushDevices outlets devices).2 = o.sink? devices := by
  fun_induction flushDevices outlets devices with
  | case1 => rfl
  | case2 p rest devices hSink ih => exact ih fun q hq => h q (List.mem_cons_of_mem _ hq)
  | case3 p rest devices d hSink ih =>
    rw [ih fun q hq => h q (List.mem_cons_of_mem _ hq)]
    exact (h p List.mem_cons_self).symm.sink?_put

/-- **Every device is flushed once**, whether others fail or not. -/
theorem flushDevices_sink (hDistinct : Distinct outlets) {o : Outlet} (ho : o ∈ outlets) :
    o.sink? (flushDevices outlets devices).2 = (o.sink? devices).map Device.flushed := by
  induction outlets generalizing devices with
  | nil => cases ho
  | cons p rest ih =>
    obtain ⟨hApart, hRest⟩ := List.pairwise_cons.mp hDistinct
    unfold flushDevices
    cases hSink : p.sink? devices with
    | none =>
      rcases List.mem_cons.mp ho with rfl | ho
      · simp only [flushDevices_other hApart, hSink, Option.map_none]
      · exact ih hRest ho
    | some d =>
      rcases List.mem_cons.mp ho with rfl | ho
      · simp only [flushDevices_other hApart, Outlet.sink?_put_self hSink, hSink, Option.map_some]
      · simp only [ih hRest ho, (hApart o ho).sink?_put]

/-- The first failure counts. -/
theorem flushDevices_error (hDistinct : Distinct outlets) :
    (flushDevices outlets devices).1 =
      outlets.findSome? fun o => (o.sink? devices).bind Device.flushError? := by
  induction outlets generalizing devices with
  | nil => rfl
  | cons p rest ih =>
    obtain ⟨hApart, hRest⟩ := List.pairwise_cons.mp hDistinct
    unfold flushDevices
    rw [List.findSome?_cons]
    cases hSink : p.sink? devices with
    | none => exact ih hRest
    | some d =>
      have hSame : ∀ o ∈ rest, o.sink? (p.put devices d.flushed) = o.sink? devices :=
        fun o ho => (hApart o ho).sink?_put
      have hRestErrors : (rest.findSome? fun o =>
          (o.sink? (p.put devices d.flushed)).bind Device.flushError?) =
          rest.findSome? fun o => (o.sink? devices).bind Device.flushError? := by
        rw [← List.head?_filterMap, ← List.head?_filterMap]
        exact congrArg List.head? (List.filterMap_congr fun o ho => by rw [hSame o ho])
      simp only [ih hRest, hRestErrors, Option.bind_some]
      cases d.flushError? <;> rfl

end

end Bench

end HullRobot
