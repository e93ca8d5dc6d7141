import HullRobot.Proofs.Machine.Runs

/-!
# Sinks stay together

All sinks of a machine are offered the same values.  Only the last value of a run may fail to reach
some of them: if a sink refuses it, the sinks behind are not offered it any more.

* `Wiring`: outputs joined in any nesting.  `outlets_output`: the places come from left to right.
* `offers`: what one place is offered.  `Ends.offers_cases`: **all places are offered the same, or
  the run ends with a refusal.**
* `Ends.sink_eq`: a device is changed by what it is offered, and by nothing else.
* `sinks_stay_together`: so sinks never drift apart, and each is flushed once.
-/

namespace HullRobot

/-! ### Joined outputs -/

/-- Outputs joined in any nesting. -/
inductive Wiring where
  | nothing
  | place (outlet : Outlet)
  | join (a b : Wiring)

namespace Wiring

def output : Wiring → Output
  | .nothing => .absent
  | .place outlet => .single outlet
  | .join a b => a.output.join b.output

/-- The places from left to right. -/
def places : Wiring → List Outlet
  | .nothing => []
  | .place outlet => [outlet]
  | .join a b => a.places ++ b.places

end Wiring

theorem Output.outlets_ofOutlets (outlets : List Outlet) :
    (ofOutlets outlets).outlets = outlets := by
  rcases outlets with _ | ⟨o, _ | ⟨o', rest⟩⟩ <;> rfl

theorem Wiring.outlets_output (w : Wiring) : w.output.outlets = w.places := by
  induction w with
  | nothing => rfl
  | place outlet => rfl
  | join a b iha ihb =>
    simp only [output, Output.join, Output.outlets_ofOutlets, iha, ihb, places]

namespace Machine

variable {m m' : Machine}

/-- A machine is wired by its setups, from the last output on. -/
theorem setUpAll_wired (m : Machine) (w : Wiring) (tees : List Wiring) :
    ∃ m', m.setUpAll (.output w.output :: tees.map fun t => .tee t.output) = .ok () m' ∧
      m'.bench.output = (tees.foldl .join w).output := by
  have hTees : ∀ (w : Wiring) (m : Machine), m.bench.output = w.output →
      ∃ m', m.setUpAll (tees.map fun t => .tee t.output) = .ok () m' ∧
        m'.bench.output = (tees.foldl .join w).output := by
    induction tees with
    | nil => exact fun w m hOutput => ⟨m, rfl, hOutput⟩
    | cons t tees ih =>
      intro w m hOutput
      exact ih (w.join t) _ (congrArg (Output.join · t.output) hOutput)
  exact hTees w _ rfl

end Machine

/-! ### Devices among others -/

namespace Bench

variable {v : Int64} {outlets : List Outlet} {devices : Array Device}

theorem reached_of_taken (hDistinct : Distinct outlets)
    (h : (offerDevices v outlets devices).1 = none) :
    reached v outlets devices = outlets.length := by
  rcases offerDevices_cases hDistinct v devices with ⟨-, hAll⟩ | ⟨r, o, d, e, hSome, -⟩
  · exact hAll
  · rw [h] at hSome
    cases hSome

/-- **Values that are all taken change every device by themselves.** -/
theorem tellDevices_sink (hDistinct : Distinct outlets) {vs : List Int64}
    (hTaken : Taken outlets vs devices) {o : Outlet} (ho : o ∈ outlets) :
    o.sink? (tellDevices outlets vs devices) = (o.sink? devices).map (·.offeredAll vs) := by
  obtain ⟨i, hi⟩ := List.getElem?_of_mem ho
  have hBound : i < outlets.length := (List.getElem?_eq_some_iff.mp hi).1
  induction vs generalizing devices with
  | nil => simp only [tellDevices, List.foldl_nil, Device.offeredAll, Option.map_id']
  | cons v vs ih =>
    obtain ⟨hFirst, hRest⟩ := hTaken
    have hOne := @offerDevices_sink v outlets devices hDistinct i o hi
    rw [reached_of_taken hDistinct hFirst] at hOne
    simp only [if_pos hBound] at hOne
    rw [tellDevices, List.foldl_cons]
    refine (ih hRest).trans ?_
    rw [hOne, Option.map_map]
    rfl

end Bench

namespace Machine

variable {m m' : Machine}

/-! ### What one place is offered -/

/-- The values that place number `i` of the output is offered within `n` steps. -/
def offers (i : Nat) : Nat → Machine → List Int64
  | 0, _ => []
  | n + 1, m =>
    (m.emits.filter fun v => i < Bench.reached v m.bench.output.outlets m.bench.devices) ++
    match step m with
    | .ok () m' => offers i n m'
    | .error .. => []

theorem offers_succ_ok (h : step m = .ok () m') (i n : Nat) :
    m.offers i (n + 1) =
      (m.emits.filter fun v => i < Bench.reached v m.bench.output.outlets m.bench.devices) ++
        m'.offers i n := by
  simp only [offers, h]

theorem offers_succ_error {stop : Stop} (h : step m = .error stop m') (i n : Nat) :
    m.offers i (n + 1) =
      m.emits.filter fun v => i < Bench.reached v m.bench.output.outlets m.bench.devices := by
  simp only [offers, h, List.append_nil]

theorem offers_add {k : Nat} (h : stepTimes k m = (none, m')) (i n : Nat) :
    m.offers i (k + n) = m.offers i k ++ m'.offers i n := by
  induction k generalizing m with
  | zero =>
    cases h
    rw [Nat.zero_add]
    rfl
  | succ k ih =>
    obtain ⟨m₁, hStep, hRest⟩ := stepTimes_succ_none h
    rw [Nat.succ_add, offers_succ_ok hStep, offers_succ_ok hStep, ih hRest, List.append_assoc]

theorem emits_cases (m : Machine) : m.emits = [] ∨ ∃ v, m.emits = [v] := by
  unfold emits emitted
  split
  · exact .inr ⟨_, rfl⟩
  · exact .inl rfl

/-- As long as steps succeed, all places are offered what the machine emits. -/
theorem offers_eq_told {n : Nat} (h : stepTimes n m = (none, m'))
    (hDistinct : Distinct m.bench.output.outlets) {i : Nat}
    (hi : i < m.bench.output.outlets.length) : m.offers i n = m.told n := by
  induction n generalizing m with
  | zero => rfl
  | succ n ih =>
    obtain ⟨m₁, hStep, hRest⟩ := stepTimes_succ_none h
    obtain ⟨-, -, -, hPassed⟩ := step_ok_frame hStep
    have hHere : (m.emits.filter fun v =>
        i < Bench.reached v m.bench.output.outlets m.bench.devices) = m.emits := by
      have hTaken := hPassed.taken
      rcases m.emits_cases with hEmits | ⟨v, hEmits⟩
      · rw [hEmits]
        rfl
      · rw [hEmits] at hTaken ⊢
        rw [List.filter_singleton, Bench.reached_of_taken hDistinct hTaken.1]
        simp [hi]
    rw [← hPassed.output_eq] at hDistinct hi
    rw [offers_succ_ok hStep, told_succ_ok hStep, hHere, ih hRest hDistinct hi]

/-! ### The end of a run -/

section

variable {reason : RunError} {budget : Nat} {cause : Option RunError} {last : Machine}

/-- **All places are offered the same, or the run ends because a sink refused a value**: then the
places up to that sink are offered the value, and those behind it are not. -/
theorem Ends.offers_cases (h : Ends m reason budget cause last)
    (hDistinct : Distinct m.bench.output.outlets) :
    (∃ vs, ∀ i < m.bench.output.outlets.length, m.offers i budget = vs) ∨
    ∃ r o d v vs a e, m.bench.output.outlets[r]? = some o ∧ o.sink? m.bench.devices = some d ∧
      (d.offeredAll vs).refusal? v = some e ∧ cause = some (.exec a (.output e)) ∧
      ∀ i < m.bench.output.outlets.length, m.offers i budget = if i ≤ r then vs ++ [v] else vs := by
  cases h with
  | canceled hReach => exact .inl ⟨m.told budget, fun i hi => offers_eq_told hReach hDistinct hi⟩
  | @stopped n before last cause hWithin hReach hStep hClosing hCause =>
    obtain ⟨-, -, -, hPassed⟩ := stepTimes_frame hReach
    have hOffers : ∀ i < m.bench.output.outlets.length, m.offers i budget = m.told n ++
        before.emits.filter fun v =>
          i < Bench.reached v m.bench.output.outlets before.bench.devices := by
      intro i hi
      obtain ⟨rest, rfl⟩ : ∃ k, budget = n + (k + 1) := ⟨budget - n - 1, by omega⟩
      rw [offers_add hReach, offers_eq_told hReach hDistinct hi, offers_succ_error hStep,
        hPassed.output_eq]
    rcases hClosing.refused with ⟨v, a, e, hEmits, hOutput, hRefused⟩ | ⟨hNone, -⟩
    · rw [hPassed.output_eq] at hRefused
      rcases Bench.offerDevices_cases hDistinct v before.bench.devices with
        ⟨hTaken, -⟩ | ⟨r, o, d', e', hSome, hReached, ho, hd', hRefusal⟩
      · rw [hTaken] at hRefused
        cases hRefused
      · have he : e' = e := Option.some.inj (hSome.symm.trans hRefused)
        rw [hPassed.devices_eq, Bench.tellDevices_sink hDistinct hPassed.taken
          (List.mem_of_getElem? ho)] at hd'
        obtain ⟨d, hd, rfl⟩ := Option.map_eq_some_iff.mp hd'
        refine .inr ⟨r, o, d, v, m.told n, a, e, ho, hd, he ▸ hRefusal, hOutput, fun i hi => ?_⟩
        rw [hOffers i hi, hEmits, List.filter_singleton, hReached]
        by_cases hBehind : i ≤ r
        · simp only [hBehind, Nat.lt_succ_of_le, decide_true, cond_true, if_true]
        · simp only [hBehind, Nat.lt_succ_iff, decide_false, cond_false, if_false, List.append_nil]
    · refine .inl ⟨m.told n, fun i hi => ?_⟩
      rw [hOffers i hi, hNone, List.filter_nil, List.append_nil]

/-- What the sinks are offered: the same, up to the last value. -/
theorem Ends.offers_prefix (h : Ends m reason budget cause last)
    (hDistinct : Distinct m.bench.output.outlets) {i : Nat}
    (hi : i + 1 < m.bench.output.outlets.length) :
    m.offers (i + 1) budget <+: m.offers i budget ∧
      (m.offers i budget).length ≤ (m.offers (i + 1) budget).length + 1 := by
  rcases h.offers_cases hDistinct with ⟨vs, hAll⟩ | ⟨r, o, d, v, vs, a, e, -, -, -, -, hAll⟩
  · rw [hAll i (by omega), hAll (i + 1) hi]
    exact ⟨List.prefix_refl vs, Nat.le_succ _⟩
  · rw [hAll i (by omega), hAll (i + 1) hi]
    rcases Nat.lt_trichotomy i r with hBefore | hHere | hBehind
    · rw [if_pos (by omega), if_pos (by omega)]
      exact ⟨List.prefix_refl _, Nat.le_succ _⟩
    · rw [if_neg (by omega), if_pos (by omega), List.length_append]
      exact ⟨List.prefix_append vs [v], Nat.le_refl _⟩
    · rw [if_neg (by omega), if_neg (by omega)]
      exact ⟨List.prefix_refl vs, Nat.le_succ _⟩

/-- **A device is changed by the values that its place is offered, and by nothing else.** -/
theorem Ends.sink_eq (h : Ends m reason budget cause last)
    (hDistinct : Distinct m.bench.output.outlets) {i : Nat} {o : Outlet}
    (ho : m.bench.output.outlets[i]? = some o) :
    o.sink? last.bench.devices =
      (o.sink? m.bench.devices).map (·.offeredAll (m.offers i budget)) := by
  have hi : i < m.bench.output.outlets.length := (List.getElem?_eq_some_iff.mp ho).1
  cases h with
  | canceled hReach =>
    obtain ⟨-, -, -, hPassed⟩ := stepTimes_frame hReach
    rw [hPassed.devices_eq, Bench.tellDevices_sink hDistinct hPassed.taken
      (List.mem_of_getElem? ho), offers_eq_told hReach hDistinct hi]
  | @stopped n before last cause hWithin hReach hStep hClosing hCause =>
    obtain ⟨-, -, -, hPassed⟩ := stepTimes_frame hReach
    have hBefore : o.sink? before.bench.devices =
        (o.sink? m.bench.devices).map (·.offeredAll (m.told n)) := by
      rw [hPassed.devices_eq, Bench.tellDevices_sink hDistinct hPassed.taken
        (List.mem_of_getElem? ho)]
    obtain ⟨rest, rfl⟩ : ∃ k, budget = n + (k + 1) := ⟨budget - n - 1, by omega⟩
    rw [offers_add hReach, offers_eq_told hReach hDistinct hi, offers_succ_error hStep,
      hClosing.devices_eq, hPassed.output_eq]
    -- The last step may offer one more value, but only to the places that it reaches.
    rcases before.emits_cases with hEmits | ⟨v, hEmits⟩
    · rw [hEmits, List.filter_nil, List.append_nil, ← hBefore]
      rfl
    · have hLast := @Bench.offerDevices_sink v _ before.bench.devices hDistinct i o ho
      rw [hEmits, List.filter_singleton]
      refine hLast.trans ?_
      rw [hBefore, Option.map_map]
      refine congrArg (Option.map · _) (funext fun d => ?_)
      by_cases hReached : i < Bench.reached v m.bench.output.outlets before.bench.devices
      · simp only [hReached, decide_true, cond_true, if_true, Device.offeredAll_append]
        rfl
      · simp only [hReached, decide_false, cond_false, if_false, List.append_nil]
        rfl

/-- The first flush that fails, in the order of the places. -/
theorem Ends.flush_error (h : Ends m reason budget cause last)
    (hDistinct : Distinct m.bench.output.outlets) :
    last.bench.flush.1 = m.bench.output.outlets.zipIdx.findSome? fun (o, i) =>
      (o.sink? m.bench.devices).bind fun d => (d.offeredAll (m.offers i budget)).flushError? := by
  have hHere : ∀ p ∈ m.bench.output.outlets.zipIdx,
      (p.1.sink? last.bench.devices).bind Device.flushError? =
        (p.1.sink? m.bench.devices).bind fun d =>
          (d.offeredAll (m.offers p.2 budget)).flushError? := by
    intro p hp
    rw [h.sink_eq hDistinct (List.mem_zipIdx_iff_getElem?.mp hp), Option.bind_map]
    rfl
  rw [Bench.flush, Bench.flushAll_devices, h.sinks.1, Bench.flushDevices_error hDistinct]
  -- Each place needs its number, since the values that it was offered depend on that.
  nth_rewrite 1 [← List.zipIdx_map_fst 0 m.bench.output.outlets]
  rw [List.findSome?_map, ← List.head?_filterMap, ← List.head?_filterMap]
  exact congrArg List.head? (List.filterMap_congr hHere)

end

/-! ### Whole runs -/

/-- What a run leaves of the device at a place, if it did not crash. -/
theorem run_sink {budget : Nat} (hReady : m.refusal? = none) (reason : RunError)
    (hSafe : ∀ crash m', stepTimes budget m ≠ (some (.crash crash), m'))
    (hDistinct : Distinct m.bench.output.outlets) {i : Nat} {o : Outlet}
    (ho : m.bench.output.outlets[i]? = some o) :
    o.sink? (m.run ⟨budget, reason⟩).2.bench.devices = (o.sink? m.bench.devices).map fun d =>
      (d.offeredAll (m.offers i budget)).flushed := by
  obtain ⟨cause, last, hEnds, -, hState⟩ := run_ends hReady reason hSafe
  have hDevices : (m.run ⟨budget, reason⟩).2.bench.devices = last.bench.flush.2.devices :=
    congrArg (·.bench.devices) hState
  rw [hDevices, Bench.flush, Bench.flushAll_devices, hEnds.sinks.1,
    Bench.flushDevices_sink hDistinct (List.mem_of_getElem? ho), hEnds.sink_eq hDistinct ho,
    Option.map_map]
  rfl

theorem refusal?_of_run {patience : Patience} (h : (m.run patience).1 = none) :
    m.refusal? = none := by
  cases hRefusal : m.refusal? with
  | none => rfl
  | some e =>
    rw [run_of_refusal hRefusal] at h
    cases h

theorem not_crash_of_run {patience : Patience} (hReady : m.refusal? = none)
    (h : ∀ failure, (m.run patience).1 = some failure → failure.isCrash = false) :
    ∀ crash m', stepTimes patience.budget m ≠ (some (.crash crash), m') := by
  intro crash m' hSteps
  exact Bool.noConfusion (h _ (run_stopped hReady patience.reason hSteps).1)

/-- When a run comes to its end without a cause, the sinks have taken all that it emits. -/
theorem Ends.passed {reason : RunError} {budget : Nat} {last : Machine}
    (h : Ends m reason budget none last) : Bench.Passed (m.told budget) m.bench last.bench := by
  cases h with
  | @stopped n before _ _ hWithin hReach hStep hClosing hCause =>
    obtain ⟨-, -, -, hPassed⟩ := stepTimes_frame hReach
    obtain ⟨rest, rfl⟩ : ∃ k, budget = n + (k + 1) := ⟨budget - n - 1, by omega⟩
    rw [told_add hReach, told_succ_error hStep]
    refine hPassed.trans ⟨hClosing.output_eq, hClosing.devices_eq, ?_⟩
    rw [hClosing.eq_nil]
    trivial

/-- **A run without an error leaves all devices with what it emits**, if all of them are sinks, and
all of them could be flushed. -/
theorem run_clean {patience : Patience}
    (hAll : m.bench.output.outlets = (List.range m.bench.devices.size).map .socket)
    (h : (m.run patience).1 = none) :
    (m.run patience).2.bench.devices =
      m.bench.devices.map (fun d => (d.offeredAll (m.told patience.budget)).flushed) ∧
    ∀ d ∈ m.bench.devices, (d.offeredAll (m.told patience.budget)).flushError? = none := by
  have hReady := refusal?_of_run h
  have hSafe := not_crash_of_run hReady fun failure hSome => by rw [h] at hSome; cases hSome
  have hDistinct : Distinct m.bench.output.outlets := by
    rw [hAll, Distinct, List.pairwise_map]
    refine List.pairwise_lt_range.imp fun hLt => .inr fun hEq => ?_
    exact absurd (Outlet.socket.inj hEq) (Nat.ne_of_lt hLt)
  obtain ⟨cause, last, hEnds, hResult, hState⟩ := run_ends hReady patience.reason hSafe
  have hError : last.lastError cause = none :=
    Option.map_eq_none_iff.mp (hResult.symm.trans h)
  obtain ⟨rfl, hFlush⟩ : cause = none ∧ last.bench.flush.1 = none := by
    cases cause with
    | none => exact ⟨rfl, Option.map_eq_none_iff.mp hError⟩
    | some e => cases hError
  have hPassed := hEnds.passed
  have hHere : ∀ s < m.bench.devices.size, .socket s ∈ m.bench.output.outlets := by
    intro s hs
    rw [hAll]
    exact List.mem_map_of_mem (List.mem_range.mpr hs)
  have hTold : ∀ s < m.bench.devices.size, last.bench.devices[s]? =
      (m.bench.devices[s]?).map (·.offeredAll (m.told patience.budget)) := by
    intro s hs
    rw [hPassed.devices_eq]
    exact Bench.tellDevices_sink hDistinct hPassed.taken (hHere s hs)
  constructor
  · have hDevices : (m.run patience).2.bench.devices = last.bench.flush.2.devices :=
      congrArg (·.bench.devices) hState
    rw [hDevices, Bench.flush, Bench.flushAll_devices, hPassed.output_eq]
    refine Array.ext_getElem? fun s => ?_
    rw [Array.getElem?_map]
    by_cases hs : s < m.bench.devices.size
    · refine (Bench.flushDevices_sink hDistinct (hHere s hs)).trans ?_
      rw [Outlet.sink?, hTold s hs, Option.map_map]
      rfl
    · rw [Array.getElem?_eq_none (Nat.le_of_not_lt hs), Array.getElem?_eq_none, Option.map_none]
      rw [Bench.size_flushDevices, hPassed.devices_eq, Bench.size_tellDevices]
      exact Nat.le_of_not_lt hs
  · intro d hd
    obtain ⟨s, hs, rfl⟩ := Array.getElem_of_mem hd
    rw [Bench.flush, Bench.flushAll_devices, hPassed.output_eq, Bench.flushDevices_error hDistinct,
      List.findSome?_eq_none_iff] at hFlush
    have hNone := hFlush _ (hHere s hs)
    rw [Outlet.sink?, hTold s hs, Array.getElem?_eq_getElem hs] at hNone
    exact hNone

/-- **Sinks never drift apart.**  However the sinks of a machine are joined, and however its run
ends, each sink is offered what the sink in front of it is offered, up to the last value; and that
is missing only behind a sink that refused it.  In the end every sink is flushed once, and the run
gives what stopped it, or else the first flush that failed. -/
theorem sinks_stay_together (m : Machine) (w : Wiring) (patience : Patience)
    (hOutput : m.bench.output = w.output) (hDistinct : Distinct w.places)
    (hReady : m.refusal? = none)
    (hSafe : ∀ failure, (m.run patience).1 = some failure → failure.isCrash = false) :
    let out := m.run patience
    let offered := fun i => m.offers i patience.budget
    (∀ i, i + 1 < w.places.length →
      offered (i + 1) <+: offered i ∧ (offered i).length ≤ (offered (i + 1)).length + 1) ∧
    (∀ (i : Nat) (o : Outlet) (d : Device), w.places[i]? = some o →
      o.sink? m.bench.devices = some d →
      o.sink? out.2.bench.devices = some (d.offeredAll (offered i)).flushed ∧
      (d.offeredAll (offered i)).flushed.flushes? = d.flushes?.map (· + 1)) ∧
    (∀ (i : Nat) (s : Socket) (values : Array Int64), w.places[i]? = some (.socket s) →
      m.bench.devices[s]? = some (.tape values) →
      out.2.bench.devices[s]? = some (.tape (values ++ offered i))) ∧
    ∃ cause last, Ends m patience.reason patience.budget cause last ∧
      out.1 = (cause.or ((w.places.zipIdx.findSome? fun (o, i) =>
        (o.sink? m.bench.devices).bind fun d =>
          (d.offeredAll (offered i)).flushError?).map .flush)).map .plain ∧
      ((∃ vs, ∀ i < w.places.length, offered i = vs) ∨
        ∃ r o d v vs a e, w.places[r]? = some o ∧ o.sink? m.bench.devices = some d ∧
          (d.offeredAll vs).refusal? v = some e ∧ cause = some (.exec a (.output e)) ∧
          ∀ i < w.places.length, offered i = if i ≤ r then vs ++ [v] else vs) := by
  intro out offered
  have hPlaces : m.bench.output.outlets = w.places := by rw [hOutput, w.outlets_output]
  rw [← hPlaces] at hDistinct ⊢
  have hNoCrash := not_crash_of_run hReady hSafe
  obtain ⟨cause, last, hEnds, hResult, -⟩ := run_ends hReady patience.reason hNoCrash
  have hSink : ∀ (i : Nat) (o : Outlet) (d : Device), m.bench.output.outlets[i]? = some o →
      o.sink? m.bench.devices = some d →
      o.sink? out.2.bench.devices = some (d.offeredAll (offered i)).flushed := by
    intro i o d ho hd
    refine (run_sink hReady patience.reason hNoCrash hDistinct ho).trans ?_
    rw [hd]
    rfl
  refine ⟨fun i hi => hEnds.offers_prefix hDistinct hi, fun i o d ho hd => ⟨hSink i o d ho hd, ?_⟩,
    fun i s values ho hd => (hSink i _ _ ho hd).trans ?_, cause, last, hEnds, ?_,
    hEnds.offers_cases hDistinct⟩
  · rw [Device.flushes?_flushed, Device.flushes?_offeredAll]
  · rw [Device.offeredAll_tape]
    rfl
  · rw [← hEnds.flush_error hDistinct]
    exact hResult.trans (by rw [lastError, Option.orElse_eq_orElse, Option.orElse_eq_or])

/-- A program that emits 7 for ever.  The sink in the middle takes one value, refuses the next and
cannot be flushed. -/
theorem sinks_stay_together_refusal :
    let blank : Machine :=
      { memory := { pageSize := 8, extents := #[⟨0, 8⟩],
                    blocks := #[#[104, 7, 1106, 0, 0, 0, 0, 0]] },
        bench := { devices := #[.tape #[], .gauge #[] (some 1) 0 true, .tape #[]] } }
    let m : Machine :=
      { blank with bench := { blank.bench with
          output := .several [.socket 0, .socket 1, .socket 2] } }
    let tees := [.join (.place (.socket 1)) .nothing, .place (.socket 2)]
    let w : Wiring := tees.foldl .join (.place (.socket 0))
    let out := m.run ⟨9, .canceled⟩
    blank.setUpAll (.output (.single (.socket 0)) :: tees.map fun t => .tee t.output) = .ok () m ∧
      m.bench.output = w.output ∧ Distinct w.places ∧ m.refusal? = none ∧
      out.1 = some (.plain (.exec 0 (.output .sinkFull))) ∧
      m.offers 0 9 = [7, 7] ∧ m.offers 1 9 = [7, 7] ∧ m.offers 2 9 = [7] ∧
      out.2.bench.devices[0]? = some (.tape #[7, 7]) ∧
      out.2.bench.devices[1]? = some (.gauge #[7] (some 0) 1 true) ∧
      out.2.bench.devices[2]? = some (.tape #[7]) := by
  intro blank m tees w out
  obtain ⟨m', hSetUp, hWired⟩ := setUpAll_wired blank (.place (.socket 0)) tees
  have hSetUp' : blank.setUpAll (.output (.single (.socket 0)) :: tees.map fun t => .tee t.output) =
      .ok () m := rfl
  have hOutput : m.bench.output = w.output := by
    cases hSetUp'.symm.trans hSetUp
    exact hWired
  have hDistinct : Distinct w.places := by decide
  have hReady : m.refusal? = none := by decide
  have hResult : out.1 = some (.plain (.exec 0 (.output .sinkFull))) := by decide +kernel
  have hSafe : ∀ failure, out.1 = some failure → failure.isCrash = false := by
    intro failure hFailure
    cases hResult.symm.trans hFailure
    rfl
  have hOffers : m.offers 0 9 = [7, 7] ∧ m.offers 1 9 = [7, 7] ∧ m.offers 2 9 = [7] := by
    decide +kernel
  obtain ⟨-, hSinks, hTapes, -⟩ :=
    sinks_stay_together m w ⟨9, .canceled⟩ hOutput hDistinct hReady hSafe
  have hFirst := hTapes 0 0 #[] rfl rfl
  have hSecond := (hSinks 1 (.socket 1) _ rfl rfl).1
  have hThird := hTapes 2 2 #[] rfl rfl
  simp only [hOffers] at hFirst hSecond hThird
  exact ⟨hSetUp', hOutput, hDistinct, hReady, hResult, hOffers.1, hOffers.2.1, hOffers.2.2, hFirst,
    hSecond, hThird⟩

end Machine

end HullRobot
