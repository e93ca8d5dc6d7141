import HullRobot.Proofs.Machine.Together

/-!
# Joins of outputs

Outputs are joined two by two, and the join of joins has all their places in a row.

* `Wiring.output_eq`: **of joined outputs only the places count, from left to right.**
* `Takes v places b b'`: the places take a value one after the other.  `offerAll_cases`: a value is
  taken by all places, or by those before the first that refuses it.
* `Flushes places b failures b'`: the places are flushed one after the other, whether some fail or
  not.  `flushAll_flushes`: that is what a flush does.
* `joins_are_flat`: joins as outputs of a bench.
-/

namespace HullRobot

namespace Output

theorem join_ofOutlets (places places' : List Outlet) :
    (ofOutlets places).join (ofOutlets places') = ofOutlets (places ++ places') := by
  rw [join, outlets_ofOutlets, outlets_ofOutlets]

theorem ofOutlets_several {places : List Outlet} (h : 2 ≤ places.length) :
    ofOutlets places = .several places := by
  match places with
  | [] => cases h
  | [_] => exact absurd h (Nat.not_succ_le_self 1)
  | _ :: _ :: _ => rfl

theorem ofOutlets_ne_absent {places : List Outlet} (h : places ≠ []) :
    ofOutlets places ≠ .absent := by
  intro hAbsent
  apply h
  rw [← outlets_ofOutlets places, hAbsent]
  rfl

end Output

/-- **Of joined outputs only the places count, from left to right.** -/
theorem Wiring.output_eq (w : Wiring) : w.output = .ofOutlets w.places := by
  induction w with
  | nothing => rfl
  | place outlet => rfl
  | join a b iha ihb => rw [output, places, iha, ihb, Output.join_ofOutlets]

namespace Device

/-- The device can be flushed. -/
def flushable : Device → Bool
  | .printer _ => true
  | .gauge .. => true
  | _ => false

theorem flush_of_not_flushable {d : Device} (h : d.flushable = false) : d.flush = .ok () d := by
  cases d with
  | tape values => rfl
  | robot r traced => rfl
  | printer channel => cases h
  | gauge values room flushes fails => cases h

end Device

namespace Bench

/-! ### A value on its way along the places -/

/-- The journal with the event of a robot, if there is one. -/
def noted (journal : Journal) : Option Robot.Event → Journal
  | none => journal
  | some event => journal.enterRobot event

/-- The bench with another device at a place. -/
def replace (b : Bench) (o : Outlet) (d : Device) : Bench :=
  { b with devices := o.put b.devices d }

/-- The places take a value one after the other, and none of them refuses it. -/
inductive Takes (v : Int64) : List Outlet → Bench → Bench → Prop
  | done (b : Bench) : Takes v [] b b
  /-- A place without a device keeps nothing. -/
  | nowhere {o : Outlet} {rest : List Outlet} {b last : Bench} (hSink : o.sink? b.devices = none)
      (hRest : Takes v rest b last) : Takes v (o :: rest) b last
  | device {o : Outlet} {rest : List Outlet} {b last : Bench} {d d' : Device}
      {event : Option Robot.Event} (hSink : o.sink? b.devices = some d)
      (hTake : d.take v = .ok event d')
      (hRest : Takes v rest { b.replace o d' with journal := noted b.journal event } last) :
      Takes v (o :: rest) b last

theorem offer_eq (v : Int64) (o : Outlet) (b : Bench) :
    offer v o b = match o.sink? b.devices with
      | none => .ok () b
      | some d =>
        match d.take v with
        | .ok event d' => .ok () { b.replace o d' with journal := noted b.journal event }
        | .error e d' => .error e (b.replace o d') := by
  cases o with
  | drain => rfl
  | socket socket =>
    simp only [offer, detach?_eq, Outlet.sink?, replace, Outlet.put]
    cases b.devices[socket]? with
    | none => rfl
    | some d =>
      simp only [Option.map_some, Array.setIfInBounds_setIfInBounds]
      cases d.take v with
      | error e d' => rfl
      | ok event d' => cases event <;> rfl

/-- **A value is taken by all places, or refused by the first one that does not take it**, and then
the places behind that one are not offered it. -/
theorem offerAll_cases (v : Int64) (places : List Outlet) (b : Bench) :
    (∃ last, Takes v places b last ∧ offerAll v places b = .ok () last) ∨
    ∃ before o after here d e d', places = before ++ o :: after ∧ Takes v before b here ∧
      o.sink? here.devices = some d ∧ d.take v = .error e d' ∧
      offerAll v places b = .error e (here.replace o d') := by
  induction places generalizing b with
  | nil => exact .inl ⟨b, .done b, rfl⟩
  | cons p rest ih =>
    -- What `p` does with the value, for both ways in which it can take it.
    have hNext : ∀ next, (∀ last before, Takes v before next last → Takes v (p :: before) b last) →
        offer v p b = .ok () next →
        (∃ last, Takes v (p :: rest) b last ∧ offerAll v (p :: rest) b = .ok () last) ∨
        ∃ before o after here d e d', p :: rest = before ++ o :: after ∧ Takes v before b here ∧
          o.sink? here.devices = some d ∧ d.take v = .error e d' ∧
          offerAll v (p :: rest) b = .error e (here.replace o d') := by
      intro next hTakes hOffer
      have hAll : offerAll v (p :: rest) b = offerAll v rest next := by
        rw [offerAll, hOffer]
      rw [hAll]
      rcases ih next with
        ⟨last, hLast, hEq⟩ | ⟨before, o, after, here, d, e, d', rfl, hBefore, hSink, hTake, hEq⟩
      · exact .inl ⟨last, hTakes last rest hLast, hEq⟩
      · exact .inr ⟨p :: before, o, after, here, d, e, d', rfl, hTakes here before hBefore, hSink,
          hTake, hEq⟩
    have hOffer := offer_eq v p b
    cases hSink : p.sink? b.devices with
    | none =>
      rw [hSink] at hOffer
      exact hNext b (fun _ _ => .nowhere hSink) hOffer
    | some d =>
      rw [hSink] at hOffer
      cases hTake : d.take v with
      | ok event d' =>
        simp only [hTake] at hOffer
        exact hNext _ (fun _ _ => .device hSink hTake) hOffer
      | error e d' =>
        simp only [hTake] at hOffer
        exact .inr ⟨[], p, rest, b, d, e, d', rfl, .done b, hSink, hTake, by rw [offerAll, hOffer]⟩

/-! ### Flushing along the places -/

/-- The places are flushed one after the other, each that can be.  The failures are in order. -/
inductive Flushes : List Outlet → Bench → List IoError → Bench → Prop
  | done (b : Bench) : Flushes [] b [] b
  /-- There is nothing to flush at this place. -/
  | skip {o : Outlet} {rest : List Outlet} {b last : Bench} {failures : List IoError}
      (hSink : ∀ d, o.sink? b.devices = some d → d.flushable = false)
      (hRest : Flushes rest b failures last) : Flushes (o :: rest) b failures last
  | flush {o : Outlet} {rest : List Outlet} {b last : Bench} {failures : List IoError}
      {d d' : Device} (hSink : o.sink? b.devices = some d) (hCan : d.flushable = true)
      (hFlush : d.flush = .ok () d') (hRest : Flushes rest (b.replace o d') failures last) :
      Flushes (o :: rest) b failures last
  | fail {o : Outlet} {rest : List Outlet} {b last : Bench} {failures : List IoError}
      {d d' : Device} {e : IoError} (hSink : o.sink? b.devices = some d)
      (hCan : d.flushable = true) (hFlush : d.flush = .error e d')
      (hRest : Flushes rest (b.replace o d') failures last) :
      Flushes (o :: rest) b (e :: failures) last

theorem flushOutlet_eq (o : Outlet) (b : Bench) :
    flushOutlet o b = match o.sink? b.devices with
      | none => .ok () b
      | some d =>
        match d.flush with
        | .ok () d' => .ok () (b.replace o d')
        | .error e d' => .error e (b.replace o d') := by
  rw [flushOutlet_devices]
  cases o.sink? b.devices with
  | none => rfl
  | some d =>
    simp only [Device.flushError?, Device.flushed, replace]
    cases d.flush <;> rfl

/-- Putting a device where it is changes nothing. -/
theorem replace_self {o : Outlet} {b : Bench} {d : Device} (h : o.sink? b.devices = some d) :
    b.replace o d = b := by
  cases o with
  | drain => cases h
  | socket socket =>
    have hPut : b.devices.setIfInBounds socket d = b.devices := by
      obtain ⟨hIn, rfl⟩ := Array.getElem?_eq_some_iff.mp h
      rw [Array.setIfInBounds_def, dif_pos hIn, Array.set_getElem_self]
    simp only [replace, Outlet.put, hPut]

/-- **A flush reaches every place**, and gives the first failure. -/
theorem flushAll_flushes (places : List Outlet) (b : Bench) :
    ∃ failures last, Flushes places b failures last ∧
      flushAll places b = (failures.head?, last) := by
  induction places generalizing b with
  | nil => exact ⟨[], b, .done b, rfl⟩
  | cons p rest ih =>
    have hHere := flushOutlet_eq p b
    cases hSink : p.sink? b.devices with
    | none =>
      obtain ⟨failures, last, hRest, hEq⟩ := ih b
      rw [hSink] at hHere
      refine ⟨failures, last, .skip ?_ hRest, by rw [flushAll, hHere]; exact hEq⟩
      rw [hSink]
      exact fun d hNone => nomatch hNone
    | some d =>
      rw [hSink] at hHere
      cases hCan : d.flushable with
      | false =>
        obtain ⟨failures, last, hRest, hEq⟩ := ih b
        simp only [Device.flush_of_not_flushable hCan, replace_self hSink] at hHere
        refine ⟨failures, last, .skip ?_ hRest, by rw [flushAll, hHere]; exact hEq⟩
        rintro d' hSame
        obtain rfl := Option.some.inj (hSink.symm.trans hSame)
        exact hCan
      | true =>
        cases hFlush : d.flush with
        | ok u d' =>
          obtain ⟨failures, last, hRest, hEq⟩ := ih (b.replace p d')
          simp only [hFlush] at hHere
          exact ⟨failures, last, .flush hSink hCan hFlush hRest, by rw [flushAll, hHere]; exact hEq⟩
        | error e d' =>
          obtain ⟨failures, last, hRest, hEq⟩ := ih (b.replace p d')
          simp only [hFlush] at hHere
          exact ⟨e :: failures, last, .fail hSink hCan hFlush hRest, by
            rw [flushAll, hHere]
            simp only [hEq, List.head?_cons]⟩

/-! ### Joins as outputs -/

section

variable {b last : Bench} {w : Wiring} {v : Int64} (h : b.output = w.output)

include h

theorem output_present (hSome : w.places ≠ []) : b.output ≠ .absent := by
  rw [h, w.output_eq]
  exact Output.ofOutlets_ne_absent hSome

theorem emit_eq_ok (hSome : w.places ≠ []) (hAll : offerAll v w.places b = .ok () last) :
    emit v b = .ok () last := by
  have hPresent := output_present h hSome
  rw [← w.outlets_output, ← h] at hAll
  unfold emit
  split
  · next hAbsent => exact absurd hAbsent hPresent
  · rw [hAll]

theorem emit_eq_error {e : IoError} (hSome : w.places ≠ [])
    (hAll : offerAll v w.places b = .error e last) : emit v b = .error (.io e) last := by
  have hPresent := output_present h hSome
  rw [← w.outlets_output, ← h] at hAll
  unfold emit
  split
  · next hAbsent => exact absurd hAbsent hPresent
  · rw [hAll]

theorem emit_nowhere (hNone : w.places = []) : emit v b = .error (.crash .unwired) b := by
  have hAbsent : b.output = .absent := by
    rw [h, w.output_eq, hNone]
    rfl
  unfold emit
  rw [hAbsent]

end

/-- **Joins are flat.**  A tree of joins is no output if it has no places, the place itself if it
has one, and else the list of its places from left to right; so it does not matter how outputs are
joined, and no output is a unit.  A value goes to the places of a tree from left to right, up to the
first that refuses it, whose error is the result.  A flush goes to all places that can be flushed,
each once and in order, and gives the first failure. -/
theorem joins_are_flat :
    (∀ t : Wiring, (t.places = [] → t.output = .absent) ∧
      (∀ o, t.places = [o] → t.output = .single o) ∧
      (2 ≤ t.places.length → t.output = .several t.places)) ∧
    (∀ t u w : Wiring,
      (t.output.join u.output).join w.output = t.output.join (u.output.join w.output) ∧
      Output.absent.join t.output = t.output ∧ t.output.join .absent = t.output) ∧
    ∀ (t : Wiring) (b : Bench), b.output = t.output →
      (∀ v, t.places = [] → emit v b = .error (.crash .unwired) b) ∧
      (∀ v, t.places ≠ [] →
        (∃ last, Takes v t.places b last ∧ emit v b = .ok () last) ∨
        ∃ before o after here d e d', t.places = before ++ o :: after ∧ Takes v before b here ∧
          o.sink? here.devices = some d ∧ d.take v = .error e d' ∧
          emit v b = .error (.io e) (here.replace o d')) ∧
      ∃ failures last, Flushes t.places b failures last ∧ b.flush = (failures.head?, last) := by
  refine ⟨fun t => ⟨fun hNone => ?_, fun o hOne => ?_, fun hMany => ?_⟩,
    fun t u w => ⟨?_, ?_, ?_⟩, fun t b h => ⟨fun v hNone => ?_, fun v hSome => ?_, ?_⟩⟩
  · rw [t.output_eq, hNone]
    rfl
  · rw [t.output_eq, hOne]
    rfl
  · rw [t.output_eq, Output.ofOutlets_several hMany]
  · simp only [Wiring.output_eq, Output.join_ofOutlets, List.append_assoc]
  · exact (Wiring.join .nothing t).output_eq.trans t.output_eq.symm
  · have hPlaces : (Wiring.join t .nothing).places = t.places := List.append_nil _
    have hJoin := (Wiring.join t .nothing).output_eq
    rw [hPlaces, ← t.output_eq] at hJoin
    exact hJoin
  · exact emit_nowhere h hNone
  · rcases offerAll_cases v t.places b with
      ⟨last, hTakes, hAll⟩ | ⟨before, o, after, here, d, e, d', hSplit, hTakes, hSink, hTake, hAll⟩
    · exact .inl ⟨last, hTakes, emit_eq_ok h hSome hAll⟩
    · exact .inr ⟨before, o, after, here, d, e, d', hSplit, hTakes, hSink, hTake,
        emit_eq_error h hSome hAll⟩
  · have hPlaces : b.output.outlets = t.places := h ▸ t.outlets_output
    rw [flush, hPlaces]
    exact flushAll_flushes t.places b

/-- Four places joined with nothing between them: a tape, two gauges that cannot be flushed without
a failure, and a tape again.  The second gauge has no room. -/
theorem joins_are_flat_gauges :
    let t : Wiring := .join (.join .nothing (.place (.socket 0)))
      (.join (.join (.place (.socket 1)) .nothing)
        (.join (.place (.socket 2)) (.place (.socket 3))))
    let b : Bench :=
      { output := t.output,
        devices := #[.tape #[], .gauge #[] none 0 true, .gauge #[] (some 0) 0 true, .tape #[]] }
    t.output = .several [.socket 0, .socket 1, .socket 2, .socket 3] ∧
    (∃ before o after here d d', t.places = before ++ o :: after ∧ Takes 7 before b here ∧
      o.sink? here.devices = some d ∧ d.take 7 = .error .sinkFull d' ∧
      emit 7 b = .error (.io .sinkFull) (here.replace o d')) ∧
    ∃ failures last, Flushes t.places b failures last ∧ b.flush = (failures.head?, last) ∧
      failures.head? = some .flushFailed := by
  intro t b
  obtain ⟨hShapes, -, hBench⟩ := joins_are_flat
  obtain ⟨-, hEmit, failures, last, hFlushes, hFlush⟩ := hBench t b rfl
  have hFailure : failure? (emit 7 b) = some (.io .sinkFull) := by rfl
  have hFirst : b.flush.1 = some .flushFailed := by rfl
  refine ⟨(hShapes t).2.2 (by decide), ?_, failures, last, hFlushes, hFlush, ?_⟩
  · rcases hEmit 7 (by decide) with
      ⟨last, -, hOk⟩ | ⟨before, o, after, here, d, e, d', hSplit, hTakes, hSink, hTake, hError⟩
    · rw [hOk] at hFailure
      cases hFailure
    · rw [hError] at hFailure
      cases hFailure
      exact ⟨before, o, after, here, d, d', hSplit, hTakes, hSink, hTake, hError⟩
  · rwa [hFlush] at hFirst

end Bench

end HullRobot
