import HullRobot.Proofs.Results
import HullRobot.Stream.Basic

/-!
# Sinks and buffers

A sink takes the bytes that it has room for.  A buffer passes its bytes on in pieces, and its sink
may fail at any of them.  Still the sink gets what it would get if all bytes were written to it at
once.

* `ByteSink.fitting`: the bytes that there is room for.  `ByteSink.write_append`: a write can be cut
  into pieces.
* `Buffered.Stands`: how a buffer stands that was given bytes.  `Stands.write`: **every write leads
  from one such state to the next.**  `Stands.flush_eq`: **a flush leaves the sink as a single write
  of all bytes does**, and it fails if that does.
-/

namespace HullRobot

/-! ### Sinks -/

namespace ByteSink

variable {s s' : ByteSink} {a b bytes : List UInt8} {e : IoError}

/-- The bytes that there is room for. -/
def fitting (room : Option Nat) (bytes : List UInt8) : List UInt8 :=
  match room with
  | none => bytes
  | some n => bytes.take n

theorem fitting_prefix (room : Option Nat) (bytes : List UInt8) : fitting room bytes <+: bytes := by
  cases room with
  | none => exact List.prefix_refl bytes
  | some n => exact List.take_prefix n bytes

theorem fitting_of_room {room : Option Nat} (h : ∀ n, room = some n → bytes.length ≤ n) :
    fitting room bytes = bytes := by
  cases room with
  | none => rfl
  | some n => exact List.take_of_length_le (h n rfl)

theorem received_leaves_write (s : ByteSink) (bytes : List UInt8) :
    (leaves (s.write bytes)).received.toList = s.received.toList ++ fitting s.room bytes := by
  obtain ⟨received, room⟩ := s
  cases room with
  | none => exact Array.toList_appendList
  | some n =>
    rw [write, fitting]
    by_cases hFits : bytes.length ≤ n
    · rw [if_pos hFits, List.take_of_length_le hFits]
      exact Array.toList_appendList
    · rw [if_neg hFits]
      exact Array.toList_appendList

/-- A write fails if and only if there is not enough room. -/
theorem failure?_write (s : ByteSink) (bytes : List UInt8) :
    failure? (s.write bytes) = none ↔ ∀ n, s.room = some n → bytes.length ≤ n := by
  obtain ⟨received, room⟩ := s
  cases room with
  | none => exact iff_of_true rfl nofun
  | some n =>
    rw [write]
    by_cases hFits : bytes.length ≤ n
    · rw [if_pos hFits]
      exact iff_of_true rfl fun m hm => Option.some.inj hm ▸ hFits
    · rw [if_neg hFits]
      exact iff_of_false nofun fun h => hFits (h n rfl)

theorem short_of_failure? (h : failure? (s.write bytes) = some e) :
    ∃ n, s.room = some n ∧ n < bytes.length := by
  obtain ⟨received, room⟩ := s
  cases room with
  | none => cases h
  | some n =>
    refine ⟨n, rfl, Nat.lt_of_not_le fun hFits => ?_⟩
    rw [write, if_pos hFits] at h
    cases h

theorem received_write (h : s.write bytes = .ok () s') :
    s'.received.toList = s.received.toList ++ bytes := by
  have hReceived := s.received_leaves_write bytes
  have hRoom := (s.failure?_write bytes).mp (by rw [h]; rfl)
  rwa [h, fitting_of_room hRoom] at hReceived

/-- A sink that has room for bytes takes them all. -/
theorem write_of_room (h : ∀ n, s.room = some n → bytes.length ≤ n) :
    ∃ s', s.write bytes = .ok () s' ∧ s'.received.toList = s.received.toList ++ bytes := by
  have hOk := eq_ok_of_failure? ((s.failure?_write bytes).mpr h)
  exact ⟨_, hOk, received_write hOk⟩

theorem append_append (received : Array UInt8) (a b : List UInt8) :
    received ++ (a ++ b) = received ++ a ++ b := by
  apply Array.toList_inj.mp
  rw [Array.toList_appendList, Array.toList_appendList, Array.toList_appendList, List.append_assoc]

theorem write_nil (s : ByteSink) : s.write [] = .ok () s := by
  obtain ⟨received, room⟩ := s
  cases room with
  | none => rw [write, Array.appendList_nil]
  | some n =>
    rw [write, List.length_nil, if_pos (Nat.zero_le n), Array.appendList_nil, Nat.sub_zero]

/-- **A write can be cut into pieces**, up to the one that fails. -/
theorem write_append (h : s.write a = .ok () s') (b : List UInt8) :
    s.write (a ++ b) = s'.write b := by
  obtain ⟨received, room⟩ := s
  cases room with
  | none =>
    cases h
    rw [write, write, append_append]
  | some n =>
    by_cases hFits : a.length ≤ n
    · rw [write, if_pos hFits] at h
      cases h
      rw [write, write, List.length_append]
      by_cases hAll : a.length + b.length ≤ n
      · rw [if_pos hAll, if_pos (by omega), append_append, Nat.sub_add_eq]
      · rw [if_neg hAll, if_neg (by omega), List.take_append, List.take_of_length_le hFits,
          append_append]
    · rw [write, if_neg hFits] at h
      cases h

/-- A write that fails does so with more bytes as well, and gets no further. -/
theorem write_append_error (h : s.write a = .error e s') (b : List UInt8) :
    s.write (a ++ b) = .error e s' := by
  obtain ⟨received, room⟩ := s
  cases room with
  | none => cases h
  | some n =>
    by_cases hFits : a.length ≤ n
    · rw [write, if_pos hFits] at h
      cases h
    · rw [write, if_neg hFits] at h
      cases h
      have hAll : ¬(a ++ b).length ≤ n := by
        rw [List.length_append]
        omega
      rw [write, if_neg hAll, List.take_append_of_le_length (by omega)]

end ByteSink

/-! ### Buffers -/

namespace Buffered

variable {s : ByteSink} {b : Buffered} {given bytes : List UInt8} {e : IoError}

/-- How a buffer in front of the sink `s` stands that was given bytes: it works, and all bytes are
pending that the sink has not taken, or the sink has failed on the way. -/
inductive Stands (s : ByteSink) (given : List UInt8) (b : Buffered) : Prop
  | working (taken : List UInt8) (hBroken : b.broken = none)
      (hTaken : s.write taken = .ok () b.sink) (hGiven : taken ++ b.pending.toList = given)
  | failed (e : IoError) (part rest : List UInt8) (hBroken : b.broken = some e)
      (hFailed : s.write part = .error e b.sink) (hGiven : part ++ rest = given)

theorem stands_fresh (s : ByteSink) : Stands s [] { sink := s } :=
  .working [] rfl s.write_nil rfl

theorem flush_broken (h : b.broken = some e) : b.flush = .error e b := by
  obtain ⟨sink, pending, broken⟩ := b
  cases h
  rfl

theorem write_broken (h : b.broken = some e) (bytes : List UInt8) : b.write bytes = .error e b := by
  obtain ⟨sink, pending, broken⟩ := b
  cases h
  rfl

/-- What a flush does to a buffer that works. -/
theorem flush_working (h : b.broken = none) :
    b.flush = match b.sink.write b.pending.toList with
      | .ok () sink => .ok () { sink }
      | .error e sink => .error e { b with sink, broken := some e } := by
  obtain ⟨sink, pending, broken⟩ := b
  cases h
  unfold flush
  by_cases hEmpty : pending.isEmpty = true
  · obtain rfl := Array.isEmpty_iff.mp hEmpty
    simp only [if_pos hEmpty, sink.write_nil]
  · cases hWrite : sink.write pending.toList with
    | ok u sink' => simp only [if_neg hEmpty, hWrite]
    | error e sink' => simp only [if_neg hEmpty, hWrite]

theorem failure?_flush (b : Buffered) : failure? b.flush = (leaves b.flush).broken := by
  cases hBroken : b.broken with
  | some e =>
    rw [flush_broken hBroken]
    exact hBroken.symm
  | none =>
    rw [flush_working hBroken]
    cases b.sink.write b.pending.toList <;> rfl

/-- **A flush leaves the sink as a single write of all bytes does**, and it fails if that does. -/
theorem Stands.flush_eq (h : Stands s given b) :
    (leaves b.flush).sink = leaves (s.write given) ∧
      failure? b.flush = failure? (s.write given) := by
  cases h with
  | working taken hBroken hTaken hGiven =>
    rw [← hGiven, ByteSink.write_append hTaken, flush_working hBroken]
    cases b.sink.write b.pending.toList <;> exact ⟨rfl, rfl⟩
  | failed e part rest hBroken hFailed hGiven =>
    rw [← hGiven, ByteSink.write_append_error hFailed, flush_broken hBroken]
    exact ⟨rfl, rfl⟩

theorem Stands.flush (h : Stands s given b) : Stands s given (leaves b.flush) := by
  cases h with
  | working taken hBroken hTaken hGiven =>
    have hAll := ByteSink.write_append hTaken b.pending.toList
    rw [hGiven] at hAll
    rw [flush_working hBroken]
    cases hWrite : b.sink.write b.pending.toList with
    | ok u sink => exact .working given rfl (hAll.trans hWrite) (List.append_nil given)
    | error e sink => exact .failed e given [] rfl (hAll.trans hWrite) (List.append_nil given)
  | failed e part rest hBroken hFailed hGiven =>
    rw [flush_broken hBroken]
    exact .failed e part rest hBroken hFailed hGiven

theorem Stands.pass (hBroken : b.broken = none) (hSink : s.write given = .ok () b.sink)
    (hPending : b.pending = #[]) (bytes : List UInt8) :
    Stands s (given ++ bytes) (leaves (b.pass bytes)) ∧
      failure? (b.pass bytes) = (leaves (b.pass bytes)).broken := by
  obtain ⟨sink, pending, broken⟩ := b
  obtain rfl := hPending
  obtain rfl := hBroken
  have hAll := ByteSink.write_append hSink bytes
  simp only [Buffered.pass]
  cases hWrite : sink.write bytes with
  | ok u sink' =>
    exact ⟨.working (given ++ bytes) rfl (hAll.trans hWrite) (List.append_nil _), rfl⟩
  | error e sink' =>
    exact ⟨.failed e (given ++ bytes) [] rfl (hAll.trans hWrite) (List.append_nil _), rfl⟩

/-- **A write leads from one such state to the next**, and it fails if the sink has failed. -/
theorem Stands.write (h : Stands s given b) (bytes : List UInt8) :
    Stands s (given ++ bytes) (leaves (b.write bytes)) ∧
      failure? (b.write bytes) = (leaves (b.write bytes)).broken := by
  cases h with
  | failed e part rest hBroken hFailed hGiven =>
    rw [write_broken hBroken]
    refine ⟨.failed e part (rest ++ bytes) hBroken hFailed ?_, hBroken.symm⟩
    rw [← List.append_assoc, hGiven]
  | working taken hBroken hTaken hGiven =>
    obtain ⟨sink, pending, broken⟩ := b
    obtain rfl := hBroken
    unfold Buffered.write
    by_cases hFits : bytes.length ≤ capacity - pending.size
    · simp only [if_pos hFits]
      refine ⟨.working taken rfl hTaken ?_, rfl⟩
      rw [← hGiven, List.append_assoc]
      exact congrArg (taken ++ ·) Array.toList_appendList
    · simp only [if_neg hFits]
      by_cases hEmpty : pending.isEmpty = true
      · simp only [if_pos hEmpty]
        obtain rfl := Array.isEmpty_iff.mp hEmpty
        obtain rfl : taken = given := (List.append_nil taken).symm.trans hGiven
        exact Stands.pass rfl hTaken rfl bytes
      · simp only [if_neg hEmpty]
        -- The buffer is filled up and passed on; the rest finds it empty.
        generalize hFirst : bytes.take (capacity - pending.size) = first
        generalize hRest : bytes.drop (capacity - pending.size) = rest
        have hBytes : given ++ bytes = given ++ first ++ rest := by
          rw [List.append_assoc, ← hFirst, ← hRest, List.take_append_drop]
        have hAll := ByteSink.write_append hTaken (pending ++ first).toList
        rw [Array.toList_appendList, ← List.append_assoc, hGiven] at hAll
        have hFlush := @flush_working { sink, pending := pending ++ first } rfl
        rw [Array.toList_appendList] at hFlush
        rw [hBytes, hFlush]
        cases hWrite : sink.write (pending.toList ++ first) with
        | error e sink' =>
          exact ⟨.failed e (given ++ first) rest rfl (hAll.trans hWrite) rfl, rfl⟩
        | ok u sink' =>
          have hTaken' := hAll.trans hWrite
          simp only
          split
          · exact ⟨.working (given ++ first) rfl hTaken' rfl, rfl⟩
          · exact Stands.pass rfl hTaken' rfl rest

/-- What has arrived starts what was given. -/
theorem Stands.received_prefix (h : Stands s given b) :
    b.sink.received.toList <+: s.received.toList ++ given := by
  cases h with
  | working taken hBroken hTaken hGiven =>
    rw [ByteSink.received_write hTaken, ← hGiven, ← List.append_assoc]
    exact List.prefix_append _ _
  | failed e part rest hBroken hFailed hGiven =>
    have hReceived := s.received_leaves_write part
    rw [hFailed] at hReceived
    rw [show b.sink.received.toList = _ from hReceived, ← hGiven]
    exact (List.prefix_append_right_inj _).mpr
      ((ByteSink.fitting_prefix _ part).trans (List.prefix_append part rest))

/-- When the sink has failed, it has got all that it had room for. -/
theorem Stands.received_broken (h : Stands s given b) (hBroken : b.broken = some e) :
    ∃ n, s.room = some n ∧ n < given.length ∧
      b.sink.received.toList = s.received.toList ++ given.take n := by
  obtain ⟨hSink, hFailure⟩ := h.flush_eq
  rw [flush_broken hBroken] at hSink hFailure
  obtain ⟨n, hRoom, hShort⟩ := ByteSink.short_of_failure? hFailure.symm
  have hReceived := s.received_leaves_write given
  rw [← hSink, hRoom] at hReceived
  exact ⟨n, hRoom, hShort, hReceived⟩

end Buffered

end HullRobot
