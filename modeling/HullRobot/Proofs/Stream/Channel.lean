import HullRobot.Proofs.Stream.Buffer
import HullRobot.Proofs.Text.Ascii
import HullRobot.Stream.Channel

/-!
# What arrives at the end of a channel

A channel is given lines and is flushed now and then.  Its end gets the start of these lines that
there is room for, whenever it fails.

* `Stands`: how a channel stands that was given bytes.  `Stands.calls`: **after any calls the
  channel stands as it was given all lines.**
* `Stands.flush_eq`: after a flush all bytes have arrived that there is room for.
* `calls_broken`: **once a call has failed, all calls fail and nothing changes any more.**
-/

namespace HullRobot

namespace Channel

variable {room : Option Nat} {given bytes : List UInt8} {c : Channel} {e : IoError}

/-- A line is the numeral of a value and a line feed. -/
theorem line_eq : line = fun v => Text.bytes (toString v ++ "\n") := by
  funext v
  rw [line, Decimal.bytes_feed (Decimal.ascii_ofInt v.toInt), Decimal.ofList_ofInt]
  rfl

/-- A new channel to a place with this room: a sink has a buffer in front, unless it has room for
everything.  Memory has. -/
inductive Fresh : Option Nat → Channel → Prop
  | buffered (room : Option Nat) : Fresh room (.buffered { sink := { room } })
  | memory : Fresh none (.memory #[])
  | through : Fresh none (.through {} 0)

/-- How a channel stands that was given bytes. -/
inductive Stands (room : Option Nat) (given : List UInt8) : Channel → Prop
  | buffered {buffer : Buffered} (h : buffer.Stands { room } given) :
      Stands room given (.buffered buffer)
  | memory {received : Array UInt8} (hRoom : room = none) (h : received.toList = given) :
      Stands room given (.memory received)
  | through {sink : ByteSink} {flushes : Nat} (hRoom : room = none) (hSink : sink.room = none)
      (h : sink.received.toList = given) : Stands room given (.through sink flushes)

theorem Fresh.stands (h : Fresh room c) : c.Stands room [] := by
  cases h with
  | buffered => exact .buffered (Buffered.stands_fresh _)
  | memory => exact .memory rfl rfl
  | through => exact .through rfl rfl rfl

/-- The failure that the channel keeps, if there was one. -/
def broken? : Channel → Option IoError
  | .buffered buffer => buffer.broken
  | _ => none

theorem write_buffered (buffer : Buffered) (bytes : List UInt8) :
    leaves ((Channel.buffered buffer).write bytes) = .buffered (leaves (buffer.write bytes)) ∧
      failure? ((Channel.buffered buffer).write bytes) = failure? (buffer.write bytes) := by
  rw [write]
  cases buffer.write bytes <;> exact ⟨rfl, rfl⟩

theorem flush_buffered (buffer : Buffered) :
    leaves (Channel.buffered buffer).flush = .buffered (leaves buffer.flush) ∧
      failure? (Channel.buffered buffer).flush = failure? buffer.flush := by
  rw [flush]
  cases buffer.flush <;> exact ⟨rfl, rfl⟩

/-- **A write leads from one such state to the next**, and it fails if the channel has failed. -/
theorem Stands.write (h : c.Stands room given) (bytes : List UInt8) :
    (leaves (c.write bytes)).Stands room (given ++ bytes) ∧
      failure? (c.write bytes) = (leaves (c.write bytes)).broken? := by
  cases h with
  | @buffered buffer h =>
    obtain ⟨hStands, hFailure⟩ := h.write bytes
    obtain ⟨hLeaves, hSame⟩ := write_buffered buffer bytes
    rw [hLeaves, hSame]
    exact ⟨.buffered hStands, hFailure⟩
  | @memory received hRoom h =>
    refine ⟨.memory hRoom ?_, rfl⟩
    rw [Array.toList_appendList, h]
  | @through sink flushes hRoom hSink h =>
    obtain ⟨received, _⟩ := sink
    obtain rfl := hSink
    refine ⟨.through hRoom rfl ?_, rfl⟩
    rw [Array.toList_appendList, h]

theorem Stands.flush (h : c.Stands room given) :
    (leaves c.flush).Stands room given ∧ failure? c.flush = (leaves c.flush).broken? := by
  cases h with
  | @buffered buffer h =>
    obtain ⟨hLeaves, hSame⟩ := flush_buffered buffer
    rw [hLeaves, hSame]
    exact ⟨.buffered h.flush, buffer.failure?_flush⟩
  | memory hRoom h => exact ⟨.memory hRoom h, rfl⟩
  | through hRoom hSink h => exact ⟨.through hRoom hSink h, rfl⟩

/-- **After a flush all bytes have arrived that there is room for**, and it fails if that are not
all. -/
theorem Stands.flush_eq (h : c.Stands room given) :
    (leaves c.flush).received.toList = ByteSink.fitting room given ∧
      (failure? c.flush = none ↔ ∀ n, room = some n → given.length ≤ n) := by
  cases h with
  | @buffered buffer h =>
    obtain ⟨hLeaves, hSame⟩ := flush_buffered buffer
    obtain ⟨hSink, hFailure⟩ := h.flush_eq
    rw [hLeaves, hSame, hFailure, ByteSink.failure?_write]
    refine ⟨?_, Iff.rfl⟩
    rw [received, hSink]
    exact ByteSink.received_leaves_write _ given
  | memory hRoom h =>
    subst hRoom
    exact ⟨h, iff_of_true rfl nofun⟩
  | through hRoom hSink h =>
    subst hRoom
    exact ⟨h, iff_of_true rfl nofun⟩

theorem Stands.received_prefix (h : c.Stands room given) : c.received.toList <+: given := by
  cases h with
  | buffered h => exact h.received_prefix
  | memory hRoom h => exact h ▸ List.prefix_refl _
  | through hRoom hSink h => exact h ▸ List.prefix_refl _

theorem Stands.received_broken (h : c.Stands room given) (hBroken : c.broken? = some e) :
    ∃ n, room = some n ∧ n < given.length ∧ c.received.toList = given.take n := by
  cases h with
  | buffered h => exact h.received_broken hBroken
  | memory hRoom h => cases hBroken
  | through hRoom hSink h => cases hBroken

/-! ### Calls -/

/-- A call of a channel. -/
inductive Call where
  | write (v : Int64)
  | flush
  deriving DecidableEq

def call (c : Channel) : Call → EStateM.Result IoError Channel Unit
  | .write v => c.writeValue v
  | .flush => c.flush

/-- Makes calls one after the other, whether they fail or not, and tells which ones failed. -/
def calls (c : Channel) : List Call → List (Option IoError) × Channel
  | [] => ([], c)
  | call :: rest =>
    (failure? (c.call call) :: ((leaves (c.call call)).calls rest).1,
      ((leaves (c.call call)).calls rest).2)

/-- The values that calls are to write. -/
def written (calls : List Call) : List Int64 :=
  calls.filterMap fun
    | .write v => some v
    | .flush => none

theorem Stands.call (h : c.Stands room given) (call : Call) :
    (leaves (c.call call)).Stands room (given ++ (written [call]).flatMap line) ∧
      failure? (c.call call) = (leaves (c.call call)).broken? := by
  cases call with
  | write v =>
    rw [show (written [.write v]).flatMap line = line v from List.append_nil _]
    exact h.write (line v)
  | flush =>
    rw [show (written [.flush]).flatMap line = [] from rfl, List.append_nil]
    exact h.flush

/-- **After any calls the channel stands as it was given all lines.** -/
theorem Stands.calls (h : c.Stands room given) (calls : List Call) :
    (c.calls calls).2.Stands room (given ++ (written calls).flatMap line) := by
  induction calls generalizing c given with
  | nil =>
    rw [show (written []).flatMap line = [] from rfl, List.append_nil]
    exact h
  | cons call rest ih =>
    have hRest := ih (h.call call).1
    rw [List.append_assoc, ← List.flatMap_append, written, written,
      ← List.filterMap_append] at hRest
    exact hRest

/-- **Once a call has failed, all calls fail and nothing changes any more.** -/
theorem calls_broken (hBroken : c.broken? = some e) (calls : List Call) :
    c.calls calls = (calls.map fun _ => some e, c) := by
  have hCall : ∀ call, c.call call = .error e c := by
    intro call
    cases c with
    | discard => cases hBroken
    | memory received => cases hBroken
    | through sink flushes => cases hBroken
    | buffered buffer =>
      cases call with
      | write v => simp only [Channel.call, writeValue, write, Buffered.write_broken hBroken]
      | flush => simp only [Channel.call, flush, Buffered.flush_broken hBroken]
  induction calls with
  | nil => rfl
  | cons call rest ih =>
    rw [Channel.calls, hCall call]
    simp only [leaves, failure?, ih, List.map_cons]

/-- A call that fails leaves its failure. -/
theorem Stands.broken_of_failed (h : c.Stands room given) {calls : List Call}
    (hFailed : some e ∈ (c.calls calls).1) : (c.calls calls).2.broken? = some e := by
  induction calls generalizing c given with
  | nil => cases hFailed
  | cons call rest ih =>
    obtain ⟨hStands, hFailure⟩ := h.call call
    rw [Channel.calls] at hFailed ⊢
    cases hBroken : (leaves (c.call call)).broken? with
    | none =>
      rw [hFailure, hBroken, List.mem_cons] at hFailed
      rcases hFailed with hHere | hLater
      · cases hHere
      · exact ih hStands hLater
    | some e' =>
      -- All later calls fail in the same way.
      rw [hFailure, hBroken, calls_broken hBroken] at hFailed
      obtain rfl : e = e' := by
        rcases List.mem_cons.mp hFailed with hHere | hLater
        · exact Option.some.inj hHere
        · obtain ⟨_, -, hSame⟩ := List.mem_map.mp hLater
          exact (Option.some.inj hSame).symm
      rw [calls_broken hBroken]
      exact hBroken

theorem calls_concat (c : Channel) (calls : List Call) (call : Call) :
    c.calls (calls ++ [call]) = ((c.calls calls).1 ++ [failure? ((c.calls calls).2.call call)],
      leaves ((c.calls calls).2.call call)) := by
  induction calls generalizing c with
  | nil => rfl
  | cons first rest ih =>
    rw [List.cons_append, Channel.calls, ih]
    rfl

/-- After a flush that works everything has arrived. -/
theorem Stands.received_of_flush (h : c.Stands room given) {calls : List Call}
    (hLast : calls.getLast? = some .flush) (hFlush : (c.calls calls).1.getLast? = some none) :
    (c.calls calls).2.received.toList = given ++ (written calls).flatMap line := by
  obtain ⟨rest, rfl⟩ := List.getLast?_eq_some_iff.mp hLast
  obtain ⟨hReceived, hFailure⟩ := (h.calls rest).flush_eq
  have hWritten : written (rest ++ [.flush]) = written rest := by
    rw [written, List.filterMap_append]
    exact List.append_nil _
  rw [calls_concat, List.getLast?_concat] at hFlush
  rw [calls_concat, hWritten]
  exact hReceived.trans (ByteSink.fitting_of_room (hFailure.mp (Option.some.inj hFlush)))

end Channel

end HullRobot
