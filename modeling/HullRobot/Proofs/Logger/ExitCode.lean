import HullRobot.Logger
import HullRobot.Proofs.Stream.Buffer

/-!
# What the exit code of a logger tells

The output of a logger may fail and work again.  So every call is looked at together with the room
that the output has while the call is made: `Attempt`.  An attempt marks the exit code with 2 if its
line cannot be written, and else with 1 if it is a message on the error level.

* `perform_attempt`: **what an attempt does**: it marks the exit code, and the output takes as much
  of its line as there is room for.
* `session_spec`: after a session the exit code is that of the last mark, and the output has got the
  lines one after the other, of a line that failed only its start.
* `eq_retained_iff`: when the exit code tells of every failure.
* `exit_code_tells_last_mark`: all of this for a new logger with an output.
* `failure_forgotten`: a message on the error level hides a failure before it.
-/

namespace HullRobot.Logger

/-! ### Calls -/

/-- What a logger is called for. -/
inductive Call where
  | log (level body : String) (args : List Text.Argument)
  | logError (body : String) (args : List Text.Argument)
  | logErrorIf (cause : Option String)
  deriving DecidableEq

namespace Call

def perform (l : Logger) : Call → Logger
  | .log level body args => l.log level body args
  | .logError body args => l.logError body args
  | .logErrorIf cause => l.logErrorIf cause

/-- The line that the call asks for; it is empty if there is none. -/
def text : Call → String
  | .log level body args => line level (Text.message body args)
  | .logError body args => line "ERROR" (Text.message body args)
  | .logErrorIf none => ""
  | .logErrorIf (some cause) => line "ERROR" (Text.message "%v" [.text cause])

/-- The call is a message on the error level. -/
def isError : Call → Bool
  | .log .. => false
  | .logError .. => true
  | .logErrorIf cause => cause.isSome

end Call

/-- A call, and how many bytes the output takes while it is made (`none` for any number). -/
structure Attempt where
  call : Call
  room : Option Nat := none
  deriving DecidableEq

namespace Attempt

/-- The bytes of the line. -/
def bytes (a : Attempt) : List UInt8 := Text.bytes a.call.text

/-- There is no room for the line. -/
def fails (a : Attempt) : Bool :=
  match a.room with
  | none => false
  | some n => n < a.bytes.length

/-- The bytes that the output takes. -/
def taken (a : Attempt) : List UInt8 := ByteSink.fitting a.room a.bytes

/-- The exit code that the attempt leaves, if it leaves one. -/
def mark? (a : Attempt) : Option Nat :=
  if a.fails then some 2 else if a.call.isError then some 1 else none

end Attempt

/-- The logger with so much room in its output. -/
def fitted (l : Logger) (room : Option Nat) : Logger :=
  match l.output with
  | none => l
  | some i =>
    { l with sinks := l.sinks.modify i fun s => { s with sink := { s.sink with room } } }

/-- Makes an attempt. -/
def perform (l : Logger) (a : Attempt) : Logger := a.call.perform (l.fitted a.room)

/-- Makes attempts one after the other. -/
def session (l : Logger) (attempts : List Attempt) : Logger := attempts.foldl perform l

/-- The exit code that the last attempt with a mark leaves. -/
def lastCode? (attempts : List Attempt) : Option Nat := (attempts.filterMap Attempt.mark?).getLast?

/-- The exit code that tells of every failure: 2 if a line could not be written, else 1 if there was
a message on the error level. -/
def retained (attempts : List Attempt) : Nat :=
  if attempts.any Attempt.fails then 2 else if attempts.any (·.call.isError) then 1 else 0

/-! ### Lines -/

theorem line_complete (level body : String) :
    line level body = "" ∨ ∃ rest, line level body = rest ++ "\n" := by
  unfold line
  generalize (if level.isEmpty then body else level ++ ": " ++ body) = text
  by_cases hEmpty : text.isEmpty = true
  · exact .inl (by rw [if_pos (.inl hEmpty)]; exact String.isEmpty_iff.mp hEmpty)
  by_cases hEnd : text.endsWith "\n" = true
  · rw [if_pos (.inr hEnd)]
    rw [String.endsWith_eq_endsWith_toSlice, String.Slice.endsWith_string_iff] at hEnd
    obtain ⟨front, hFront⟩ := hEnd
    refine .inr ⟨String.ofList front, String.toList_inj.mp ?_⟩
    rw [String.toList_append, String.toList_ofList, hFront, String.copy_toSlice]
  · rw [if_neg (not_or.mpr ⟨hEmpty, hEnd⟩)]
    exact .inr ⟨text, rfl⟩

theorem Call.text_complete (c : Call) : c.text = "" ∨ ∃ rest, c.text = rest ++ "\n" := by
  cases c with
  | log level body args => exact line_complete _ _
  | logError body args => exact line_complete _ _
  | logErrorIf cause =>
    cases cause with
    | none => exact .inl rfl
    | some cause => exact line_complete _ _

/-! ### One attempt -/

variable {l : Logger} {i : Nat} {s : LogSink}

theorem writeLine_empty (l : Logger) : l.writeLine "" = .ok () l := by
  unfold writeLine
  split
  · rfl
  · split
    · rfl
    · exact if_pos rfl

/-- What a line does to its sink is what its bytes do. -/
theorem writeLine_sink (hOutput : l.output = some i) (hSink : l.sinks[i]? = some s)
    (text : String) :
    failure? (l.writeLine text) = failure? (s.sink.write (Text.bytes text)) ∧
      (leaves (l.writeLine text)).sinks[i]? =
        some { s with sink := leaves (s.sink.write (Text.bytes text)) } := by
  unfold writeLine
  rw [hOutput]
  simp only [hSink]
  by_cases hEmpty : text.isEmpty = true
  · obtain rfl := String.isEmpty_iff.mp hEmpty
    have hNothing : Text.bytes "" = [] := rfl
    rw [if_pos hEmpty, hNothing, ByteSink.write_nil]
    exact ⟨rfl, hSink⟩
  · rw [if_neg hEmpty]
    have hBound := (Array.getElem?_eq_some_iff.mp hSink).1
    cases s.sink.write (Text.bytes text) with
    | ok u sink => exact ⟨rfl, Array.getElem?_setIfInBounds_self_of_lt hBound⟩
    | error e sink => exact ⟨rfl, Array.getElem?_setIfInBounds_self_of_lt hBound⟩

/-- A line changes sinks and nothing else. -/
theorem writeLine_frame (l : Logger) (text : String) :
    (leaves (l.writeLine text)).output = l.output ∧
      (leaves (l.writeLine text)).exitCode = l.exitCode := by
  unfold writeLine
  split
  · exact ⟨rfl, rfl⟩
  · split
    · exact ⟨rfl, rfl⟩
    · next s _ =>
      split
      · exact ⟨rfl, rfl⟩
      · cases s.sink.write (Text.bytes text) <;> exact ⟨rfl, rfl⟩

/-- **All calls do the same**: they write a line, and then they mark the exit code. -/
theorem Call.perform_eq (l : Logger) (c : Call) :
    c.perform l = { leaves (l.writeLine c.text) with
      exitCode := match failure? (l.writeLine c.text) with
        | some _ => 2
        | none => if c.isError then 1 else l.exitCode } := by
  have hCode := (writeLine_frame l c.text).2
  cases c with
  | log level body args =>
    simp only [perform, text, Logger.log] at hCode ⊢
    cases hWrite : l.writeLine (line level (Text.message body args)) with
    | ok u l' =>
      rw [hWrite] at hCode
      simp only [leaves, failure?, isError, Bool.false_eq_true, if_false, ← hCode]
    | error e l' => rfl
  | logError body args =>
    simp only [perform, text, Logger.logError]
    cases l.writeLine (line "ERROR" (Text.message body args)) <;> rfl
  | logErrorIf cause =>
    cases cause with
    | none =>
      simp only [perform, text, Logger.logErrorIf, writeLine_empty]
      rfl
    | some cause =>
      simp only [perform, text, Logger.logErrorIf, Logger.logError]
      cases l.writeLine (line "ERROR" (Text.message "%v" [.text cause])) <;> rfl

theorem Attempt.fails_iff (a : Attempt) :
    a.fails = true ↔ ∃ n, a.room = some n ∧ n < a.bytes.length := by
  unfold fails
  cases a.room with
  | none => simp
  | some n => simp

/-- A line fails if its write does. -/
theorem Attempt.failure?_write (a : Attempt) {sink : ByteSink} (h : sink.room = a.room) :
    (failure? (sink.write a.bytes)).isSome = a.fails := by
  have hNone := sink.failure?_write a.bytes
  rw [h] at hNone
  cases hFails : a.fails with
  | false =>
    have hRoom : ∀ n, a.room = some n → a.bytes.length ≤ n := by
      intro n hn
      refine Nat.le_of_not_lt fun hShort => ?_
      rw [a.fails_iff.mpr ⟨n, hn, hShort⟩] at hFails
      cases hFails
    rw [hNone.mpr hRoom]
    rfl
  | true =>
    obtain ⟨n, hn, hShort⟩ := a.fails_iff.mp hFails
    refine Option.isSome_iff_ne_none.mpr fun hWorks => ?_
    have := hNone.mp hWorks n hn
    omega

/-- **What an attempt does**: it marks the exit code, and the output takes what there is room
for. -/
theorem perform_attempt (hOutput : l.output = some i) (hSink : l.sinks[i]? = some s) (a : Attempt) :
    (l.perform a).output = some i ∧ (l.perform a).exitCode = a.mark?.getD l.exitCode ∧
      ∃ s', (l.perform a).sinks[i]? = some s' ∧
        s'.sink.received.toList = s.sink.received.toList ++ a.taken := by
  have hFitted : (l.fitted a.room).output = some i ∧ (l.fitted a.room).exitCode = l.exitCode ∧
      (l.fitted a.room).sinks[i]? = some { s with sink := { s.sink with room := a.room } } := by
    unfold fitted
    rw [hOutput]
    refine ⟨rfl, rfl, ?_⟩
    rw [Array.getElem?_modify, if_pos rfl, hSink]
    rfl
  obtain ⟨hOutput', hCode', hSink'⟩ := hFitted
  obtain ⟨hFailure, hLeft⟩ := writeLine_sink hOutput' hSink' a.call.text
  have hFails : (failure? ((l.fitted a.room).writeLine a.call.text)).isSome = a.fails :=
    hFailure ▸ a.failure?_write rfl
  unfold perform
  rw [Call.perform_eq]
  refine ⟨?_, ?_, _, hLeft, ?_⟩
  · exact (writeLine_frame _ _).1.trans hOutput'
  · unfold Attempt.mark?
    rw [← hFails]
    simp only [hCode']
    cases failure? ((l.fitted a.room).writeLine a.call.text) with
    | some e => rfl
    | none => cases a.call.isError <;> rfl
  · exact ByteSink.received_leaves_write _ _

/-! ### Sessions -/

theorem lastCode?_cons (a : Attempt) (attempts : List Attempt) :
    lastCode? (a :: attempts) = (lastCode? attempts).or a.mark? := by
  unfold lastCode?
  cases hMark : a.mark? with
  | none => rw [List.filterMap_cons_none hMark, Option.or_none]
  | some code =>
    rw [List.filterMap_cons_some hMark, List.getLast?_cons]
    cases (attempts.filterMap Attempt.mark?).getLast? <;> rfl

/-- **After a session the exit code is that of the last mark**, and the output has got the lines one
after the other. -/
theorem session_spec (hOutput : l.output = some i) (hSink : l.sinks[i]? = some s)
    (attempts : List Attempt) :
    (l.session attempts).exitCode = (lastCode? attempts).getD l.exitCode ∧
      ∃ s', (l.session attempts).sinks[i]? = some s' ∧
        s'.sink.received.toList = s.sink.received.toList ++ attempts.flatMap Attempt.taken := by
  induction attempts generalizing l s with
  | nil => exact ⟨rfl, s, hSink, (List.append_nil _).symm⟩
  | cons a rest ih =>
    obtain ⟨hOutput₁, hCode₁, s₁, hSink₁, hReceived₁⟩ := perform_attempt hOutput hSink a
    obtain ⟨hCode, s', hSink', hReceived⟩ := ih hOutput₁ hSink₁
    refine ⟨?_, s', hSink', ?_⟩
    · rw [lastCode?_cons]
      refine hCode.trans ?_
      rw [hCode₁]
      cases lastCode? rest <;> rfl
    · rw [hReceived, hReceived₁, List.flatMap_cons, List.append_assoc]

theorem lastCode?_eq_none_iff {attempts : List Attempt} :
    lastCode? attempts = none ↔ ∀ a ∈ attempts, a.mark? = none := by
  rw [lastCode?, List.getLast?_eq_none_iff, List.filterMap_eq_nil_iff]

theorem exists_of_lastCode? {attempts : List Attempt} {code : Nat}
    (h : lastCode? attempts = some code) : ∃ a ∈ attempts, a.mark? = some code :=
  List.mem_filterMap.mp (List.mem_of_getLast? h)

/-- Without a failure the last mark tells whether there was an error. -/
theorem lastCode?_of_works {attempts : List Attempt} (h : ∀ a ∈ attempts, a.fails = false) :
    (lastCode? attempts).getD 0 = if attempts.any (·.call.isError) then 1 else 0 := by
  have hMark : ∀ a ∈ attempts, a.mark? = if a.call.isError then some 1 else none := fun a ha => by
    simp only [Attempt.mark?, h a ha, Bool.false_eq_true, if_false]
  cases hLast : lastCode? attempts with
  | none =>
    have hNone : attempts.any (·.call.isError) = false := by
      refine List.any_eq_false.mpr fun a ha hError => ?_
      have hHere := lastCode?_eq_none_iff.mp hLast a ha
      rw [hMark a ha, if_pos hError] at hHere
      cases hHere
    rw [hNone]
    rfl
  | some code =>
    obtain ⟨a, ha, hHere⟩ := exists_of_lastCode? hLast
    rw [hMark a ha] at hHere
    cases hError : a.call.isError with
    | false =>
      rw [hError] at hHere
      cases hHere
    | true =>
      rw [hError] at hHere
      cases hHere
      rw [List.any_eq_true.mpr ⟨a, ha, hError⟩]
      rfl

/-- **When the last mark tells of every failure**: if there is none, or if the last mark is one. -/
theorem eq_retained_iff (attempts : List Attempt) :
    (lastCode? attempts).getD 0 = retained attempts ↔
      (∀ a ∈ attempts, a.fails = false) ∨ lastCode? attempts = some 2 := by
  unfold retained
  cases hAny : attempts.any Attempt.fails with
  | false =>
    have hWorks : ∀ a ∈ attempts, a.fails = false := fun a ha =>
      Bool.eq_false_iff.mpr (List.any_eq_false.mp hAny a ha)
    exact iff_of_true (lastCode?_of_works hWorks) (.inl hWorks)
  | true =>
    obtain ⟨a, ha, hFails⟩ := List.any_eq_true.mp hAny
    have hNot : ¬∀ a ∈ attempts, a.fails = false := fun hWorks => by
      rw [hWorks a ha] at hFails
      cases hFails
    rw [if_pos rfl, or_iff_right hNot]
    cases lastCode? attempts with
    | none => simp
    | some code => simp

theorem Attempt.taken_of_works {a : Attempt} (h : a.fails = false) : a.taken = a.bytes := by
  refine ByteSink.fitting_of_room fun n hn => Nat.le_of_not_lt fun hShort => ?_
  rw [a.fails_iff.mpr ⟨n, hn, hShort⟩] at h
  cases h

theorem Attempt.taken_of_fails {a : Attempt} (h : a.fails = true) :
    a.taken <+: a.bytes ∧ a.taken.length < a.bytes.length := by
  refine ⟨ByteSink.fitting_prefix _ _, ?_⟩
  obtain ⟨n, hn, hShort⟩ := a.fails_iff.mp h
  rw [taken, hn, ByteSink.fitting, List.length_take]
  omega

/-- **The exit code of a logger is that of the last mark**: 2 if the last call that failed or was a
message on the error level failed, and 1 if it did not.  So it tells of every failure exactly if
there is no message on the error level, after the last failure, whose line could be written.  The
output has got the lines in order, each with its line feed; of a line that failed it has only the
start, and nothing of that comes up later. -/
theorem exit_code_tells_last_mark (l : Logger) (i : Nat) (s : LogSink) (hOutput : l.output = some i)
    (hSink : l.sinks[i]? = some s) (hNew : l.exitCode = 0) (attempts : List Attempt) :
    let after := l.session attempts
    after.exitCode = (lastCode? attempts).getD 0 ∧
    (after.exitCode = retained attempts ↔
      (∀ a ∈ attempts, a.fails = false) ∨ lastCode? attempts = some 2) ∧
    (∃ s', after.sinks[i]? = some s' ∧
      s'.sink.received.toList = s.sink.received.toList ++ attempts.flatMap Attempt.taken) ∧
    ∀ a ∈ attempts, (a.call.text = "" ∨ ∃ rest, a.call.text = rest ++ "\n") ∧
      (a.fails = false → a.taken = Text.bytes a.call.text) ∧
      (a.fails = true → a.taken <+: Text.bytes a.call.text ∧
        a.taken.length < (Text.bytes a.call.text).length) := by
  intro after
  obtain ⟨hCode, hReceived⟩ := session_spec hOutput hSink attempts
  rw [hNew] at hCode
  refine ⟨hCode, ?_, hReceived, fun a _ => ?_⟩
  · rw [hCode]
    exact eq_retained_iff attempts
  · exact ⟨a.call.text_complete, Attempt.taken_of_works, Attempt.taken_of_fails⟩

/-- A warning that fails after three bytes, an error that gets through, and an error that fails. -/
theorem exit_code_tells_last_mark_failed :
    let l : Logger := { sinks := #[{}], output := some 0 }
    let attempts : List Attempt :=
      [{ call := .log "WARN" "low" [], room := some 3 }, { call := .logErrorIf (some "lost") },
        { call := .logErrorIf none }, { call := .logError "%v" [.number 7], room := some 0 }]
    (l.session attempts).exitCode = 2 ∧ retained attempts = 2 ∧
      ∃ s', (l.session attempts).sinks[0]? = some s' ∧
        s'.sink.received.toList = Text.bytes "WARERROR: lost\n" := by
  intro l attempts
  have hLast : lastCode? attempts = some 2 := by decide +kernel
  obtain ⟨hCode, hRetained, ⟨s', hSink, hReceived⟩, -⟩ :=
    exit_code_tells_last_mark l 0 {} rfl rfl rfl attempts
  rw [hLast] at hCode
  refine ⟨hCode, ?_, s', hSink, hReceived.trans (by decide +kernel)⟩
  rw [← hRetained.mpr (.inr hLast)]
  exact hCode

/-- A line that fails, and then a message on the error level that gets through. -/
theorem failure_forgotten :
    let l : Logger := { sinks := #[{}], output := some 0 }
    let attempts : List Attempt :=
      [{ call := .log "INFO" "x" [], room := some 0 }, { call := .logError "y" [] }]
    attempts.any Attempt.fails = true ∧ retained attempts = 2 ∧
      (l.session attempts).exitCode = 1 := by
  decide +kernel

end HullRobot.Logger
