import HullRobot.Flags
import Mathlib.Data.List.Forall2
import Mathlib.Data.List.TakeWhile

/-!
# How flags are written

The command lines that have flags, as a grammar: which arguments give a flag a value, and where the
flags end.

* `Spelled`, `Written`: the ways to write one flag, and a whole command line.
* `ofString_joined`, `ofString_alone`, `ofString_flag`: an argument is read as a flag just if it is
  written as one.
* `Written.parse_eq`, `written_of_parse`: **reading accepts just the command lines of the grammar**,
  and gives what their flags say, in order.
* `written_of_says`: all that flags can say can be written, in any order.
-/

namespace HullRobot

namespace Flags

/-! ### The grammar -/

/-- A flag on a command line: its name, and the text of its value. -/
structure Occurrence where
  name : String
  text : String
  deriving DecidableEq

/-- One dash or two. -/
def Dashes (dashes : String) : Prop := dashes = "-" ∨ dashes = "--"

/-- A switch takes no value but after an equals sign. -/
def isSwitch : FlagKind → Bool
  | .switch _ => true
  | _ => false

/-- The arguments that give a flag a value. -/
inductive Spelled (f : Flag) (text : String) : List String → Prop
  /-- The value stands after an equals sign. -/
  | joined {dashes : String} (hDashes : Dashes dashes) :
      Spelled f text [dashes ++ f.name ++ "=" ++ text]
  /-- The value is an argument of its own. -/
  | apart {dashes : String} (hDashes : Dashes dashes) (hKind : isSwitch f.kind = false) :
      Spelled f text [dashes ++ f.name, text]
  /-- A switch is on if it is not given a value. -/
  | alone {dashes : String} (hDashes : Dashes dashes) (hKind : isSwitch f.kind = true)
      (hText : text = "true") : Spelled f text [dashes ++ f.name]

/-- The argument is no flag.  A single dash is none, and neither is an empty argument. -/
def Positional (argument : String) : Prop := argument = "-" ∨ argument.toList.head? ≠ some '-'

/-- A command line: its flags in order, and the arguments after them. -/
inductive Written : List String → List Occurrence → List String → Prop
  | nothing : Written [] [] []
  | positional {argument : String} (hArgument : Positional argument) (rest : List String) :
      Written (argument :: rest) [] (argument :: rest)
  /-- Two dashes end the flags. -/
  | terminator (rest : List String) : Written ("--" :: rest) [] rest
  | flag {f : Flag} {text : String} {args later rest : List String} {occurrences : List Occurrence}
      (hFlag : f ∈ Flag.all) (hSpelled : Spelled f text args)
      (hValue : ∃ a, assign f text = .ok a) (hLater : Written later occurrences rest) :
      Written (args ++ later) (⟨f.name, text⟩ :: occurrences) rest

/-- What a flag on a command line says. -/
def Says (a : Assignment) (o : Occurrence) : Prop :=
  ∃ f ∈ Flag.all, f.name = o.name ∧ assign f o.text = .ok a

/-! ### The names of flags -/

/-- A name that is not empty, does not start with a dash and has no equals sign. -/
def wellNamed (name : String) : Bool :=
  match name.toList with
  | [] => false
  | c :: cs => c != '-' && c != '=' && cs.all (· != '=')

theorem wellNamed_of_mem {f : Flag} (h : f ∈ Flag.all) : wellNamed f.name = true := by
  have hAll : ∀ f ∈ Flag.all, wellNamed f.name = true := by decide +kernel
  exact hAll f h

theorem nodup_names : (Flag.all.map Flag.name).Nodup := by decide +kernel

theorem find?_of_nodup {flags : List Flag} (hNames : (flags.map Flag.name).Nodup) {f : Flag}
    (h : f ∈ flags) : flags.find? (fun g => g.name = f.name) = some f := by
  induction flags with
  | nil => cases h
  | cons g flags ih =>
    rw [List.map_cons, List.nodup_cons] at hNames
    rcases List.mem_cons.mp h with rfl | hLater
    · exact List.find?_cons_of_pos (decide_eq_true rfl)
    · have hOther : g.name ≠ f.name := by
        intro hSame
        exact hNames.1 (hSame ▸ List.mem_map_of_mem hLater)
      rw [List.find?_cons_of_neg (by simpa using hOther)]
      exact ih hNames.2 hLater

/-- **A flag is found by its name.** -/
theorem lookUp_of_mem {f : Flag} (h : f ∈ Flag.all) : lookUp f.name = .ok f := by
  simp only [lookUp, find?_of_nodup nodup_names h]

theorem mem_of_lookUp {name : String} {f : Flag} (h : lookUp name = .ok f) :
    f ∈ Flag.all ∧ f.name = name := by
  unfold lookUp at h
  split at h
  · next g hFind =>
    cases h
    exact ⟨List.mem_of_find?_eq_some hFind, by simpa using List.find?_some hFind⟩
  · split at h <;> cases h

/-! ### One argument -/

/-- A name up to the equals sign after it. -/
theorem takeWhile_name {cs : List Char} (h : '=' ∉ cs) (value : List Char) :
    (cs ++ '=' :: value).takeWhile (· ≠ '=') = cs ∧
      (cs ++ '=' :: value).dropWhile (· ≠ '=') = '=' :: value := by
  have hName : ∀ c ∈ cs, decide (c ≠ '=') = true := fun c hc =>
    decide_eq_true fun hEq => h (hEq ▸ hc)
  rw [List.takeWhile_append_of_pos hName, List.dropWhile_append_of_pos hName]
  simp

theorem splitValue_joined {c : Char} {cs : List Char} (hFirst : ¬(c = '-' ∨ c = '='))
    (hRest : '=' ∉ cs) (value : List Char) :
    splitValue (c :: cs ++ '=' :: value) =
      .flag (String.ofList (c :: cs)) (some (String.ofList value)) := by
  obtain ⟨hTake, hDrop⟩ := takeWhile_name hRest value
  rw [List.cons_append, splitValue, if_neg hFirst, hTake, hDrop]

theorem splitValue_alone {c : Char} {cs : List Char} (hFirst : ¬(c = '-' ∨ c = '='))
    (hRest : '=' ∉ cs) : splitValue (c :: cs) = .flag (String.ofList (c :: cs)) none := by
  have hName : ∀ c ∈ cs, decide (c ≠ '=') = true := fun c hc =>
    decide_eq_true fun hEq => hRest (hEq ▸ hc)
  rw [splitValue, if_neg hFirst, List.takeWhile_eq_self_iff.mpr hName,
    List.dropWhile_eq_nil_iff.mpr hName]

/-- Behind the dashes a flag is its name, and then its value if it has one. -/
theorem splitValue_flag {cs : List Char} {name : String} {value? : Option String}
    (h : splitValue cs = .flag name value?) :
    cs = name.toList ++ (value?.elim [] fun value => '=' :: value.toList) := by
  unfold splitValue at h
  split at h
  · cases h
  · next c cs =>
    split at h
    · cases h
    · have hSplit := List.takeWhile_append_dropWhile (p := (· ≠ '=')) (l := cs)
      cases hDrop : cs.dropWhile (· ≠ '=') with
      | nil =>
        rw [hDrop] at h hSplit
        cases h
        rw [String.toList_ofList, List.cons_append]
        exact congrArg (c :: ·) hSplit.symm
      | cons d value =>
        -- The first character that is dropped is the equals sign.
        have hHead := List.head?_dropWhile_not (· ≠ '=') cs
        rw [hDrop] at hHead
        have hEquals : d = '=' := of_not_not (of_decide_eq_false hHead)
        subst hEquals
        rw [hDrop] at h hSplit
        cases h
        rw [String.toList_ofList, Option.elim_some, String.toList_ofList, List.cons_append]
        exact congrArg (c :: ·) hSplit.symm

theorem ofString_dashes {dashes argument : String} {c : Char} {cs : List Char}
    (hDashes : Dashes dashes) (hFirst : c ≠ '-')
    (hArgument : argument.toList = dashes.toList ++ c :: cs) :
    Argument.ofString argument = splitValue (c :: cs) := by
  unfold Argument.ofString
  rw [hArgument]
  rcases hDashes with rfl | rfl
  · simp [hFirst]
  · simp

/-- The first character of a good name, and the others. -/
theorem wellNamed_cases {name : String} (h : wellNamed name = true) :
    ∃ c cs, name = String.ofList (c :: cs) ∧ ¬(c = '-' ∨ c = '=') ∧ '=' ∉ cs := by
  unfold wellNamed at h
  split at h
  · cases h
  · next c cs hName =>
    simp only [Bool.and_eq_true, bne_iff_ne, ne_eq, List.all_eq_true] at h
    obtain ⟨⟨hDash, hEquals⟩, hRest⟩ := h
    refine ⟨c, cs, ?_, not_or.mpr ⟨hDash, hEquals⟩, fun hMem => hRest '=' hMem rfl⟩
    rw [← hName, String.ofList_toList]

theorem ofString_joined {dashes name : String} (hDashes : Dashes dashes)
    (hName : wellNamed name = true) (value : String) :
    Argument.ofString (dashes ++ name ++ "=" ++ value) = .flag name (some value) := by
  obtain ⟨c, cs, rfl, hFirst, hRest⟩ := wellNamed_cases hName
  rw [ofString_dashes hDashes (not_or.mp hFirst).1, ← List.cons_append,
    splitValue_joined hFirst hRest value.toList, String.ofList_toList]
  simp

theorem ofString_alone {dashes name : String} (hDashes : Dashes dashes)
    (hName : wellNamed name = true) : Argument.ofString (dashes ++ name) = .flag name none := by
  obtain ⟨c, cs, rfl, hFirst, hRest⟩ := wellNamed_cases hName
  rw [ofString_dashes hDashes (not_or.mp hFirst).1, splitValue_alone hFirst hRest]
  simp

theorem splitValue_ne (cs : List Char) :
    splitValue cs ≠ .plain ∧ splitValue cs ≠ .terminator := by
  unfold splitValue
  split
  · decide
  · split
    · decide
    · next c cs _ => cases cs.dropWhile (· ≠ '=') <;> simp

/-- What an argument is read as. -/
theorem ofString_cases (argument : String) :
    Argument.ofString argument = .plain ∧ Positional argument ∨
      Argument.ofString argument = .terminator ∧ argument = "--" ∨
      ∃ dashes cs, Dashes dashes ∧ argument.toList = dashes.toList ++ cs ∧
        Argument.ofString argument = splitValue cs := by
  unfold Argument.ofString
  split
  · next hList => exact .inl ⟨rfl, .inl (String.toList_inj.mp hList)⟩
  · next hList => exact .inr (.inl ⟨rfl, String.toList_inj.mp hList⟩)
  · next cs _ hList => exact .inr (.inr ⟨"--", cs, .inr rfl, hList, rfl⟩)
  · next cs _ _ _ hList => exact .inr (.inr ⟨"-", cs, .inl rfl, hList, rfl⟩)
  · next hOther =>
    refine .inl ⟨rfl, .inr fun hHead => ?_⟩
    obtain ⟨cs, hList⟩ := List.head?_eq_some_iff.mp hHead
    exact hOther cs hList

theorem ofString_positional {argument : String} (h : Positional argument) :
    Argument.ofString argument = .plain := by
  rcases h with rfl | hHead
  · rfl
  · rcases ofString_cases argument with ⟨hPlain, -⟩ | ⟨-, rfl⟩ | ⟨dashes, cs, hDashes, hList, -⟩
    · exact hPlain
    · exact absurd rfl hHead
    · rw [hList] at hHead
      rcases hDashes with rfl | rfl <;> exact absurd rfl hHead

/-- **An argument that is read as a flag is written as one.** -/
theorem ofString_flag {argument name : String} {value? : Option String}
    (h : Argument.ofString argument = .flag name value?) :
    ∃ dashes, Dashes dashes ∧
      argument = dashes ++ name ++ (value?.elim "" fun value => "=" ++ value) := by
  rcases ofString_cases argument with ⟨hPlain, -⟩ | ⟨hEnd, -⟩ | ⟨dashes, cs, hDashes, hList, hSplit⟩
  · rw [hPlain] at h
    cases h
  · rw [hEnd] at h
    cases h
  · rw [hSplit] at h
    refine ⟨dashes, hDashes, String.toList_inj.mp ?_⟩
    rw [hList, splitValue_flag h]
    cases value? <;> simp

/-! ### Command lines -/

theorem ownValue?_eq (kind : FlagKind) :
    ownValue? kind = if isSwitch kind then some "true" else none := by
  cases kind <;> rfl

theorem prepend_ok {f : Flag} {text : String} {a : Assignment} (h : assign f text = .ok a)
    (flags : Flags) : prepend f text (.ok flags) =
      .ok { flags with assignments := a :: flags.assignments } := by
  simp only [prepend, h]

theorem prepend_eq_ok {f : Flag} {text : String} {later : Except Stop Flags} {flags : Flags}
    (h : prepend f text later = .ok flags) : ∃ a flags', assign f text = .ok a ∧
      later = .ok flags' ∧ flags = { flags' with assignments := a :: flags'.assignments } := by
  unfold prepend at h
  split at h
  · cases h
  · next a hAssign =>
    split at h
    · cases h
    · next flags' => exact ⟨a, flags', hAssign, rfl, (Except.ok.inj h).symm⟩

/-- The flag that comes first is read first. -/
theorem parse_spelled {f : Flag} {text : String} {args : List String} (hFlag : f ∈ Flag.all)
    (h : Spelled f text args) (later : List String) :
    parse (args ++ later) = prepend f text (parse later) := by
  have hName := wellNamed_of_mem hFlag
  cases h with
  | joined hDashes =>
    rw [List.singleton_append, parse, ofString_joined hDashes hName]
    simp only [lookUp_of_mem hFlag, Option.some_or]
  | apart hDashes hKind =>
    rw [List.cons_append, List.singleton_append, parse, ofString_alone hDashes hName]
    simp only [lookUp_of_mem hFlag, ownValue?_eq, hKind, Option.none_or, Bool.false_eq_true,
      if_false]
  | alone hDashes hKind hText =>
    rw [List.singleton_append, parse, ofString_alone hDashes hName]
    simp only [lookUp_of_mem hFlag, ownValue?_eq, hKind, Option.none_or, if_true, hText]

/-- **The command lines of the grammar are read**, and give what their flags say. -/
theorem Written.parse_eq {args rest : List String} {occurrences : List Occurrence}
    (h : Written args occurrences rest) : ∃ assignments,
      parse args = .ok { assignments, rest } ∧ List.Forall₂ Says assignments occurrences := by
  induction h with
  | nothing => exact ⟨[], rfl, .nil⟩
  | positional hArgument rest =>
    refine ⟨[], ?_, .nil⟩
    simp only [parse, ofString_positional hArgument]
  | terminator rest => exact ⟨[], rfl, .nil⟩
  | @flag f text args later rest occurrences hFlag hSpelled hValue hLater ih =>
    obtain ⟨a, hAssign⟩ := hValue
    obtain ⟨assignments, hParse, hSays⟩ := ih
    refine ⟨a :: assignments, ?_, .cons ⟨f, hFlag, rfl, hAssign⟩ hSays⟩
    rw [parse_spelled hFlag hSpelled, hParse, prepend_ok hAssign]

/-- A flag that has its value, by an equals sign or as a switch. -/
theorem spelled_of_value {f : Flag} {argument text : String} {value? : Option String}
    (hRead : Argument.ofString argument = .flag f.name value?)
    (hText : value?.or (ownValue? f.kind) = some text) : Spelled f text [argument] := by
  obtain ⟨dashes, hDashes, rfl⟩ := ofString_flag hRead
  cases value? with
  | some value =>
    cases hText
    rw [Option.elim_some, ← String.append_assoc]
    exact .joined hDashes
  | none =>
    rw [Option.none_or, ownValue?_eq] at hText
    split at hText
    · next hKind =>
      cases hText
      rw [Option.elim_none, String.append_empty]
      exact .alone hDashes hKind rfl
    · cases hText

/-- A flag that has yet to get its value. -/
theorem spelled_of_no_value {f : Flag} {argument : String} {value? : Option String}
    (hRead : Argument.ofString argument = .flag f.name value?)
    (hNone : value?.or (ownValue? f.kind) = none) (text : String) :
    Spelled f text [argument, text] := by
  obtain ⟨dashes, hDashes, rfl⟩ := ofString_flag hRead
  obtain ⟨rfl, hOwn⟩ := Option.or_eq_none_iff.mp hNone
  rw [ownValue?_eq] at hOwn
  split at hOwn
  · cases hOwn
  · next hKind =>
    rw [Option.elim_none, String.append_empty]
    exact .apart hDashes (Bool.eq_false_iff.mpr hKind)

/-- **A command line that is read is one of the grammar.** -/
theorem written_of_parse {args : List String} {flags : Flags} (h : parse args = .ok flags) :
    ∃ occurrences, Written args occurrences flags.rest := by
  -- A flag and its value come before a command line of the grammar.
  have hFirst : ∀ {f : Flag} {text : String} {args later : List String} {flags : Flags},
      f ∈ Flag.all → Spelled f text args → prepend f text (parse later) = .ok flags →
      (∀ {flags : Flags}, parse later = .ok flags →
        ∃ occurrences, Written later occurrences flags.rest) →
      ∃ occurrences, Written (args ++ later) occurrences flags.rest := by
    intro f text args later flags hFlag hSpelled hPrepend hLater
    obtain ⟨a, flags', hAssign, hParse, rfl⟩ := prepend_eq_ok hPrepend
    obtain ⟨occurrences, hWritten⟩ := hLater hParse
    exact ⟨_, .flag hFlag hSpelled ⟨a, hAssign⟩ hWritten⟩
  fun_induction parse args generalizing flags with
  | case1 =>
    cases h
    exact ⟨[], .nothing⟩
  | case2 argument rest hRead =>
    cases h
    rcases ofString_cases argument with ⟨-, hPositional⟩ | ⟨hEnd, -⟩ | ⟨-, cs, -, -, hSplit⟩
    · exact ⟨[], .positional hPositional rest⟩
    · cases hRead.symm.trans hEnd
    · exact absurd (hSplit.symm.trans hRead) (splitValue_ne cs).1
  | case3 argument rest hRead =>
    cases h
    rcases ofString_cases argument with ⟨hPlain, -⟩ | ⟨-, rfl⟩ | ⟨-, cs, -, -, hSplit⟩
    · cases hRead.symm.trans hPlain
    · exact ⟨[], .terminator rest⟩
    · exact absurd (hSplit.symm.trans hRead) (splitValue_ne cs).2
  | case4 => cases h
  | case5 => cases h
  | case6 argument rest name value? hRead f hName text hText ih =>
    obtain ⟨hFlag, rfl⟩ := mem_of_lookUp hName
    exact hFirst hFlag (spelled_of_value hRead hText) h ih
  | case7 => cases h
  | case8 argument name value? hRead f hName hNone text rest ih =>
    obtain ⟨hFlag, rfl⟩ := mem_of_lookUp hName
    exact hFirst hFlag (spelled_of_no_value hRead hNone text) h ih

/-! ### Command lines for given flags -/

/-- The flag with its value after an equals sign. -/
def Occurrence.joined (o : Occurrence) : String := "-" ++ o.name ++ "=" ++ o.text

/-- A flag can be put in front of every command line. -/
theorem Written.cons {args rest : List String} {occurrences : List Occurrence} {a : Assignment}
    {o : Occurrence} (hSays : Says a o) (h : Written args occurrences rest) :
    Written (o.joined :: args) (o :: occurrences) rest := by
  obtain ⟨f, hFlag, hName, hAssign⟩ := hSays
  obtain ⟨name, text⟩ := o
  cases hName
  exact .flag hFlag (.joined (.inl rfl)) ⟨a, hAssign⟩ h

theorem Written.says {args rest : List String} {occurrences : List Occurrence}
    (h : Written args occurrences rest) : ∀ o ∈ occurrences, ∃ a, Says a o := by
  induction h with
  | nothing => intro o ho; cases ho
  | positional => intro o ho; cases ho
  | terminator => intro o ho; cases ho
  | flag hFlag hSpelled hValue hLater ih =>
    intro o ho
    rcases List.mem_cons.mp ho with rfl | hRest
    · obtain ⟨a, hAssign⟩ := hValue
      exact ⟨a, _, hFlag, rfl, hAssign⟩
    · exact ih o hRest

/-- **All that flags can say can be written**, in any order. -/
theorem written_of_says {occurrences : List Occurrence} (h : ∀ o ∈ occurrences, ∃ a, Says a o)
    (rest : List String) :
    Written (occurrences.map Occurrence.joined ++ "--" :: rest) occurrences rest := by
  induction occurrences with
  | nil => exact .terminator rest
  | cons o occurrences ih =>
    obtain ⟨a, hSays⟩ := h o List.mem_cons_self
    exact (ih fun o' ho => h o' (List.mem_cons_of_mem _ ho)).cons hSays

end Flags

end HullRobot
