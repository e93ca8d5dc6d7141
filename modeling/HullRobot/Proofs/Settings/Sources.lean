import HullRobot.Proofs.Flags.Grammar
import HullRobot.Proofs.Text.Literals

/-!
# Where settings come from

Each setting has a flag, and a key in a table of a file.  Here the settings are looked at one by
one: what is said last of a setting counts, and what is said of others does not matter.

* `Setting`, `Setting.Value`: the settings and their values; `Setting.Kind` reads values from the
  texts of a command line and from the nodes of a file.
* `LastSaid`: the last thing that is said of a setting counts, if anything is.
* `change_lastSaid`: **flags settle the settings one by one.**
* `load_lastSaid`: **so does a file.**
* `Effective`: the value of a setting by flags, file and default.
-/

namespace HullRobot

/-! ### One setting -/

/-- The settings. -/
inductive Setting where
  | timeout
  | trace
  | memoryLimit
  | pageSize
  | start
  | render
  | dump
  | raw
  | snapshot
  | traceFile
  deriving DecidableEq

namespace Setting

/-- The value of a setting. -/
inductive Value where
  | number (n : Int64)
  | switch (on : Bool)
  | duration (d : Duration)
  | text (s : String)
  deriving DecidableEq

/-- The kind of value that a setting has. -/
inductive Kind where
  | number
  | switch
  | duration
  | text

/-- The value that a text on the command line stands for. -/
def Kind.ofText? : Kind → String → Option Value
  | .number, source => (Literal.parse source.toList).toOption.map .number
  | .switch, source => (Flags.switch? source).map .switch
  | .duration, source => (Duration.parse source).toOption.map .duration
  | .text, source => some (.text source)

/-- The value that a node of a file stands for. -/
def Kind.ofNode? : Kind → Toml.Node → Option Value
  | .number, node => (Settings.integer? node).map .number
  | .switch, node => (Settings.boolean? node).map .switch
  | .duration, node => (Settings.duration? node).map .duration
  | .text, node => (Settings.text? node).map .text

def kind : Setting → Kind
  | .timeout => .duration
  | .memoryLimit | .pageSize | .start => .number
  | .trace | .render | .dump | .raw => .switch
  | .snapshot | .traceFile => .text

/-- The name of the flag for a setting. -/
def flag : Setting → String
  | .timeout => "timeout"
  | .trace => "trace"
  | .memoryLimit => "mem-limit"
  | .pageSize => "page-size"
  | .start => "start"
  | .render => "render"
  | .dump => "dump"
  | .raw => "raw"
  | .snapshot => "snapshot"
  | .traceFile => "trace-out"

/-- The table of a file that a setting is in. -/
def table : Setting → String
  | .timeout | .trace | .memoryLimit | .pageSize => "machine"
  | .start => "robot"
  | .render | .dump | .raw | .snapshot | .traceFile => "output"

/-- The key of a setting in its table. -/
def key : Setting → String
  | .timeout => "timeout"
  | .trace => "trace"
  | .memoryLimit => "mem-limit"
  | .pageSize => "page-size"
  | .start => "start-color"
  | .render => "render"
  | .dump => "dump"
  | .raw => "raw"
  | .snapshot => "snapshot"
  | .traceFile => "trace"

end Setting

namespace Settings

/-- The value of a setting. -/
def value (s : Settings) : Setting → Setting.Value
  | .timeout => .duration s.timeout
  | .trace => .switch s.trace
  | .memoryLimit => .number s.memoryLimit
  | .pageSize => .number s.pageSize
  | .start => .number s.startColor
  | .render => .switch s.render
  | .dump => .switch s.dump
  | .raw => .switch s.raw
  | .snapshot => .text s.snapshot
  | .traceFile => .text s.traceFile

/-- Settings are their values. -/
theorem eq_of_value {s s' : Settings} (h : ∀ k, s.value k = s'.value k) : s = s' := by
  obtain ⟨pageSize, memoryLimit, timeout, trace, startColor, render, dump, raw, snapshot,
    traceFile⟩ := s
  have hTimeout := h .timeout
  have hTrace := h .trace
  have hMemoryLimit := h .memoryLimit
  have hPageSize := h .pageSize
  have hStart := h .start
  have hRender := h .render
  have hDump := h .dump
  have hRaw := h .raw
  have hSnapshot := h .snapshot
  have hTraceFile := h .traceFile
  simp only [value, Setting.Value.duration.injEq, Setting.Value.switch.injEq,
    Setting.Value.number.injEq, Setting.Value.text.injEq] at *
  subst_vars
  rfl

end Settings

/-- The value of a setting of which nothing is said. -/
def Setting.default (k : Setting) : Setting.Value := ({} : Settings).value k

/-! ### The last counts -/

section LastSaid

variable {α : Type} {read : α → Option Setting.Value} {given more : List α}
  {before between after : Setting.Value}

/-- Of the things given the last one settles a value, and without any it stays as it was before. -/
def LastSaid (read : α → Option Setting.Value) (given : List α) (before after : Setting.Value) :
    Prop :=
  match given.getLast? with
  | none => after = before
  | some last => read last = some after

theorem lastSaid_nil (v : Setting.Value) : LastSaid read [] v v := rfl

theorem lastSaid_single {x : α} (h : read x = some after) (before : Setting.Value) :
    LastSaid read [x] before after := h

theorem LastSaid.append (h : LastSaid read given before between)
    (h' : LastSaid read more between after) : LastSaid read (given ++ more) before after := by
  unfold LastSaid at *
  rw [List.getLast?_append]
  cases hMore : more.getLast? with
  | none =>
    rw [hMore] at h'
    cases h'
    exact h
  | some last =>
    rw [hMore] at h'
    exact h'

end LastSaid

/-! ### Flags -/

/-- The setting that a flag changes, and its new value. -/
def Assignment.setting? : Assignment → Option (Setting × Setting.Value)
  | .config _ => none
  | .input _ => none
  | .timeout d => some (.timeout, .duration d)
  | .trace on => some (.trace, .switch on)
  | .memoryLimit n => some (.memoryLimit, .number n)
  | .pageSize n => some (.pageSize, .number n)
  | .start color => some (.start, .number color)
  | .render on => some (.render, .switch on)
  | .dump on => some (.dump, .switch on)
  | .raw on => some (.raw, .switch on)
  | .snapshot name => some (.snapshot, .text name)
  | .traceFile name => some (.traceFile, .text name)

/-- **A flag changes one setting**, and none if it is about other things. -/
theorem Assignment.value_change (a : Assignment) (s : Settings) (k : Setting) :
    (a.change s).value k =
      a.setting?.elim (s.value k) fun said => if said.1 = k then said.2 else s.value k := by
  cases a <;> cases k <;> rfl

theorem Setting.flag_injective {k k' : Setting} (h : k.flag = k'.flag) : k = k' := by
  cases k <;> cases k' <;> simp [flag] at h ⊢

/-- A flag of this kind says values of the setting. -/
def FlagKind.Sets (k : Setting) (kind : FlagKind) : Prop :=
  match kind, k.kind with
  | .switch make, .switch => ∀ on, (make on).setting? = some (k, .switch on)
  | .number make, .number => ∀ n, (make n).setting? = some (k, .number n)
  | .duration make, .duration => ∀ d, (make d).setting? = some (k, .duration d)
  | .text make, .text => ∀ name, (make name).setting? = some (k, .text name)
  | _, _ => False

namespace Flags

/-- **What there are flags for**: the file with settings, the input values, and the settings. -/
theorem purpose_of_mem {f : Flag} (h : f ∈ Flag.all) :
    f.name = "config" ∧ f.kind = .text .config ∨ f.name = "input" ∧ f.kind = .text .input ∨
      ∃ k : Setting, f.name = k.flag ∧ f.kind.Sets k := by
  simp only [Flag.all, List.mem_cons, List.not_mem_nil, or_false] at h
  rcases h with rfl | rfl | rfl | rfl | rfl | rfl | rfl | rfl | rfl | rfl | rfl | rfl
  · exact .inl ⟨rfl, rfl⟩
  · exact .inr (.inr ⟨.dump, rfl, fun _ => rfl⟩)
  · exact .inr (.inl ⟨rfl, rfl⟩)
  · exact .inr (.inr ⟨.memoryLimit, rfl, fun _ => rfl⟩)
  · exact .inr (.inr ⟨.pageSize, rfl, fun _ => rfl⟩)
  · exact .inr (.inr ⟨.raw, rfl, fun _ => rfl⟩)
  · exact .inr (.inr ⟨.render, rfl, fun _ => rfl⟩)
  · exact .inr (.inr ⟨.snapshot, rfl, fun _ => rfl⟩)
  · exact .inr (.inr ⟨.start, rfl, fun _ => rfl⟩)
  · exact .inr (.inr ⟨.timeout, rfl, fun _ => rfl⟩)
  · exact .inr (.inr ⟨.trace, rfl, fun _ => rfl⟩)
  · exact .inr (.inr ⟨.traceFile, rfl, fun _ => rfl⟩)

/-- A flag for a setting reads the value of its text. -/
theorem assign_sets {f : Flag} {k : Setting} (hSets : f.kind.Sets k) (text : String) :
    match k.kind.ofText? text with
    | some v => ∃ a, assign f text = .ok a ∧ a.setting? = some (k, v)
    | none => ∃ e, assign f text = .error e := by
  unfold FlagKind.Sets at hSets
  split at hSets
  · next make hFlag hKind =>
    simp only [hKind, Setting.Kind.ofText?, assign, hFlag]
    cases switch? text with
    | none => exact ⟨_, rfl⟩
    | some on => exact ⟨_, rfl, hSets on⟩
  · next make hFlag hKind =>
    simp only [hKind, Setting.Kind.ofText?, assign, hFlag]
    cases Literal.parse text.toList with
    | error e => cases e <;> exact ⟨_, rfl⟩
    | ok n => exact ⟨_, rfl, hSets n⟩
  · next make hFlag hKind =>
    simp only [hKind, Setting.Kind.ofText?, assign, hFlag]
    cases Duration.parse text with
    | error e => exact ⟨_, rfl⟩
    | ok d => exact ⟨_, rfl, hSets d⟩
  · next make hFlag hKind =>
    simp only [hKind, Setting.Kind.ofText?, assign, hFlag]
    exact ⟨_, rfl, hSets text⟩
  · cases hSets

/-- What a flag on a command line says: of the file with settings, of the input values, or of the
setting that it is for. -/
theorem says_cases {a : Assignment} {o : Occurrence} (h : Says a o) :
    o.name = "config" ∧ a = .config o.text ∨ o.name = "input" ∧ a = .input o.text ∨
      ∃ (k : Setting) (v : Setting.Value), o.name = k.flag ∧ k.kind.ofText? o.text = some v ∧
        a.setting? = some (k, v) := by
  obtain ⟨f, hFlag, hName, hAssign⟩ := h
  rw [← hName]
  rcases purpose_of_mem hFlag with ⟨hConfig, hKind⟩ | ⟨hInput, hKind⟩ | ⟨k, hOwn, hSets⟩
  · simp only [assign, hKind] at hAssign
    exact .inl ⟨hConfig, (Except.ok.inj hAssign).symm⟩
  · simp only [assign, hKind] at hAssign
    exact .inr (.inl ⟨hInput, (Except.ok.inj hAssign).symm⟩)
  · have hRead := assign_sets hSets o.text
    split at hRead
    · next v hText =>
      obtain ⟨a', hAssign', hSetting⟩ := hRead
      obtain rfl := Except.ok.inj (hAssign'.symm.trans hAssign)
      exact .inr (.inr ⟨k, v, hOwn, hText, hSetting⟩)
    · obtain ⟨e, hError⟩ := hRead
      cases hError.symm.trans hAssign

theorem flag_ne (k : Setting) : k.flag ≠ "config" ∧ k.flag ≠ "input" := by
  cases k <;> simp [Setting.flag]

/-- **Each setting has a flag.** -/
theorem exists_flag (k : Setting) : ∃ f ∈ Flag.all, f.name = k.flag ∧ f.kind.Sets k := by
  have hNames : k.flag ∈ Flag.all.map Flag.name := by cases k <;> decide
  obtain ⟨f, hFlag, hName⟩ := List.mem_map.mp hNames
  rcases purpose_of_mem hFlag with ⟨hConfig, -⟩ | ⟨hInput, -⟩ | ⟨k', hOwn, hSets⟩
  · exact absurd (hName.symm.trans hConfig) (flag_ne k).1
  · exact absurd (hName.symm.trans hInput) (flag_ne k).2
  · obtain rfl := Setting.flag_injective (hName.symm.trans hOwn)
    exact ⟨f, hFlag, hName, hSets⟩

/-- A text with a value can be given to the flag for a setting. -/
theorem says_of_ofText? {k : Setting} {text : String} {v : Setting.Value}
    (h : k.kind.ofText? text = some v) : ∃ a, Says a ⟨k.flag, text⟩ := by
  obtain ⟨f, hFlag, hName, hSets⟩ := exists_flag k
  have hAssign := assign_sets hSets text
  rw [h] at hAssign
  obtain ⟨a, hAssign, -⟩ := hAssign
  exact ⟨a, f, hFlag, hName, hAssign⟩

/-- The texts that a flag is given, in order. -/
def texts (occurrences : List Occurrence) (name : String) : List String :=
  (occurrences.filter fun o => o.name = name).map Occurrence.text

theorem texts_cons (o : Occurrence) (occurrences : List Occurrence) (name : String) :
    texts (o :: occurrences) name =
      (if o.name = name then [o.text] else []) ++ texts occurrences name := by
  by_cases hName : o.name = name <;> simp [texts, hName]

/-- A flag settles its own setting, and no other one. -/
theorem says_lastSaid {a : Assignment} {o : Occurrence} (h : Says a o) (s : Settings)
    (k : Setting) :
    LastSaid k.kind.ofText? (if o.name = k.flag then [o.text] else []) (s.value k)
      ((a.change s).value k) := by
  have hValue := a.value_change s k
  rcases says_cases h with ⟨hName, rfl⟩ | ⟨hName, rfl⟩ | ⟨k', v, hName, hText, hSetting⟩
  · rw [hName, if_neg (flag_ne k).1.symm, hValue]
    exact lastSaid_nil _
  · rw [hName, if_neg (flag_ne k).2.symm, hValue]
    exact lastSaid_nil _
  · rw [hSetting, Option.elim_some] at hValue
    by_cases hSame : k' = k
    · subst hSame
      rw [if_pos hName, hValue, if_pos rfl]
      exact lastSaid_single hText _
    · have hOther : o.name ≠ k.flag := fun hFlag => hSame (Setting.flag_injective (hName ▸ hFlag))
      rw [if_neg hOther, hValue, if_neg hSame]
      exact lastSaid_nil _

/-- **Flags settle the settings one by one.**  The last flag for a setting counts. -/
theorem change_lastSaid {assignments : List Assignment} {occurrences : List Occurrence}
    (h : List.Forall₂ Says assignments occurrences) (rest : List String) (s : Settings)
    (k : Setting) :
    LastSaid k.kind.ofText? (texts occurrences k.flag) (s.value k)
      ((change { assignments, rest } s).value k) := by
  induction h generalizing s with
  | nil => exact lastSaid_nil _
  | @cons a o assignments occurrences hFirst hLater ih =>
    rw [texts_cons]
    exact (says_lastSaid hFirst s k).append (ih (a.change s))

/-- The last of the texts that a flag is given, or the empty text. -/
def lastText (occurrences : List Occurrence) (name : String) : String :=
  ((texts occurrences name).getLast?).getD ""

/-- A text that one flag sets anew and others leave as it is. -/
theorem foldl_texts {step : String → Assignment → String} {name : String}
    (hStep : ∀ a o old, Says a o → step old a = if o.name = name then o.text else old)
    {assignments : List Assignment} {occurrences : List Occurrence}
    (h : List.Forall₂ Says assignments occurrences) (old : String) :
    assignments.foldl step old = ((texts occurrences name).getLast?).getD old := by
  induction h generalizing old with
  | nil => rfl
  | @cons a o assignments occurrences hFirst hLater ih =>
    rw [List.foldl_cons, hStep a o old hFirst, ih, texts_cons, List.getLast?_append]
    cases (texts occurrences name).getLast? with
    | some last => rfl
    | none => by_cases hName : o.name = name <;> simp [hName]

section

variable {assignments : List Assignment} {occurrences : List Occurrence} {rest : List String}

theorem configName_eq (h : List.Forall₂ Says assignments occurrences) :
    configName { assignments, rest } = lastText occurrences "config" := by
  refine foldl_texts (fun a o old hSays => ?_) h ""
  rcases says_cases hSays with ⟨hName, rfl⟩ | ⟨hName, rfl⟩ | ⟨k, v, hName, -, hSetting⟩
  · rw [if_pos hName]
  · rw [if_neg (by rw [hName]; decide)]
  · rw [if_neg (hName ▸ (flag_ne k).1)]
    cases a with
    | config => cases hSetting
    | _ => rfl

theorem inputText_eq (h : List.Forall₂ Says assignments occurrences) :
    inputText { assignments, rest } = lastText occurrences "input" := by
  refine foldl_texts (fun a o old hSays => ?_) h ""
  rcases says_cases hSays with ⟨hName, rfl⟩ | ⟨hName, rfl⟩ | ⟨k, v, hName, -, hSetting⟩
  · rw [if_neg (by rw [hName]; decide)]
  · rw [if_pos hName]
  · rw [if_neg (hName ▸ (flag_ne k).2)]
    cases a with
    | input => cases hSetting
    | _ => rfl

end

end Flags

/-! ### Files -/

namespace Settings

/-! Names that differ in case only are the same. -/

theorem sameName_iff {a b : String} :
    sameName a b = true ↔ a.toList.map foldCase = b.toList.map foldCase := by
  rw [sameName, decide_eq_true_eq]

theorem sameName_trans {a b c : String} (h : sameName a b = true) (h' : sameName b c = true) :
    sameName a c = true :=
  sameName_iff.mpr ((sameName_iff.mp h).trans (sameName_iff.mp h'))

theorem sameName_symm {a b : String} (h : sameName a b = true) : sameName b a = true :=
  sameName_iff.mpr (sameName_iff.mp h).symm

theorem named?_cases {α : Type} (name : α → String) (key : String) (candidates : List α) :
    (∃ a ∈ candidates, sameName (name a) key = true ∧ named? name key candidates = some a) ∨
      (∀ a ∈ candidates, sameName (name a) key = false) ∧ named? name key candidates = none := by
  unfold named?
  cases hExact : candidates.find? fun a => name a = key with
  | some a =>
    have hName : name a = key := by simpa using List.find?_some hExact
    exact .inl ⟨a, List.mem_of_find?_eq_some hExact, sameName_iff.mpr (by rw [hName]), rfl⟩
  | none =>
    rw [Option.none_or]
    cases hSame : candidates.find? fun a => sameName (name a) key with
    | some a =>
      have hName : sameName (name a) key = true := by simpa using List.find?_some hSame
      exact .inl ⟨a, List.mem_of_find?_eq_some hSame, hName, rfl⟩
    | none =>
      refine .inr ⟨fun a ha => ?_, rfl⟩
      simpa using List.find?_eq_none.mp hSame a ha

/-- The item of a file sets this setting, and no other one. -/
def Sets (k : Setting) (set : Settings → Toml.Node → Option Settings) : Prop :=
  ∀ s node s', set s node = some s' →
    ∃ v, k.kind.ofNode? node = some v ∧ ∀ k', s'.value k' = if k' = k then v else s.value k'

theorem sets_of_put {α : Type} {k : Setting} {read : Toml.Node → Option α}
    {wrap : α → Setting.Value} {put : Settings → α → Settings}
    (hRead : ∀ node, k.kind.ofNode? node = (read node).map wrap)
    (hPut : ∀ s x k', (put s x).value k' = if k' = k then wrap x else s.value k') :
    Sets k fun s node => (read node).map (put s) := by
  intro s node s' h
  obtain ⟨x, hx, rfl⟩ := Option.map_eq_some_iff.mp h
  exact ⟨wrap x, by rw [hRead, hx, Option.map_some], hPut s x⟩

/-- **The items of a file are the settings.** -/
theorem setting_of_item {item : Item} (h : item ∈ items) :
    ∃ k : Setting, k.table = item.table ∧ k.key = item.name ∧ Sets k item.set := by
  simp only [items, List.mem_cons, List.not_mem_nil, or_false] at h
  rcases h with rfl | rfl | rfl | rfl | rfl | rfl | rfl | rfl | rfl | rfl
  · exact ⟨.pageSize, rfl, rfl, sets_of_put (fun _ => rfl) fun s n k => by cases k <;> rfl⟩
  · exact ⟨.memoryLimit, rfl, rfl, sets_of_put (fun _ => rfl) fun s n k => by cases k <;> rfl⟩
  · exact ⟨.timeout, rfl, rfl, sets_of_put (fun _ => rfl) fun s d k => by cases k <;> rfl⟩
  · exact ⟨.trace, rfl, rfl, sets_of_put (fun _ => rfl) fun s on k => by cases k <;> rfl⟩
  · exact ⟨.start, rfl, rfl, sets_of_put (fun _ => rfl) fun s n k => by cases k <;> rfl⟩
  · exact ⟨.render, rfl, rfl, sets_of_put (fun _ => rfl) fun s on k => by cases k <;> rfl⟩
  · exact ⟨.dump, rfl, rfl, sets_of_put (fun _ => rfl) fun s on k => by cases k <;> rfl⟩
  · exact ⟨.raw, rfl, rfl, sets_of_put (fun _ => rfl) fun s on k => by cases k <;> rfl⟩
  · exact ⟨.snapshot, rfl, rfl, sets_of_put (fun _ => rfl) fun s name k => by cases k <;> rfl⟩
  · exact ⟨.traceFile, rfl, rfl, sets_of_put (fun _ => rfl) fun s name k => by cases k <;> rfl⟩

theorem item_of_setting (k : Setting) :
    ∃ item ∈ items, item.table = k.table ∧ item.name = k.key := by
  have hAll : (k.table, k.key) ∈ items.map fun item => (item.table, item.name) := by
    cases k <;> decide
  obtain ⟨item, hItem, hPlace⟩ := List.mem_map.mp hAll
  exact ⟨item, hItem, (Prod.mk.inj hPlace).1, (Prod.mk.inj hPlace).2⟩

end Settings

namespace Setting

theorem place_injective (k k' : Setting) :
    k.table = k'.table → Settings.sameName k.key k'.key = true → k = k' := by
  cases k <;> cases k' <;> decide +kernel

/-- The nodes for a setting in its table, in order. -/
def nodesIn (k : Setting) (entries : Toml.Entries) : List Toml.Node :=
  (entries.filter fun entry => Settings.sameName k.key entry.1).map Prod.snd

/-- The nodes for a setting in an entry of a document, in order. -/
def nodesAt (k : Setting) : String × Toml.Node → List Toml.Node
  | (table, .table entries) => if Settings.sameName k.table table then k.nodesIn entries else []
  | _ => []

/-- The nodes for a setting in a document, in order. -/
def nodes (k : Setting) (root : Toml.Entries) : List Toml.Node := root.flatMap k.nodesAt

theorem nodesIn_cons (k : Setting) (name : String) (node : Toml.Node) (entries : Toml.Entries) :
    k.nodesIn ((name, node) :: entries) =
      (if Settings.sameName k.key name = true then [node] else []) ++ k.nodesIn entries := by
  by_cases hName : Settings.sameName k.key name = true <;> simp [nodesIn, hName]

end Setting

namespace Settings

/-- **The entries of a table settle the settings of the table**, and no other ones. -/
theorem takeTable_lastSaid {key table : String} {t t' : Taken} {entries : Toml.Entries}
    (h : takeTable key table t entries = some t') (k : Setting) :
    LastSaid k.kind.ofNode? (if k.table = table then k.nodesIn entries else [])
      (t.settings.value k) (t'.settings.value k) := by
  induction entries generalizing t with
  | nil =>
    cases h
    rw [show k.nodesIn [] = [] from rfl, ite_self]
    exact lastSaid_nil _
  | cons entry entries ih =>
    obtain ⟨name, node⟩ := entry
    have hSplit : (if k.table = table then k.nodesIn ((name, node) :: entries) else []) =
        (if k.table = table ∧ sameName k.key name = true then [node] else []) ++
          (if k.table = table then k.nodesIn entries else []) := by
      by_cases hTable : k.table = table <;> simp [hTable, Setting.nodesIn_cons]
    rw [hSplit]
    rw [takeTable] at h
    rcases named?_cases Item.name name (items.filter fun item => item.table = table) with
      ⟨item, hItem, hName, hNamed⟩ | ⟨hNone, hNamed⟩
    · rw [hNamed] at h
      obtain ⟨settings, hSet, hRest⟩ := Option.bind_eq_some_iff.mp h
      simp only [List.mem_filter, decide_eq_true_eq] at hItem
      obtain ⟨k', hTable, hKey, hSets⟩ := setting_of_item hItem.1
      obtain ⟨v, hNode, hValues⟩ := hSets _ _ _ hSet
      refine LastSaid.append ?_ (ih hRest)
      -- The entry is for `k` just if `k` is the setting of its item.
      rw [hValues k]
      by_cases hSame : k = k'
      · subst hSame
        rw [if_pos ⟨hTable.trans hItem.2, hKey ▸ hName⟩, if_pos rfl]
        exact lastSaid_single hNode _
      · have hOther : ¬(k.table = table ∧ sameName k.key name = true) := by
          rintro ⟨hHere, hLike⟩
          refine hSame (k.place_injective k' (hHere.trans (hTable.trans hItem.2).symm) ?_)
          rw [hKey]
          exact sameName_trans hLike (sameName_symm hName)
        rw [if_neg hOther, if_neg hSame]
        exact lastSaid_nil _
    · rw [hNamed] at h
      have hOther : ¬(k.table = table ∧ sameName k.key name = true) := by
        rintro ⟨rfl, hLike⟩
        obtain ⟨item, hItem, hTable, hKey⟩ := item_of_setting k
        have hNot := hNone item (List.mem_filter.mpr ⟨hItem, decide_eq_true hTable⟩)
        rw [hKey, hLike] at hNot
        cases hNot
      rw [if_neg hOther]
      exact (lastSaid_nil _).append (ih h)

theorem table_mem (k : Setting) : k.table ∈ ["machine", "robot", "output"] := by
  cases k <;> decide

theorem tables_distinct : ∀ a ∈ ["machine", "robot", "output"],
    ∀ b ∈ ["machine", "robot", "output"], sameName a b = true → a = b := by
  decide +kernel

/-- **The tables of a document settle all settings.** -/
theorem takeRoot_lastSaid {t t' : Taken} {root : Toml.Entries} (h : takeRoot t root = some t')
    (k : Setting) :
    LastSaid k.kind.ofNode? (k.nodes root) (t.settings.value k) (t'.settings.value k) := by
  induction root generalizing t with
  | nil =>
    cases h
    exact lastSaid_nil _
  | cons entry root ih =>
    obtain ⟨key, node⟩ := entry
    rw [Setting.nodes, List.flatMap_cons]
    rw [takeRoot] at h
    rcases named?_cases id key ["machine", "robot", "output"] with
      ⟨table, hTable, hName, hNamed⟩ | ⟨hNone, hNamed⟩
    · rw [hNamed] at h
      cases node with
      | table entries =>
        obtain ⟨t₁, hTake, hRest⟩ := Option.bind_eq_some_iff.mp h
        have hHere : sameName k.table key = true ↔ k.table = table := by
          constructor
          · intro hLike
            exact tables_distinct _ (table_mem k) _ hTable
              (sameName_trans hLike (sameName_symm hName))
          · rintro rfl
            exact hName
        have hFirst := takeTable_lastSaid hTake k
        simp only [Setting.nodesAt, hHere]
        exact hFirst.append (ih hRest)
      | leaf value => cases h
      | tables elements => cases h
    · rw [hNamed] at h
      have hOther : sameName k.table key = false := hNone _ (table_mem k)
      have hEmpty : k.nodesAt (key, node) = [] := by
        cases node <;> simp [Setting.nodesAt, hOther]
      rw [hEmpty]
      exact ih h

theorem ofBytes_lastSaid {name : String} {bytes : List UInt8} {s : Settings}
    (h : ofBytes name bytes = .ok s) : ∃ document, Toml.Document.ofBytes bytes = some document ∧
      ∀ k : Setting, LastSaid k.kind.ofNode? (k.nodes document.root) k.default (s.value k) := by
  unfold ofBytes at h
  split at h
  · cases h
  · next document hDocument =>
    split at h
    · cases h
    · next t hTake =>
      simp only at h
      split at h
      · split at h
        · cases h
          exact ⟨document, hDocument, fun k => takeRoot_lastSaid hTake k⟩
        · cases h
      · cases h

/-- The tables of the file with settings.  No file has none. -/
def root? (files : Files) (name : String) : Option Toml.Entries :=
  if name.isEmpty then some []
  else (files.read name).toOption.bind fun bytes =>
    (Toml.Document.ofBytes bytes).map Toml.Document.root

/-- **A file settles the settings one by one**, from their defaults. -/
theorem load_lastSaid {files : Files} {name : String} {s : Settings}
    (h : load files name = .ok s) : ∃ root, root? files name = some root ∧
      ∀ k : Setting, LastSaid k.kind.ofNode? (k.nodes root) k.default (s.value k) := by
  unfold load at h
  unfold root?
  split at h
  · next hNone =>
    cases h
    exact ⟨[], if_pos hNone, fun k => lastSaid_nil _⟩
  · next hSome =>
    split at h
    · cases h
    · next bytes hRead =>
      obtain ⟨document, hDocument, hLastSaid⟩ := ofBytes_lastSaid h
      refine ⟨document.root, ?_, hLastSaid⟩
      rw [if_neg hSome, hRead]
      exact Option.bind_eq_some_iff.mpr ⟨bytes, rfl, by rw [hDocument, Option.map_some]⟩

end Settings

/-- **What a file says of a setting can be said by its flag.** -/
theorem Setting.exists_text {k : Setting} {node : Toml.Node} {v : Value}
    (h : k.kind.ofNode? node = some v) : ∃ text, k.kind.ofText? text = some v := by
  cases hKind : k.kind with
  | number =>
    rw [hKind] at h
    obtain ⟨n, -, rfl⟩ := Option.map_eq_some_iff.mp h
    refine ⟨Decimal.cell n, ?_⟩
    rw [Kind.ofText?, Decimal.cell, Decimal.int, String.toList_ofList, Literal.parse_numeral]
    rfl
  | switch =>
    rw [hKind] at h
    obtain ⟨on, -, rfl⟩ := Option.map_eq_some_iff.mp h
    cases on with
    | true => exact ⟨"true", rfl⟩
    | false => exact ⟨"false", rfl⟩
  | duration =>
    rw [hKind] at h
    obtain ⟨d, hNode, rfl⟩ := Option.map_eq_some_iff.mp h
    have hText : ∃ text, (Duration.parse text).toOption = some d := by
      unfold Settings.duration? at hNode
      split at hNode
      · next source => exact ⟨source, hNode⟩
      · next i => exact ⟨Decimal.cell i, hNode⟩
      · cases hNode
    obtain ⟨text, hText⟩ := hText
    exact ⟨text, Option.map_eq_some_iff.mpr ⟨d, hText, rfl⟩⟩
  | text =>
    rw [hKind] at h
    obtain ⟨name, -, rfl⟩ := Option.map_eq_some_iff.mp h
    exact ⟨name, rfl⟩

/-! ### Flags before files before defaults -/

/-- **The value of a setting** by the flags and the document of a command: that of the last flag for
it, else that of its last node in the document, else the default. -/
inductive Effective (occurrences : List Flags.Occurrence) (root : Toml.Entries) (k : Setting) :
    Setting.Value → Prop
  | flag {text : String} {v : Setting.Value}
      (hLast : (Flags.texts occurrences k.flag).getLast? = some text)
      (hValue : k.kind.ofText? text = some v) : Effective occurrences root k v
  | file {node : Toml.Node} {v : Setting.Value} (hNoFlag : Flags.texts occurrences k.flag = [])
      (hLast : (k.nodes root).getLast? = some node) (hValue : k.kind.ofNode? node = some v) :
      Effective occurrences root k v
  | default (hNoFlag : Flags.texts occurrences k.flag = []) (hNoNode : k.nodes root = []) :
      Effective occurrences root k k.default

variable {occurrences : List Flags.Occurrence} {root : Toml.Entries} {k : Setting}
  {v v' w : Setting.Value}

theorem effective_of_lastSaid (hFile : LastSaid k.kind.ofNode? (k.nodes root) k.default w)
    (hFlags : LastSaid k.kind.ofText? (Flags.texts occurrences k.flag) w v) :
    Effective occurrences root k v := by
  unfold LastSaid at hFile hFlags
  cases hText : (Flags.texts occurrences k.flag).getLast? with
  | some text =>
    rw [hText] at hFlags
    exact .flag hText hFlags
  | none =>
    rw [hText] at hFlags
    subst hFlags
    have hNoFlag := List.getLast?_eq_none_iff.mp hText
    cases hNode : (k.nodes root).getLast? with
    | some node =>
      rw [hNode] at hFile
      exact .file hNoFlag hNode hFile
    | none =>
      rw [hNode] at hFile
      subst hFile
      exact .default hNoFlag (List.getLast?_eq_none_iff.mp hNode)

/-- A setting has one value. -/
theorem Effective.unique (h : Effective occurrences root k v)
    (h' : Effective occurrences root k v') : v = v' := by
  cases h with
  | flag hLast hValue =>
    cases h' with
    | flag hLast' hValue' =>
      cases hLast.symm.trans hLast'
      exact Option.some.inj (hValue.symm.trans hValue')
    | file hNoFlag => rw [hNoFlag] at hLast; cases hLast
    | default hNoFlag => rw [hNoFlag] at hLast; cases hLast
  | file hNoFlag hLast hValue =>
    cases h' with
    | flag hLast' => rw [hNoFlag] at hLast'; cases hLast'
    | file _ hLast' hValue' =>
      cases hLast.symm.trans hLast'
      exact Option.some.inj (hValue.symm.trans hValue')
    | default _ hNoNode => rw [hNoNode] at hLast; cases hLast
  | default hNoFlag hNoNode =>
    cases h' with
    | flag hLast' => rw [hNoFlag] at hLast'; cases hLast'
    | file _ hLast' => rw [hNoNode] at hLast'; cases hLast'
    | default => rfl

end HullRobot
