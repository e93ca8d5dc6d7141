import HullRobot.Proofs.Command.Tracing
import HullRobot.Proofs.Files.Edits
import HullRobot.Proofs.Settings.Sources

/-!
# Flags and the file with settings

What a command does depends on its flags and on the file with settings through the values of the
settings only, besides the input values and the image.  So it does not matter in which order flags
are given, nor whether a setting is in the file or on the command line.

* `Accepted`, `accepted_iff`: the command lines and files that a command accepts.
* `Accepted.run_eq`: **a command has the settings that are effective**, and goes on from these.
* `carryOut_edited`: an edited file changes nothing but the image that is read from it.
* `flags_override_settings`: flags come before the file, in any order and setting by setting.
* `settings_read_as_image`: the file with settings can be the image too, and then it must not be
  edited.
-/

namespace HullRobot

open Flags (Occurrence Written texts lastText)

/-! ### Values that stay -/

section

variable {occurrences occurrences' : List Occurrence} {root root' : Toml.Entries} {k : Setting}
  {v w : Setting.Value}

/-- The value of a setting depends on what is said of that setting. -/
theorem Effective.congr (h : Effective occurrences root k v)
    (hTexts : texts occurrences' k.flag = texts occurrences k.flag)
    (hNodes : k.nodes root' = k.nodes root) : Effective occurrences' root' k v := by
  cases h with
  | flag hLast hValue => exact .flag (hTexts ▸ hLast) hValue
  | file hNoFlag hLast hValue => exact .file (hTexts.trans hNoFlag) (hNodes ▸ hLast) hValue
  | default hNoFlag hNoNode => exact .default (hTexts.trans hNoFlag) (hNodes.trans hNoNode)

/-- What the file said of a setting can be said by a flag before all others for it. -/
theorem Effective.moved {node : Toml.Node} {text : String} (h : Effective occurrences root k w)
    (hNode : (k.nodes root).getLast? = some node) (hValue : k.kind.ofNode? node = some v)
    (hText : k.kind.ofText? text = some v)
    (hTexts : texts occurrences' k.flag = text :: texts occurrences k.flag) :
    Effective occurrences' root' k w := by
  cases h with
  | flag hLast hLastValue =>
    refine .flag ?_ hLastValue
    rw [hTexts, List.getLast?_cons, hLast, Option.getD_some]
  | file hNoFlag hLast hLastValue =>
    obtain rfl := Option.some.inj (hNode.symm.trans hLast)
    obtain rfl := Option.some.inj (hValue.symm.trans hLastValue)
    refine .flag ?_ hText
    rw [hTexts, hNoFlag, List.getLast?_singleton]
  | default hNoFlag hNoNode =>
    rw [hNoNode] at hNode
    cases hNode

end

namespace Command

/-- Flags and documents with the same values of all settings, and the same input values. -/
structure SameSettings (occurrences : List Occurrence) (root : Toml.Entries)
    (occurrences' : List Occurrence) (root' : Toml.Entries) : Prop where
  values : ∀ k v, Effective occurrences root k v → Effective occurrences' root' k v
  input : lastText occurrences' "input" = lastText occurrences "input"

/-- A setting is moved from the document to its flag, which is given the text before all others for
the setting.  The document says the same of all other settings. -/
structure Moved (k : Setting) (text : String) (occurrences : List Occurrence) (root : Toml.Entries)
    (occurrences' : List Occurrence) (root' : Toml.Entries) : Prop where
  flags : ∀ name, texts occurrences' name = texts (⟨k.flag, text⟩ :: occurrences) name
  document : ∀ k', k' ≠ k → k'.nodes root' = k'.nodes root

section

variable {occurrences occurrences' : List Occurrence} {root root' : Toml.Entries} {k : Setting}
  {v : Setting.Value}

theorem lastText_congr {name : String} (h : texts occurrences' name = texts occurrences name) :
    lastText occurrences' name = lastText occurrences name := by
  unfold lastText
  rw [h]

/-- The order of different flags does not matter. -/
theorem sameSettings_of_texts (h : ∀ name, texts occurrences' name = texts occurrences name)
    (root : Toml.Entries) : SameSettings occurrences root occurrences' root :=
  ⟨fun k _ hValue => hValue.congr (h k.flag) rfl, lastText_congr (h "input")⟩

theorem Moved.sameSettings {node : Toml.Node} {text : String}
    (h : Moved k text occurrences root occurrences' root')
    (hNode : (k.nodes root).getLast? = some node) (hValue : k.kind.ofNode? node = some v)
    (hText : k.kind.ofText? text = some v) :
    SameSettings occurrences root occurrences' root' := by
  have hOther : ∀ name, k.flag ≠ name → texts occurrences' name = texts occurrences name := by
    intro name hName
    rw [h.flags, Flags.texts_cons, if_neg hName, List.nil_append]
  -- No flag but that of `k` is given anything new, and the document changes for `k` only.
  refine ⟨fun k' w hEffective => ?_, lastText_congr (hOther _ (Flags.flag_ne k).2)⟩
  by_cases hSame : k' = k
  · subst hSame
    refine hEffective.moved hNode hValue hText ?_
    rw [h.flags, Flags.texts_cons, if_pos rfl, List.singleton_append]
  · have hFlag : k.flag ≠ k'.flag := fun hEqual => hSame (Setting.flag_injective hEqual).symm
    exact hEffective.congr (hOther _ hFlag) (h.document k' hSame)

end

/-! ### Accepted command lines -/

/-- The command line is one of the grammar, and the file with settings can be loaded. -/
structure Accepted (r : Request) (occurrences : List Occurrence) (rest : List String)
    (root : Toml.Entries) : Prop where
  written : Written r.args occurrences rest
  document : Settings.root? r.files (lastText occurrences "config") = some root
  loads : ∃ s, Settings.load r.files (lastText occurrences "config") = .ok s

theorem accepted_iff (r : Request) :
    (∃ flags s, Flags.parse r.args = .ok flags ∧ Settings.load r.files flags.configName = .ok s) ↔
      ∃ occurrences rest root, Accepted r occurrences rest root := by
  constructor
  · rintro ⟨flags, s, hParse, hLoad⟩
    obtain ⟨occurrences, hWritten⟩ := Flags.written_of_parse hParse
    obtain ⟨assignments, hParse', hSays⟩ := hWritten.parse_eq
    have hFlags := Except.ok.inj (hParse.symm.trans hParse')
    rw [hFlags, Flags.configName_eq hSays] at hLoad
    obtain ⟨root, hRoot, -⟩ := Settings.load_lastSaid hLoad
    exact ⟨occurrences, _, root, hWritten, hRoot, s, hLoad⟩
  · rintro ⟨occurrences, rest, root, hWritten, -, s, hLoad⟩
    obtain ⟨assignments, hParse, hSays⟩ := hWritten.parse_eq
    refine ⟨_, s, hParse, ?_⟩
    rw [Flags.configName_eq hSays]
    exact hLoad

/-- Settings that are valid. -/
def checked (s : Settings) : Except Error Settings :=
  match s.validate with
  | .error e => .error (.settings e)
  | .ok () => .ok s

/-- A command from its settings on. -/
def carryOut (r : Request) (s : Settings) (text : String) (rest : List String) : Outcome :=
  fulfil r ((checked s).bind (planOf r rest text))

theorem run_eq_carryOut {r : Request} {flags : Flags} {s : Settings}
    (hParse : Flags.parse r.args = .ok flags)
    (hLoad : Settings.load r.files flags.configName = .ok s) :
    run r = carryOut r (flags.change s) flags.inputText flags.rest := by
  have hSettings : settings flags r.files = checked (flags.change s) := by
    unfold settings
    rw [hLoad]
    rfl
  have hPlan : plan r flags =
      (settings flags r.files).bind (planOf r flags.rest flags.inputText) := rfl
  rw [run_eq_fulfil hParse, hPlan, hSettings]
  rfl

/-- **A command has the settings that are effective**, and goes on from these. -/
theorem Accepted.run_eq {r : Request} {occurrences : List Occurrence} {rest : List String}
    {root : Toml.Entries} (h : Accepted r occurrences rest root) :
    ∃ s : Settings, (∀ k, Effective occurrences root k (s.value k)) ∧
      run r = carryOut r s (lastText occurrences "input") rest := by
  obtain ⟨assignments, hParse, hSays⟩ := h.written.parse_eq
  obtain ⟨c, hLoad⟩ := h.loads
  obtain ⟨root', hRoot, hFile⟩ := Settings.load_lastSaid hLoad
  obtain rfl := Option.some.inj (h.document.symm.trans hRoot)
  refine ⟨Flags.change { assignments, rest } c, fun k => ?_, ?_⟩
  · exact effective_of_lastSaid (hFile k) (Flags.change_lastSaid hSays rest c k)
  · rw [← Flags.configName_eq hSays] at hLoad
    rw [run_eq_carryOut hParse hLoad, Flags.inputText_eq hSays]

/-- The settings that are effective are the same if all values are. -/
theorem settings_unique {occurrences occurrences' : List Occurrence} {root root' : Toml.Entries}
    {s s' : Settings} (hSame : SameSettings occurrences root occurrences' root')
    (h : ∀ k, Effective occurrences root k (s.value k))
    (h' : ∀ k, Effective occurrences' root' k (s'.value k)) : s' = s :=
  Settings.eq_of_value fun k => (h' k).unique (hSame.values k _ (h k))

/-! ### Edited files -/

/-- The same outcome, but for the content of an edited file. -/
structure Outcome.Edited (path : Path) (old new : List UInt8) (o o' : Outcome) : Prop where
  conclusion : o'.conclusion = o.conclusion
  stdout : o'.stdout = o.stdout
  stderr : o'.stderr = o.stderr
  log : o'.log = o.log
  files : Files.Edited path old new o.files o'.files

/-- The request with another command line and another content of a file. -/
def Request.edit (r : Request) (args : List String) (path : Path) (content : List UInt8) :
    Request :=
  { r with args, files := r.files.put path content }

section

variable {path : Path} {old new : List UInt8} {files files' : Files}

theorem filesAfter_edited (h : Files.Edited path old new files files') (p : Plan)
    (traced : List UInt8) :
    Files.Edited path old new (p.filesAfter files traced) (p.filesAfter files' traced) := by
  unfold Plan.filesAfter
  cases p.tracePath? with
  | none => exact h
  | some written => exact h.put written traced

theorem finish_edited (h : Files.Edited path old new files files') (p : Plan) (limit : Option Int)
    (m : Machine) (log : List String) :
    Outcome.Edited path old new (finish p limit m log files) (finish p limit m log files') := by
  unfold finish
  generalize (if p.settings.raw = true then none else m.bench.robot?) = robot?
  dsimp only
  split
  · exact ⟨rfl, rfl, rfl, rfl, h⟩
  · unfold saveSnapshot Snapshot.save
    rw [h.writable_eq]
    by_cases hNone : p.settings.snapshot.isEmpty = true
    · simp only [hNone, if_true]
      exact ⟨rfl, rfl, rfl, rfl, h⟩
    · simp only [hNone]
      cases files.writable p.settings.snapshot with
      | error e => exact ⟨rfl, rfl, rfl, rfl, h⟩
      | ok written => exact ⟨rfl, rfl, rfl, rfl, h.put written _⟩

variable {r : Request}

theorem conclude_edited (h : Files.Edited path old new r.files (r.files.put path new))
    (args : List String) (p : Plan) (failure? : Option (Failure RunError)) (m : Machine) :
    Outcome.Edited path old new (conclude r p failure? m)
      (conclude (r.edit args path new) p failure? m) := by
  have hFiles := filesAfter_edited h p (printed m p.traceSocket)
  unfold conclude
  cases dumpLog p.settings m with
  | error crash => exact ⟨rfl, rfl, rfl, rfl, hFiles⟩
  | ok dumped =>
    cases failure? with
    | some failure => exact ⟨rfl, rfl, rfl, rfl, hFiles⟩
    | none => exact finish_edited hFiles p r.stdoutLimit m _

theorem fulfil_edited (h : Files.Edited path old new r.files (r.files.put path new))
    (args : List String) (planned : Except Error Plan) :
    Outcome.Edited path old new (fulfil r planned) (fulfil (r.edit args path new) planned) := by
  cases planned with
  | error e => exact ⟨rfl, rfl, rfl, rfl, h⟩
  | ok p =>
    unfold fulfil
    dsimp only [Request.edit]
    cases ({} : Machine).setUpAll (p.setups r.stdoutLimit) with
    | error crash m => exact ⟨rfl, rfl, rfl, rfl, filesAfter_edited h p []⟩
    | ok u m => exact conclude_edited h args p _ _

/-- The image is the same, unless it is read from the edited file. -/
theorem readImage_edited (hContent : r.files.content? path = some old) (new : List UInt8)
    (args : List String) {rest : List String}
    (h : ∀ name ∈ rest, r.files.writable name ≠ .ok path) :
    readImage (r.edit args path new) rest = readImage r rest := by
  match rest with
  | [] => rfl
  | [name] =>
    have hRead := (Files.edited_put hContent new).read_eq (h name List.mem_cons_self)
    simp only [readImage, Request.edit, hRead]
  | _ :: _ :: _ => rfl

/-- **An edited file changes nothing but the image** that is read from it. -/
theorem carryOut_edited (hContent : r.files.content? path = some old) {args rest : List String}
    (hImage : readImage (r.edit args path new) rest = readImage r rest) (s : Settings)
    (text : String) :
    Outcome.Edited path old new (carryOut r s text rest)
      (carryOut (r.edit args path new) s text rest) := by
  -- Of the files the plan needs the image, and the path of the file for the values.
  have hFiles := Files.edited_put hContent new
  have hPlan : planOf (r.edit args path new) rest text = planOf r rest text := by
    funext s
    unfold planOf tracePath?
    rw [hImage, show (r.edit args path new).files.writable s.traceFile = _ from
      hFiles.writable_eq s.traceFile]
  unfold carryOut
  rw [hPlan]
  exact fulfil_edited hFiles args _

end

section

variable {r : Request} {occurrences occurrences' : List Occurrence} {args' rest : List String}
  {root root' : Toml.Entries} {path : Path} {old new : List UInt8}

/-- **Other flags with the same values of the settings change nothing.** -/
theorem Accepted.run_eq_of_sameSettings (h : Accepted r occurrences rest root)
    (h' : Accepted { r with args := args' } occurrences' rest root')
    (hSame : SameSettings occurrences root occurrences' root') :
    run { r with args := args' } = run r := by
  obtain ⟨s, hValues, hRun⟩ := h.run_eq
  obtain ⟨s', hValues', hRun'⟩ := h'.run_eq
  obtain rfl := settings_unique hSame hValues hValues'
  rw [hRun, hRun', hSame.input]
  rfl

/-- **Neither does another content of a file**, if the image is the same. -/
theorem Accepted.run_edited (h : Accepted r occurrences rest root)
    (hContent : r.files.content? path = some old)
    (h' : Accepted (r.edit args' path new) occurrences' rest root')
    (hSame : SameSettings occurrences root occurrences' root')
    (hImage : readImage (r.edit args' path new) rest = readImage r rest) :
    Outcome.Edited path old new (run r) (run (r.edit args' path new)) := by
  obtain ⟨s, hValues, hRun⟩ := h.run_eq
  obtain ⟨s', hValues', hRun'⟩ := h'.run_eq
  obtain rfl := settings_unique hSame hValues hValues'
  rw [hRun, hRun', hSame.input]
  exact carryOut_edited hContent hImage s' _

/-- The flags of an accepted command line are accepted in any order. -/
theorem Accepted.of_texts (h : Accepted r occurrences rest root)
    (hWritten : Written args' occurrences' rest)
    (hTexts : ∀ name, texts occurrences' name = texts occurrences name) :
    Accepted { r with args := args' } occurrences' rest root := by
  have hConfig := lastText_congr (hTexts "config")
  refine ⟨hWritten, ?_, ?_⟩
  · rw [hConfig]
    exact h.document
  · rw [hConfig]
    exact h.loads

/-- Flags that are given the same texts say the same. -/
theorem says_of_texts (h : ∀ o ∈ occurrences, ∃ a, Flags.Says a o)
    (hTexts : ∀ name, texts occurrences' name = texts occurrences name) :
    ∀ o ∈ occurrences', ∃ a, Flags.Says a o := by
  intro o ho
  have hText : o.text ∈ texts occurrences' o.name :=
    List.mem_map.mpr ⟨o, List.mem_filter.mpr ⟨ho, decide_eq_true rfl⟩, rfl⟩
  rw [hTexts] at hText
  obtain ⟨o', hMem, hSame⟩ := List.mem_map.mp hText
  obtain ⟨ho', hName⟩ := List.mem_filter.mp hMem
  have hEqual : o' = o := by
    cases o
    cases o'
    simp only [decide_eq_true_eq] at hName hSame
    rw [hName, hSame]
  exact hEqual ▸ h o' ho'

end

/-- The file with settings is there if it says anything. -/
theorem Accepted.exists_file {r : Request} {occurrences : List Occurrence} {rest : List String}
    {root : Toml.Entries} (h : Accepted r occurrences rest root) (hRoot : root ≠ []) :
    ∃ path old, r.files.writable (lastText occurrences "config") = .ok path ∧
      r.files.content? path = some old := by
  have hDocument := h.document
  unfold Settings.root? at hDocument
  split at hDocument
  · exact absurd (Option.some.inj hDocument).symm hRoot
  · obtain ⟨bytes, hRead, -⟩ := Option.bind_eq_some_iff.mp hDocument
    cases hFile : r.files.read (lastText occurrences "config") with
    | error e =>
      rw [hFile] at hRead
      cases hRead
    | ok old =>
      obtain ⟨path, hPath, hContent⟩ := Files.content?_of_read hFile
      exact ⟨path, old, hPath, hContent⟩

/-! ### Flags before the file -/

/-- **Flags override the file with settings, setting by setting and in any order.**  A command line
is accepted just if it is one of the grammar and its file can be loaded.  Then each setting has the
value of the last flag for it, else that of the file, else the default.  The outcome depends on the
flags and the file only through these values, the input values and the image: with other flags it
is the same, and with another content of a file it is the same but for that content.  So different
flags may be given in any order.  And a setting may be moved from the file to its flag, which can
say all that the file can; but the image must not be read from the file that is edited. -/
theorem flags_override_settings (r : Request) :
    ((∃ flags s, Flags.parse r.args = .ok flags ∧
        Settings.load r.files flags.configName = .ok s) ↔
      ∃ occurrences rest root, Accepted r occurrences rest root) ∧
    ∀ occurrences rest root, Accepted r occurrences rest root →
      (∃ s : Settings, (∀ k, Effective occurrences root k (s.value k)) ∧
        run r = carryOut r s (lastText occurrences "input") rest) ∧
      (∀ args' occurrences' root', Accepted { r with args := args' } occurrences' rest root' →
        SameSettings occurrences root occurrences' root' → run { r with args := args' } = run r) ∧
      (∀ path old new args' occurrences' root', r.files.content? path = some old →
        Accepted (r.edit args' path new) occurrences' rest root' →
        SameSettings occurrences root occurrences' root' →
        (readImage (r.edit args' path new) rest = readImage r rest →
          Outcome.Edited path old new (run r) (run (r.edit args' path new))) ∧
        ((∀ name ∈ rest, r.files.writable name ≠ .ok path) →
          readImage (r.edit args' path new) rest = readImage r rest)) ∧
      (∀ occurrences', (∀ name, texts occurrences' name = texts occurrences name) →
        (∃ args', Written args' occurrences' rest) ∧
        ∀ args', Written args' occurrences' rest → run { r with args := args' } = run r) ∧
      ∀ k node v, (k.nodes root).getLast? = some node → k.kind.ofNode? node = some v →
        (∃ text, k.kind.ofText? text = some v) ∧
        ∃ path old, r.files.writable (lastText occurrences "config") = .ok path ∧
          r.files.content? path = some old ∧
          ∀ text, k.kind.ofText? text = some v →
            (∃ args', Written args' (⟨k.flag, text⟩ :: occurrences) rest) ∧
            ∀ new args' occurrences' root',
              Accepted (r.edit args' path new) occurrences' rest root' →
              Moved k text occurrences root occurrences' root' →
              readImage (r.edit args' path new) rest = readImage r rest →
              Outcome.Edited path old new (run r) (run (r.edit args' path new)) := by
  refine ⟨accepted_iff r, fun occurrences rest root h => ?_⟩
  refine ⟨h.run_eq, ?_, ?_, ?_, ?_⟩
  · intro args' occurrences' root' h' hSame
    exact h.run_eq_of_sameSettings h' hSame
  · intro path old new args' occurrences' root' hContent h' hSame
    exact ⟨h.run_edited hContent h' hSame, readImage_edited hContent new args'⟩
  · intro occurrences' hTexts
    refine ⟨⟨_, Flags.written_of_says (says_of_texts h.written.says hTexts) rest⟩, ?_⟩
    intro args' hWritten
    exact h.run_eq_of_sameSettings (h.of_texts hWritten hTexts) (sameSettings_of_texts hTexts root)
  · intro k node v hNode hValue
    -- A document that says something is that of a file.
    have hRoot : root ≠ [] := by
      rintro rfl
      cases hNode
    obtain ⟨path, old, hPath, hContent⟩ := h.exists_file hRoot
    refine ⟨Setting.exists_text hValue, path, old, hPath, hContent, fun text hText => ?_⟩
    obtain ⟨a, hSays⟩ := Flags.says_of_ofText? hText
    refine ⟨⟨_, h.written.cons hSays⟩, ?_⟩
    intro new args' occurrences' root' hAccepted hMoved hImage
    exact h.run_edited hContent hAccepted (hMoved.sameSettings hNode hValue hText) hImage

/-- A switch that is on in the file is off on the command line, and another one is moved from the
file to its flag. -/
theorem flags_override_settings_switches :
    let r : Request := {
      args := ["-config", "c", "--dump=false", "-start", "1"],
      stdin := Text.bytes "104,1,104,0,99",
      files := { entries := [(["c"], Text.bytes "[output]\ndump = true\nrender = true\n")] } }
    let moved := r.edit ("-render" :: r.args) ["c"] (Text.bytes "[output]\ndump = true\n")
    (run r).log = [] ∧ (run r).stdout = Text.bytes "1\n#\n" ∧
      run { r with args := ["-start", "1", "-config", "c", "--dump=false"] } = run r ∧
      (run moved).conclusion = (run r).conclusion ∧ (run moved).stdout = (run r).stdout := by
  intro r moved
  have hConfig : ∀ {later occurrences rest}, Written later occurrences rest →
      Written ("-config" :: "c" :: later) (⟨"config", "c"⟩ :: occurrences) rest :=
    .flag (List.get_mem Flag.all ⟨0, by decide⟩) (.apart (.inl rfl) rfl) ⟨_, rfl⟩
  have hDump : ∀ {later occurrences rest}, Written later occurrences rest →
      Written ("--dump=false" :: later) (⟨"dump", "false"⟩ :: occurrences) rest :=
    fun h => @Written.flag _ "false" ["--dump=false"] _ _ _
      (List.get_mem Flag.all ⟨1, by decide⟩) (.joined (.inr rfl)) ⟨_, rfl⟩ h
  have hStart : ∀ {later occurrences rest}, Written later occurrences rest →
      Written ("-start" :: "1" :: later) (⟨"start", "1"⟩ :: occurrences) rest :=
    .flag (List.get_mem Flag.all ⟨8, by decide⟩) (.apart (.inl rfl) rfl) ⟨_, rfl⟩
  have hRender : ∀ {later occurrences rest}, Written later occurrences rest →
      Written ("-render" :: later) (⟨"render", "true"⟩ :: occurrences) rest :=
    .flag (List.get_mem Flag.all ⟨6, by decide⟩) (.alone (.inl rfl) rfl rfl) ⟨_, rfl⟩
  have hWritten := hConfig (hDump (hStart .nothing))
  have hAccepted : Accepted r _ _ [("output",
      .table [("dump", .leaf (.boolean true)), ("render", .leaf (.boolean true))])] :=
    ⟨hWritten, rfl, { dump := true, render := true }, by decide +kernel⟩
  obtain ⟨-, -, -, hOrder, hMove⟩ := (flags_override_settings r).2 _ _ _ hAccepted
  obtain ⟨-, path, old, hPath, -, hMoved⟩ := hMove .render _ (.switch true) rfl rfl
  have hFile : r.files.writable "c" = .ok ["c"] := by decide +kernel
  obtain rfl := Except.ok.inj (hFile.symm.trans hPath)
  have hSame := (hMoved "true" rfl).2 (Text.bytes "[output]\ndump = true\n") moved.args _
    [("output", .table [("dump", .leaf (.boolean true))])]
    ⟨hRender hWritten, rfl, { dump := true }, by decide +kernel⟩
    ⟨fun _ => rfl, fun k hOther => by
      cases k with
      | render => exact absurd rfl hOther
      | _ => rfl⟩ rfl
  refine ⟨by decide +kernel, by decide +kernel, ?_, hSame.conclusion, hSame.stdout⟩
  refine (hOrder _ (fun name => ?_)).2 _ (hStart (hConfig (hDump .nothing)))
  simp only [Flags.texts_cons]
  by_cases hName : "start" = name
  · subst hName
    rfl
  · simp only [if_neg hName, List.nil_append]

/-- **The file with settings can be the image too.**  To move a setting to its flag is to edit the
image then, and the command ends in another way. -/
theorem settings_read_as_image :
    let r : Request := {
      args := ["-config", "c", "c"],
      files := { entries := [(["c"], Text.bytes "[output]\nraw = true\n")] } }
    let moved := r.edit ("-raw=true" :: r.args) ["c"] []
    ∃ occurrences root, Accepted r occurrences ["c"] root ∧
      (∃ node, (Setting.raw.nodes root).getLast? = some node ∧
        Setting.raw.kind.ofNode? node = some (.switch true)) ∧
      Accepted moved (⟨"raw", "true"⟩ :: occurrences) ["c"] [] ∧
      Moved .raw "true" occurrences root (⟨"raw", "true"⟩ :: occurrences) [] ∧
      (run moved).conclusion ≠ (run r).conclusion := by
  intro r moved
  have hWritten : Written r.args [⟨"config", "c"⟩] ["c"] :=
    .flag (List.get_mem Flag.all ⟨0, by decide⟩) (.apart (.inl rfl) rfl) ⟨_, rfl⟩
      (.positional (.inr (by decide)) [])
  refine ⟨[⟨"config", "c"⟩], [("output", .table [("raw", .leaf (.boolean true))])],
    ⟨hWritten, rfl, { raw := true }, by decide +kernel⟩, ⟨_, rfl, rfl⟩,
    ⟨?_, rfl, {}, by decide +kernel⟩, ⟨fun _ => rfl, ?_⟩, ?_⟩
  · exact @Written.flag _ "true" ["-raw=true"] _ _ _ (List.get_mem Flag.all ⟨5, by decide⟩)
      (.joined (.inl rfl)) ⟨_, rfl⟩ hWritten
  · intro k hOther
    cases k with
    | raw => exact absurd rfl hOther
    | _ => rfl
  · decide +kernel

end Command

end HullRobot
