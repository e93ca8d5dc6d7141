import HullRobot.Proofs.Command.Replay

/-!
# Edited files

Two file systems that differ in the content of one file resolve all names alike.  So they read the
same from all other files, and what is written to both of them leaves no further difference.

* `Edited`: the same files, but for the content of one.  `edited_put`: **to put a file in place of
  one that is there is to edit it.**
* `Edited.writable_eq`, `Edited.read_eq`: names lead to the same files, and these read the same.
* `Edited.put`: **writing a file keeps the rest edited as it was.**
-/

namespace HullRobot.Files

/-- The same files, but for the one at a path: it has the content `old` here and `new` there, or it
has been written since, to both alike. -/
structure Edited (path : Path) (old new : List UInt8) (fs fs' : Files) : Prop where
  elsewhere : ∀ other, other ≠ path → fs'.content? other = fs.content? other
  here : fs.content? path = some old ∧ fs'.content? path = some new ∨
    ∃ content, fs.content? path = some content ∧ fs'.content? path = some content
  directories : ∀ directory, fs'.isDirectory directory = fs.isDirectory directory

variable {fs fs' : Files} {path : Path} {old new : List UInt8}

/-! ### Directories -/

theorem content?_null (fs : Files) : fs.content? nullDevice = some [] := if_pos rfl

theorem put_null (fs : Files) (content : List UInt8) : fs.put nullDevice content = fs := if_pos rfl

/-- A file makes directories of all that is above it. -/
theorem isDirectory_put (h : path ≠ nullDevice) (content : List UInt8) (directory : Path) :
    (fs.put path content).isDirectory directory =
      (fs.isDirectory directory || directory.isPrefixOf path && path != directory) := by
  rw [put, if_neg h, isDirectory, isDirectory, Bool.eq_iff_iff]
  simp only [Bool.or_eq_true, List.any_eq_true, List.mem_cons, List.mem_map, List.mem_append,
    List.mem_filter, List.map_append, List.map_cons, List.map_nil, List.not_mem_nil, or_false]
  constructor
  · rintro (hKnown | ⟨file, hNull | ⟨e, hEntry, hFile⟩ | hNew, hBelow⟩)
    · exact .inl (.inl hKnown)
    · exact .inl (.inr ⟨file, .inl hNull, hBelow⟩)
    · exact .inl (.inr ⟨file, .inr ⟨e, hEntry.1, hFile⟩, hBelow⟩)
    · exact .inr (hNew ▸ hBelow)
  · rintro ((hKnown | ⟨file, hNull | ⟨e, hEntry, rfl⟩, hBelow⟩) | hNew)
    · exact .inl hKnown
    · exact .inr ⟨file, .inl hNull, hBelow⟩
    -- A file that is replaced lies in the directory just as the new one does.
    · by_cases hSame : e.1 = path
      · exact .inr ⟨path, .inr (.inr rfl), hSame ▸ hBelow⟩
      · exact .inr ⟨e.1, .inr (.inl ⟨e, ⟨hEntry, by simpa using hSame⟩, rfl⟩), hBelow⟩
    · exact .inr ⟨path, .inr (.inr rfl), hNew⟩

theorem mem_of_content? (h : path ≠ nullDevice) (hContent : fs.content? path = some old) :
    path ∈ fs.entries.map Prod.fst := by
  rw [content?, if_neg h] at hContent
  obtain ⟨e, hFind, -⟩ := Option.map_eq_some_iff.mp hContent
  have hPath : e.1 = path := by simpa using List.find?_some hFind
  exact List.mem_map.mpr ⟨e, List.mem_of_find?_eq_some hFind, hPath⟩

/-- Putting a file in place of another one makes no directories. -/
theorem isDirectory_put_same (hContent : fs.content? path = some old) (content : List UInt8)
    (directory : Path) :
    (fs.put path content).isDirectory directory = fs.isDirectory directory := by
  by_cases hNull : path = nullDevice
  · rw [hNull, put_null]
  · rw [isDirectory_put hNull]
    have hFile := mem_of_content? hNull hContent
    cases hBelow : directory.isPrefixOf path && path != directory with
    | false => exact Bool.or_false _
    | true =>
      have hKnown : fs.isDirectory directory = true := by
        rw [isDirectory, Bool.or_eq_true, List.any_eq_true]
        exact .inr ⟨path, List.mem_cons_of_mem _ hFile, hBelow⟩
      rw [hKnown, Bool.or_true]

/-- **To put a file in place of one that is there is to edit it.** -/
theorem edited_put (hContent : fs.content? path = some old) (new : List UInt8) :
    Edited path old new fs (fs.put path new) := by
  refine ⟨fun other hOther => content?_put_other hOther, ?_, isDirectory_put_same hContent new⟩
  by_cases hNull : path = nullDevice
  · rw [hNull, put_null]
    exact .inr ⟨[], content?_null fs, content?_null fs⟩
  · exact .inl ⟨hContent, content?_put_self hNull⟩

/-! ### Names -/

namespace Edited

variable (h : Edited path old new fs fs')

include h

theorem isSome_content? (other : Path) :
    (fs'.content? other).isSome = (fs.content? other).isSome := by
  by_cases hOther : other = path
  · subst hOther
    rcases h.here with ⟨hHere, hThere⟩ | ⟨content, hHere, hThere⟩
    · rw [hHere, hThere]
      rfl
    · rw [hHere, hThere]
  · rw [h.elsewhere other hOther]

theorem descend_eq : fs'.descend = fs.descend := by
  funext here step
  unfold descend
  rw [h.directories, h.isSome_content?]

theorem locate_eq (name : String) : fs'.locate name = fs.locate name := by
  unfold locate
  rw [h.descend_eq]

theorem target_eq (here : Path) (step : String) : fs'.target here step = fs.target here step := by
  unfold target
  rw [h.descend_eq]

/-- **Names lead to the same files.** -/
theorem writable_eq (name : String) : fs'.writable name = fs.writable name := by
  unfold writable
  rw [h.locate_eq]
  cases fs.locate name with
  | error reason => rfl
  | ok place =>
    simp only
    rw [h.target_eq]

/-- **A name that does not lead to the edited file reads the same.** -/
theorem read_eq {name : String} (hName : fs.writable name ≠ .ok path) :
    fs'.read name = fs.read name := by
  unfold writable at hName
  unfold read
  rw [h.locate_eq]
  cases hPlace : fs.locate name with
  | error reason => rfl
  | ok place =>
    rw [hPlace] at hName
    simp only at hName ⊢
    rw [h.target_eq]
    cases hTarget : fs.target place.1 place.2 with
    | file other =>
      by_cases hSlash : isSlashed name = true
      · simp only [hSlash, if_true]
      · rw [hTarget, if_neg hSlash] at hName
        have hOther : other ≠ path := fun hSame => hName (congrArg Except.ok hSame)
        simp only [h.elsewhere other hOther]
    | directory => rfl
    | vacant other => rfl
    | nowhere reason => rfl

/-- **Writing a file keeps the rest edited as it was.** -/
theorem put (written : Path) (content : List UInt8) :
    Edited path old new (fs.put written content) (fs'.put written content) := by
  by_cases hNull : written = nullDevice
  · rw [hNull, put_null, put_null]
    exact h
  · refine ⟨fun other hOther => ?_, ?_, fun directory => ?_⟩
    · by_cases hWritten : other = written
      · rw [hWritten, content?_put_self hNull, content?_put_self hNull]
      · rw [content?_put_other hWritten, content?_put_other hWritten, h.elsewhere other hOther]
    · by_cases hWritten : path = written
      · rw [hWritten, content?_put_self hNull, content?_put_self hNull]
        exact .inr ⟨content, rfl, rfl⟩
      · rw [content?_put_other hWritten, content?_put_other hWritten]
        exact h.here
    · rw [isDirectory_put hNull, isDirectory_put hNull, h.directories]

end Edited

theorem isSome_of_target {here : Path} {step : String} (h : fs.target here step = .file path) :
    (fs.content? path).isSome = true := by
  unfold target descend at h
  split_ifs at h with _ _ _ _ hThere
  · injection h with hPath
    rwa [← hPath]

/-- A file that can be read is there. -/
theorem content?_of_read {name : String} {bytes : List UInt8} (h : fs.read name = .ok bytes) :
    ∃ path, fs.writable name = .ok path ∧ fs.content? path = some bytes := by
  unfold read at h
  unfold writable
  cases hPlace : fs.locate name with
  | error reason => rw [hPlace] at h; cases h
  | ok place =>
    rw [hPlace] at h
    simp only at h ⊢
    cases hTarget : fs.target place.1 place.2 with
    | directory => rw [hTarget] at h; cases h
    | vacant other => rw [hTarget] at h; cases h
    | nowhere reason => rw [hTarget] at h; cases h
    | file path =>
      rw [hTarget] at h
      by_cases hSlash : isSlashed name = true
      · simp only [hSlash, if_true] at h
        cases h
      · simp only [hSlash] at h ⊢
        refine ⟨path, rfl, ?_⟩
        have hThere : (fs.content? path).isSome = true := isSome_of_target hTarget
        obtain ⟨content, hContent⟩ := Option.isSome_iff_exists.mp hThere
        rw [hContent] at h ⊢
        exact congrArg some (Except.ok.inj h)

end HullRobot.Files
