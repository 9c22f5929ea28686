import RobotJobs.Proofs.Job.Folder
import RobotJobs.Proofs.Job.Reference
import RobotJobs.Proofs.Settings.Files
import RobotJobs.Settings.Entries

/-!
# What loaded settings can be relied on

However settings come about, their marker holds a character that is not blank and their
extension holds one that is not a dot (`sound_load`).  A file is checked for this, the
environment overrides neither with a value of which nothing would be left, and the settings
that nothing was set for have it.

That is less than a marker needs.  A marker from the environment is trimmed, one from a
file is not, and one that begins with a blank character is found in no line
(`load_marker_namesEveryJob_iff`).
-/

namespace RobotJobs

namespace Settings

variable {s : Settings} {read : SettingsReader} {look : Path → FoundFile} {file : Path}
  {files : List Path} {found : Settings × List Notice} {base configFolder : Option Path}
  {env : Environment}

/-- The marker holds a character that is not blank, and the extension one that is not a
dot. -/
structure Sound (s : Settings) : Prop where
  marker : ∃ c ∈ s.marker.toList, Text.isBlank c = false
  extension : ∃ c ∈ s.extension.toList, c ≠ '.'

/-! ### Settings from files -/

/-- An extension of which something is left is more than dots. -/
theorem exists_ne_dot_of_bareExtension {extension : String} (h : bareExtension extension ≠ "") :
  ∃ c ∈ extension.toList, c ≠ '.'
  := by
  obtain ⟨c, hc, hdot⟩ : ∃ c ∈ (Text.trimmed extension).toList, c ≠ '.' := by
    by_contra hall
    push Not at hall
    exact h (withoutLeadingDots_eq_empty_iff.2 hall)
  rw [Text.trimmed, String.toList_ofList] at hc
  exact ⟨c, Text.trim_subset hc, hdot⟩

theorem sound_of_isUsable (h : s.isUsable = true) :
  s.Sound
  := by
  obtain ⟨hmarker, hextension⟩ := Bool.and_eq_true_iff.1 h
  constructor
  case marker =>
    by_contra hall
    push Not at hall
    have hblank : Text.trimmed s.marker = "" := by
      apply Text.trimmed_eq_empty_iff.2
      intro c hc
      simpa using hall c hc
    simp [hblank] at hmarker
  case extension =>
    apply exists_ne_dot_of_bareExtension
    simpa using hextension

/-- Two steps succeed only if the first one does, and then the second one on its result. -/
theorem exists_of_bind_eq_ok {ε α β : Type} {x : Except ε α} {f : α → Except ε β} {b : β}
    (h : (x >>= f) = .ok b) :
  ∃ a, x = .ok a ∧ f a = .ok b
  := by
  cases x with
  | error e => cases h
  | ok a => exact ⟨a, rfl, h⟩

/-- What is made of the result of a step is made of a success. -/
theorem exists_of_map_eq_ok {ε α β : Type} {x : Except ε α} {f : α → β} {b : β}
    (h : x.map f = .ok b) :
  ∃ a, x = .ok a ∧ f a = b
  := by
  cases x with
  | error e => cases h
  | ok a => exact ⟨a, rfl, Except.ok.inj h⟩

/-- A success stays what it is when the errors are put in other words. -/
theorem mapError_eq_ok_iff {ε δ α : Type} {x : Except ε α} {f : ε → δ} {a : α} :
  x.mapError f = .ok a ↔ x = .ok a
  := by
  cases x <;> simp [Except.mapError]

/-- A text gives settings if it can be read and what is read passes the check; the unknown
keys are the last parts of their paths. -/
theorem ofText_eq_ok {content : List Char} {unknown : List String}
    (h : ofText read content = .ok (s, unknown)) :
  ∃ t paths, read content = .ok (t, paths) ∧ t.checked = .ok s ∧ unknown = paths.map lastPart
  := by
  obtain ⟨⟨t, paths⟩, hread, hrest⟩ := exists_of_bind_eq_ok h
  obtain ⟨s', hchecked, hgiven⟩ := exists_of_bind_eq_ok hrest
  cases hgiven
  use t, paths, hread
  exact ⟨mapError_eq_ok_iff.1 hchecked, rfl⟩

/-- The settings of a text are checked before they are given, whatever reads it. -/
theorem isUsable_of_ofText {content : List Char} {unknown : List String}
    (h : ofText read content = .ok (s, unknown)) :
  s.isUsable = true
  := by
  obtain ⟨t, paths, -, hchecked, -⟩ := ofText_eq_ok h
  apply isUsable_of_checked hchecked

theorem isUsable_of_offer (h : offer? read look file = some found) :
  found.1.isUsable = true
  := by
  obtain ⟨answer, -, hfile⟩ := offer?_eq_some_iff.1 h
  obtain ⟨bytes, content, s, unknown, -, -, htext, rfl⟩ := ofFile_eq_ok hfile
  apply isUsable_of_ofText htext

/-- Whether a file is used or none, the settings can be used. -/
theorem isUsable_firstOffer :
  (firstOffer read look files).1.isUsable = true
  := by
  rcases firstOffer_cases read look files with hnone | ⟨file, hoffer⟩
  · rw [hnone]
    decide
  · apply isUsable_of_offer hoffer

theorem sound_firstOffer :
  (firstOffer read look files).1.Sound
  := sound_of_isUsable isUsable_firstOffer

/-! ### Settings from the environment -/

theorem getShown?_eq_some {name value : String} (h : env.getShown? name = some value) :
  Text.trimmed value ≠ ""
  := by
  simpa using (Option.filter_eq_some_iff.1 h).2

theorem sound_override (h : s.Sound) (env : Environment) :
  (s.override env).Sound
  := by
  constructor
  case marker =>
    unfold override
    cases hvalue : env.getShown? "JOBPRUNE_DIRECTIVE" with
    | none => exact h.marker
    | some value => exact Text.exists_not_isBlank_of_trimmed (getShown?_eq_some hvalue)
  case extension =>
    unfold override
    cases hvalue : ((env.get? "JOBPRUNE_EXTENSION").map bareExtension).filter (· != "") with
    | none => exact h.extension
    | some value =>
      obtain ⟨hbare, hne⟩ := Option.filter_eq_some_iff.1 hvalue
      obtain ⟨extension, -, rfl⟩ := Option.map_eq_some_iff.1 hbare
      apply exists_ne_dot_of_withoutLeadingDots
      exact bne_iff_ne.1 hne

/-- Loaded settings have a marker that is not blank and an extension that is not dots. -/
theorem sound_load :
  (load read look base configFolder env).1.Sound
  := by
  rw [load, firstUsable_eq]
  exact sound_override sound_firstOffer env

/-! ### Markers that can be used -/

/-- A marker from the environment does not begin with a blank character. -/
theorem beginsBlank_override_iff :
  Text.beginsBlank (s.override env).marker.toList = false
    ↔ (env.getShown? "JOBPRUNE_DIRECTIVE").isSome ∨ Text.beginsBlank s.marker.toList = false
  := by
  unfold override
  cases env.getShown? "JOBPRUNE_DIRECTIVE" with
  | none => simp
  | some value => simp [Text.trimmed, Text.beginsBlank_trim]

/-- The marker of loaded settings names every job exactly if it comes from the environment
or does not begin with a blank character in the file that is used.  If it does not,
no text refers to any job. -/
theorem load_marker_namesEveryJob_iff (read : SettingsReader) (look : Path → FoundFile)
    (base configFolder : Option Path) (env : Environment) :
  (Reference.NamesEveryJob (load read look base configFolder env).1.marker
      ↔ (env.getShown? "JOBPRUNE_DIRECTIVE").isSome
        ∨ Text.beginsBlank
          (firstOffer read look (candidates base configFolder)).1.marker.toList = false)
    ∧ (¬ Reference.NamesEveryJob (load read look base configFolder env).1.marker →
        ∀ content, Reference.inText (load read look base configFolder env).1.marker.toList
          content = [])
  := by
  constructor
  · rw [Reference.namesEveryJob_iff, load, firstUsable_eq]
    apply beginsBlank_override_iff
  · rw [Reference.namesEveryJob_iff]
    intro hblank content
    apply Reference.inText_of_beginsBlank
    simpa using hblank

/-- A settings file in the folder `.` that sets the marker. -/
def withMarkerFile (marker : String) (file : Path) : FoundFile :=
  if file = (Path.ofString ".").join projectFile then
    some (.ok (Text.toBytes ("[jobs]\ndirective = \"" ++ marker ++ "\"\n")))
  else none

/-- The settings of a run in the folder `.` whose file there sets the marker. -/
def loadedWithMarker (marker : String) : Settings :=
  (load ofToml (withMarkerFile marker) (some (.ofString ".")) none {}).1

/-- A marker that a file sets with a blank character in front is taken over, and a line of
this marker and a name refers to nothing. -/
theorem load_withMarkerFile :
  (loadedWithMarker " CALL JOB:").marker = " CALL JOB:"
    ∧ Reference.jobInLine? " CALL JOB:" (" CALL JOB:" ++ "SUB") = none
    ∧ ¬ Reference.NamesEveryJob (loadedWithMarker " CALL JOB:").marker
  := by
  have hmarker : (loadedWithMarker " CALL JOB:").marker = " CALL JOB:" := rfl
  refine ⟨hmarker, by decide, ?_⟩
  rw [hmarker, Reference.namesEveryJob_iff]
  decide

end Settings

end RobotJobs
