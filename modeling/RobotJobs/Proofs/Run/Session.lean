import RobotJobs.Proofs.Settings.Loaded
import RobotJobs.Run.Session

/-!
# The job folder of a session

Settings files, the environment and the options each refuse an extension or a marker of
which nothing would be left, each in its own way.  Whatever is given, the job folder of a
session has an extension after the dot and a marker that shows (`open_discerning`); so
neither is every file taken for a job file nor every blank line for a reference.
-/

namespace RobotJobs

namespace JobFolder

variable {options : Options} {settings : Settings}

/-- A folder tells job files from other files and references from blank lines.

Its extension is not empty and does not begin with a dot, and its marker is not blank.  So a
blank line refers to no job, and only a file whose name ends in a dot and the extension
belongs to one. -/
structure Discerning (folder : JobFolder) : Prop where
  extension_ne_empty : folder.extension ≠ ""
  extension_undotted : folder.extension.toList.head? ≠ some '.'
  marker_shown : ∃ c ∈ folder.marker.toList, Text.isBlank c = false
  blank_lines : ∀ line, (∀ c ∈ line, Text.isBlank c = true) →
    Reference.inLine? folder.marker.toList line = none
  job_files : ∀ fileName, (folder.jobOf? fileName).isSome
    ↔ ∃ stem, fileName = stem ++ "." ++ folder.extension

theorem isSome_jobOf?_iff {folder : JobFolder} {fileName : String} :
  (folder.jobOf? fileName).isSome ↔ ∃ stem, fileName = stem ++ "." ++ folder.extension
  := by
  rw [Option.isSome_iff_exists]
  constructor
  · rintro ⟨job, hjob⟩
    exact ⟨job.text, (jobOf?_eq_some_iff.1 hjob).symm⟩
  · rintro ⟨stem, hname⟩
    exact ⟨⟨stem⟩, jobOf?_eq_some_iff.2 hname.symm⟩

/-- A folder tells job files and references apart if its extension and its marker hold
characters that count. -/
theorem discerning_withExtension {folder : JobFolder} {extension marker : String}
    (hextension : ∃ c ∈ extension.toList, c ≠ '.')
    (hmarker : ∃ c ∈ marker.toList, Text.isBlank c = false) :
  ((folder.withExtension extension).withMarker marker).Discerning
  := by
  constructor
  case extension_ne_empty =>
    intro hempty
    obtain ⟨c, hc, hdot⟩ := hextension
    exact hdot (withoutLeadingDots_eq_empty_iff.1 hempty c hc)
  case extension_undotted => exact head?_withoutLeadingDots extension
  case marker_shown => exact hmarker
  case blank_lines =>
    intro line hline
    obtain ⟨c, hc, -⟩ := hmarker
    apply Reference.inLine?_of_blank (List.ne_nil_of_mem hc) hline
  case job_files =>
    intro fileName
    apply isSome_jobOf?_iff

theorem discerning_resolve (h : settings.Sound) :
  (resolve options settings).Discerning
  := by
  apply discerning_withExtension
  · cases hoption : options.extension.filter fun e => bareExtension e != "" with
    | none => exact h.extension
    | some extension =>
      apply Settings.exists_ne_dot_of_bareExtension
      simpa using (Option.filter_eq_some_iff.1 hoption).2
  · exact h.marker

end JobFolder

namespace Session

/-- The job folder of a session tells job files from other files and references from blank
lines, whatever the files, their reader, the environment and the options are. -/
theorem open_discerning (read : SettingsReader) (look : Path → FoundFile)
    (configFolder : Option Path) (env : Environment) (terminal : Terminal) (options : Options) :
  (Session.open read look configFolder env terminal options).folder.Discerning
  := by
  have hsound : (Settings.load read look (some options.base) configFolder env).1.Sound :=
    Settings.sound_load
  apply JobFolder.discerning_resolve hsound

end Session

end RobotJobs
