import RobotJobs.Proofs.Job.Reference
import RobotJobs.Proofs.Text.Word

/-!
# The grammar of references

A line spells a reference if it is made of blank characters, the marker, blank characters
again, a name without blank characters, and a rest that does not continue the name
(`Spells`).  With a marker that neither begins nor ends with a blank character, these lines
and no others are references, each to the job of the name that it spells
(`jobInLine?_iff_spells`).
-/

namespace RobotJobs.Reference

variable {marker line name : List Char}

/-- A line is made of blank characters, the marker, blank characters, a name without blank
characters, and a rest that is empty or begins with a blank character; after an empty name
there is no rest. -/
def Spells (marker line name : List Char) : Prop :=
  ∃ before between rest, line = before ++ marker ++ between ++ name ++ rest
    ∧ (∀ c ∈ before, Text.isBlank c = true) ∧ (∀ c ∈ between, Text.isBlank c = true)
    ∧ (∀ c ∈ name, Text.isBlank c = false) ∧ (rest = [] ∨ Text.beginsBlank rest = true)
    ∧ (name = [] → rest = [])

/-- What follows the marker of a line has the name as its first word. -/
theorem spells_iff :
  Spells marker line name
    ↔ ∃ before after, line = before ++ (marker ++ after)
      ∧ (∀ c ∈ before, Text.isBlank c = true) ∧ Text.HasFirstWord after name
  := by
  constructor
  · rintro ⟨before, between, rest, hline, hbefore, hafter⟩
    refine ⟨before, between ++ (name ++ rest), ?_, hbefore, between, rest, rfl, hafter⟩
    simp [hline]
  · rintro ⟨before, _, hline, hbefore, between, rest, rfl, hafter⟩
    refine ⟨before, between, rest, ?_, hbefore, hafter⟩
    simp [hline]

theorem inLine?_eq_some_iff :
  inLine? marker line = some name
    ↔ ∃ after, Text.trim line = marker ++ after ∧ Text.firstWord after = name
  := by
  simp only [inLine?, Option.map_eq_some_iff, Text.afterStart?_eq_some_iff]

/-- A line that is a reference spells it. -/
theorem spells_of_inLine? (h : inLine? marker line = some name) :
  Spells marker line name
  := by
  obtain ⟨after, htrim, hname⟩ := inLine?_eq_some_iff.1 h
  obtain ⟨before, blanks, hline, hbefore, hblanks⟩ := Text.exists_append_trim line
  apply spells_iff.2
  refine ⟨before, after ++ blanks, ?_, hbefore, ?_⟩
  · rw [hline, htrim, List.append_assoc]
  · apply (Text.firstWord_eq_iff.1 hname).append hblanks

/-- A line that spells a reference is one, if the marker neither begins nor ends with a blank
character. -/
theorem Spells.inLine?_eq (hne : marker ≠ []) (hbegins : Text.beginsBlank marker = false)
    (hends : Text.endsBlank marker = false) (h : Spells marker line name) :
  inLine? marker line = some name
  := by
  obtain ⟨before, after, rfl, hbefore, hafter⟩ := spells_iff.1 h
  apply inLine?_eq_some_iff.2
  use Text.trimEnd after
  constructor
  · apply Text.trim_around hne hbegins hends hbefore
  · rw [Text.firstWord_trimEnd, Text.firstWord_eq_iff]
    exact hafter

/-- No name in a reference holds a blank character. -/
theorem not_isBlank_of_mem_inText {content : List Char} {job : JobName}
    (h : job ∈ inText marker content) :
  ∀ c ∈ job.text.toList, Text.isBlank c = false
  := by
  obtain ⟨name, hname, rfl⟩ := List.mem_map.1 h
  obtain ⟨line, -, hline⟩ := List.mem_filterMap.1 hname
  obtain ⟨after, -, rfl⟩ := inLine?_eq_some_iff.1 hline
  rw [String.toList_ofList]
  exact fun _ => Text.not_isBlank_of_mem_firstWord

theorem jobInLine?_eq_some_iff {marker line : String} {job : JobName} :
  jobInLine? marker line = some job
    ↔ inLine? marker.toList line.toList = some job.text.toList
  := by
  rw [jobInLine?, Option.map_eq_some_iff]
  constructor
  · rintro ⟨name, hname, rfl⟩
    rw [String.toList_ofList]
    exact hname
  · intro h
    exact ⟨_, h, by rw [String.ofList_toList]⟩

/-- Let a marker be not empty, and let it neither begin nor end with a blank character.  Then
a line refers to a job exactly if it spells a reference to the job, and it refers to none
exactly if it spells no reference.  It spells a reference to one name at most.  And no name
that a text refers to holds a blank character. -/
theorem jobInLine?_iff_spells (marker : String) (hne : marker ≠ "")
    (hbegins : Text.beginsBlank marker.toList = false)
    (hends : Text.endsBlank marker.toList = false) :
  (∀ line job, jobInLine? marker line = some job
      ↔ Spells marker.toList line.toList job.text.toList)
    ∧ (∀ line, jobInLine? marker line = none ↔ ¬ ∃ name, Spells marker.toList line.toList name)
    ∧ (∀ line name name', Spells marker.toList line name → Spells marker.toList line name' →
      name = name')
    ∧ ∀ content, ∀ job ∈ inText marker.toList content, ∀ c ∈ job.text.toList,
      Text.isBlank c = false
  := by
  have hmarker : marker.toList ≠ [] := mt String.toList_eq_nil_iff.1 hne
  have hspells (line name : List Char) :
      inLine? marker.toList line = some name ↔ Spells marker.toList line name := by
    constructor
    · exact spells_of_inLine?
    · exact Spells.inLine?_eq hmarker hbegins hends
  refine ⟨?_, ?_, ?_, ?_⟩
  · intro line job
    rw [jobInLine?_eq_some_iff, hspells]
  · intro line
    rw [jobInLine?, Option.map_eq_none_iff, Option.eq_none_iff_forall_ne_some, not_exists]
    simp only [ne_eq, hspells]
  · intro line name name' h h'
    rw [← hspells] at h h'
    exact Option.some.inj (h.symm.trans h')
  · exact fun _ _ => not_isBlank_of_mem_inText

/-- A line with tabs around the name and with more words, and a line that something else than
blank characters begins. -/
theorem jobInLine?_iff_spells_withTabs :
  (defaultMarker ≠ "" ∧ Text.beginsBlank defaultMarker.toList = false
      ∧ Text.endsBlank defaultMarker.toList = false)
    ∧ jobInLine? defaultMarker " CALL JOB:\tQUX\tIF CALL JOB:A" = some ⟨"QUX"⟩
    ∧ ¬ ∃ name, Spells defaultMarker.toList "'CALL JOB:QUX".toList name
  := by
  obtain ⟨hne, hbegins, hends⟩ : defaultMarker ≠ ""
      ∧ Text.beginsBlank defaultMarker.toList = false
      ∧ Text.endsBlank defaultMarker.toList = false := by decide
  obtain ⟨hsome, hnone, -, -⟩ := jobInLine?_iff_spells defaultMarker hne hbegins hends
  refine ⟨⟨hne, hbegins, hends⟩, ?_, ?_⟩
  · apply (hsome _ _).2
    refine ⟨" ".toList, "\t".toList, "\tIF CALL JOB:A".toList, by decide, ?_, ?_, ?_,
      .inr (by decide), by decide⟩
    · exact List.all_eq_true.1 (by decide)
    · exact List.all_eq_true.1 (by decide)
    · intro c hc
      exact eq_false_of_ne_true (List.any_eq_false.1 (by decide) c hc)
  · apply (hnone _).1
    decide

end RobotJobs.Reference
