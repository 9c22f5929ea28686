import RobotJobs.Job.Reference
import RobotJobs.Proofs.Text.Blank

/-!
# Markers that can be used

A line is trimmed before it is compared with the marker, the marker is not.  So a marker
that begins with a blank character is found in no line.  Any other marker, with a name
after it, refers to the job of that name (`namesEveryJob_iff`).  A blank line refers to
nothing, unless the marker is empty (`inLine?_of_blank`).
-/

namespace RobotJobs.Reference

variable {marker line name content : List Char}

/-- Nothing but a marker and a name is needed to refer to a job, as long as the name is not
empty and holds no blank character. -/
def NamesEveryJob (marker : String) : Prop :=
  ∀ name : String, name ≠ "" → (∀ c ∈ name.toList, Text.isBlank c = false) →
    jobInLine? marker (marker ++ name) = some ⟨name⟩

theorem inLine?_of_beginsBlank (h : Text.beginsBlank marker = true) :
  inLine? marker line = none
  := by
  cases hafter : Text.afterStart? marker (Text.trim line) with
  | none => rw [inLine?, hafter, Option.map_none]
  | some rest =>
    have htrim := Text.beginsBlank_trim line
    rw [Text.afterStart?_eq_some_iff.1 hafter, Text.beginsBlank_append h rest] at htrim
    cases htrim

theorem inText_of_beginsBlank (h : Text.beginsBlank marker = true) :
  inText marker content = []
  := by
  have hnone : (Text.lines content).filterMap (inLine? marker) = [] := by
    apply List.filterMap_eq_nil_iff.2
    intro line _
    apply inLine?_of_beginsBlank h
  rw [inText, hnone, List.map_nil]

theorem inLine?_marker_append (h : Text.beginsBlank marker = false) (hne : name ≠ [])
    (hword : ∀ c ∈ name, Text.isBlank c = false) :
  inLine? marker (marker ++ name) = some name
  := by
  rw [inLine?, Text.trim_append hne hword, Text.trimStart_eq_self h,
    Text.afterStart?_eq_some_iff.2 rfl, Option.map_some, Text.firstWord_eq_self hword]

/-- A blank line refers to no job, unless the marker is empty. -/
theorem inLine?_of_blank (hmarker : marker ≠ []) (hline : ∀ c ∈ line, Text.isBlank c = true) :
  inLine? marker line = none
  := by
  obtain ⟨c, cs, rfl⟩ := List.exists_cons_of_ne_nil hmarker
  rw [inLine?, Text.trim_eq_nil_iff.2 hline]
  rfl

/-- A marker names every job exactly if it does not begin with a blank character. -/
theorem namesEveryJob_iff {marker : String} :
  NamesEveryJob marker ↔ Text.beginsBlank marker.toList = false
  := by
  constructor
  · intro h
    rw [← Bool.not_eq_true]
    intro hblank
    have hword : ∀ c ∈ "A".toList, Text.isBlank c = false := by
      intro c hc
      obtain rfl := List.mem_singleton.1 hc
      rfl
    have hnamed := h "A" (by decide) hword
    rw [jobInLine?, inLine?_of_beginsBlank hblank] at hnamed
    cases hnamed
  · intro h name hne hword
    have hname : name.toList ≠ [] := mt String.toList_eq_nil_iff.1 hne
    rw [jobInLine?, String.toList_append, inLine?_marker_append h hname hword, Option.map_some,
      String.ofList_toList]

end RobotJobs.Reference
