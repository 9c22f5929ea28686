import RobotJobs.Proofs.Settings.Loaded
import RobotJobs.Proofs.Text.Word

/-!
# Overridden extensions

An extension from the environment is trimmed and loses the dots it begins with, and it is
taken over if something is left of it.  The check of settings does the same once more, and
that may leave nothing: between the dots that are dropped first and further dots there may
be blank characters, which are at the beginning then.  So the environment turns usable
settings into ones that the check refuses, and this happens exactly if the extension that it
sets is two words of dots (`checked_override_iff`).
-/

namespace RobotJobs

/-- Some text consists of dots, of which there is one at least. -/
def AreDots (cs : List Char) : Prop :=
  cs ≠ [] ∧ ∀ c ∈ cs, c = '.'

/-- Some text consists of blank characters, of which there is one at least. -/
def AreBlanks (cs : List Char) : Prop :=
  cs ≠ [] ∧ ∀ c ∈ cs, Text.isBlank c = true

/-- A text is two words of dots, and there may be blank characters around them. -/
def IsTwoWordsOfDots (cs : List Char) : Prop :=
  ∃ before first between last after, cs = before ++ (first ++ (between ++ last) ++ after)
    ∧ (∀ c ∈ before, Text.isBlank c = true) ∧ AreDots first ∧ AreBlanks between ∧ AreDots last
    ∧ ∀ c ∈ after, Text.isBlank c = true

/-- The extension that an environment sets is two words of dots. -/
def Environment.SpoilsExtension (env : Environment) : Prop :=
  ∃ value, env.get? "JOBPRUNE_EXTENSION" = some value ∧ IsTwoWordsOfDots value.toList

variable {cs between last : List Char} {value : String}

/-! ### Dots and blank characters -/

theorem AreDots.beginsBlank_append (h : AreDots cs) (rest : List Char) :
  Text.beginsBlank (cs ++ rest) = false
  := by
  obtain ⟨c, cs, rfl⟩ := List.exists_cons_of_ne_nil h.1
  rw [h.2 c List.mem_cons_self]
  rfl

theorem AreDots.endsBlank_append (h : AreDots cs) (front : List Char) :
  Text.endsBlank (front ++ cs) = false
  := by
  rw [Text.endsBlank_append h.1, Text.endsBlank, List.getLast?_eq_some_getLast h.1,
    h.2 _ (List.getLast_mem h.1)]
  rfl

theorem AreBlanks.beginsBlank_append (h : AreBlanks cs) (rest : List Char) :
  Text.beginsBlank (cs ++ rest) = true
  := by
  obtain ⟨c, cs, rfl⟩ := List.exists_cons_of_ne_nil h.1
  exact h.2 c List.mem_cons_self

theorem trim_blanks_append_dots (hbetween : AreBlanks between) (hlast : AreDots last) :
  Text.trim (between ++ last) = last
  := by
  have hword : ∀ c ∈ last, Text.isBlank c = false := by
    intro c hc
    rw [hlast.2 c hc]
    rfl
  rw [Text.trim_append hlast.1 hword, Text.trimStart_eq_nil_iff.2 hbetween.2, List.nil_append]

/-! ### What is left of an extension -/

theorem toList_bareExtension (value : String) :
  (bareExtension value).toList = (Text.trim value.toList).dropWhile (· == '.')
  := by
  rw [bareExtension, withoutLeadingDots, Text.trimmed, String.toList_ofList, String.toList_ofList]

theorem bareExtension_eq_empty_iff :
  bareExtension value = "" ↔ ∀ c ∈ Text.trim value.toList, c = '.'
  := by
  rw [bareExtension, withoutLeadingDots_eq_empty_iff, Text.trimmed, String.toList_ofList]

theorem endsBlank_bareExtension (hne : bareExtension value ≠ "") :
  Text.endsBlank (bareExtension value).toList = false
  := by
  have hne' : (bareExtension value).toList ≠ [] := mt String.toList_eq_nil_iff.1 hne
  have hends := Text.endsBlank_trim value.toList
  rwa [← List.takeWhile_append_dropWhile (p := (· == '.')) (l := Text.trim value.toList),
    ← toList_bareExtension, Text.endsBlank_append hne'] at hends

/-- Of two words of dots the blank characters between them and the second word are left. -/
theorem IsTwoWordsOfDots.exists_bareExtension_eq (h : IsTwoWordsOfDots value.toList) :
  ∃ between last, (bareExtension value).toList = between ++ last
    ∧ AreBlanks between ∧ AreDots last
  := by
  obtain ⟨before, first, between, last, after, hvalue, hbefore, hfirst, hbetween, hlast, hafter⟩ :=
    h
  refine ⟨between, last, ?_, hbetween, hlast⟩
  have hends : Text.endsBlank (first ++ (between ++ last)) = false := by
    rw [← List.append_assoc]
    apply hlast.endsBlank_append
  have hafter' : Text.trimEnd after = [] := by
    rw [← List.nil_append after, Text.trimEnd_append_of_blank hafter]
    rfl
  have htrim : Text.trim value.toList = first ++ (between ++ last) := by
    rw [hvalue, Text.trim_around (by simp [hfirst.1]) (hfirst.beginsBlank_append _) hends hbefore,
      hafter', List.append_nil]
  obtain ⟨c, blanks, rfl⟩ := List.exists_cons_of_ne_nil hbetween.1
  have hc : c ≠ '.' := by
    rintro rfl
    exact absurd (hbetween.2 '.' List.mem_cons_self) (by decide)
  rw [toList_bareExtension, htrim, List.dropWhile_append_of_pos, List.cons_append,
    List.dropWhile_cons_of_neg]
  · simpa using hc
  · simpa using hfirst.2

/-- If blank characters and dots are left of a text, the text is two words of dots. -/
theorem isTwoWordsOfDots_of_bareExtension (h : (bareExtension value).toList = between ++ last)
    (hbetween : AreBlanks between) (hlast : AreDots last) :
  IsTwoWordsOfDots value.toList
  := by
  obtain ⟨before, after, hvalue, hbefore, hafter⟩ := Text.exists_append_trim value.toList
  have hsplit : Text.trim value.toList
      = (Text.trim value.toList).takeWhile (· == '.') ++ (between ++ last) := by
    rw [← h, toList_bareExtension, List.takeWhile_append_dropWhile]
  refine ⟨before, (Text.trim value.toList).takeWhile (· == '.'), between, last, after, ?_,
    hbefore, ⟨?_, ?_⟩, hbetween, hlast, hafter⟩
  · rw [← hsplit]
    exact hvalue
  · -- A trimmed text does not begin with the blank characters.
    intro hnil
    have hbegins := Text.beginsBlank_trim value.toList
    rw [hsplit, hnil, List.nil_append, hbetween.beginsBlank_append] at hbegins
    cases hbegins
  · intro c hc
    simpa using List.mem_takeWhile_imp hc

/-- If nothing is left the second time, blank characters and dots were left the first time. -/
theorem exists_of_bareExtension_bareExtension (hne : bareExtension value ≠ "")
    (h : bareExtension (bareExtension value) = "") :
  ∃ between last, (bareExtension value).toList = between ++ last
    ∧ AreBlanks between ∧ AreDots last
  := by
  have hne' : (bareExtension value).toList ≠ [] := mt String.toList_eq_nil_iff.1 hne
  have hends := endsBlank_bareExtension hne
  have hhead : (bareExtension value).toList.head? ≠ some '.' := head?_withoutLeadingDots _
  rw [bareExtension_eq_empty_iff] at h
  generalize (bareExtension value).toList = cs at *
  obtain ⟨between, hbetween, hcs⟩ := Text.exists_append_trimStart cs
  have hstart : Text.trimStart cs ≠ [] := by
    intro hnil
    have hblank := Text.trimStart_eq_nil_iff.1 hnil _ (List.getLast_mem hne')
    simp [Text.endsBlank, List.getLast?_eq_some_getLast hne', hblank] at hends
  have htrim : Text.trim cs = Text.trimStart cs := by
    rw [hcs, Text.endsBlank_append hstart] at hends
    exact Text.trimEnd_eq_self hends
  rw [htrim] at h
  refine ⟨between, Text.trimStart cs, hcs, ⟨?_, hbetween⟩, hstart, h⟩
  -- Without blank characters the dots would be at the beginning.
  intro hnil
  obtain ⟨c, rest, hc⟩ := List.exists_cons_of_ne_nil hstart
  rw [hc] at h hcs
  rw [hcs, hnil, h c List.mem_cons_self] at hhead
  exact hhead rfl

/-- Something is left of an extension the first time and nothing the second time exactly if it
is two words of dots. -/
theorem bareExtension_bareExtension_iff :
  bareExtension value ≠ "" ∧ bareExtension (bareExtension value) = ""
    ↔ IsTwoWordsOfDots value.toList
  := by
  constructor
  · rintro ⟨hne, h⟩
    obtain ⟨between, last, hbare, hbetween, hlast⟩ := exists_of_bareExtension_bareExtension hne h
    apply isTwoWordsOfDots_of_bareExtension hbare hbetween hlast
  · intro h
    obtain ⟨between, last, hbare, hbetween, hlast⟩ := h.exists_bareExtension_eq
    constructor
    · intro hempty
      simp [hempty, hlast.1] at hbare
    · rw [bareExtension_eq_empty_iff, hbare, trim_blanks_append_dots hbetween hlast]
      exact hlast.2

/-! ### Overridden settings -/

namespace Settings

variable {s : Settings} {env : Environment}

theorem isUsable_iff :
  s.isUsable = true ↔ Text.trimmed s.marker ≠ "" ∧ bareExtension s.extension ≠ ""
  := by
  rw [isUsable, Bool.and_eq_true, bne_iff_ne, bne_iff_ne]

theorem checked_eq_ok_iff :
  s.checked = .ok s ↔ s.isUsable = true
  := by
  constructor
  · exact isUsable_of_checked
  · intro h
    obtain ⟨hmarker, hextension⟩ := isUsable_iff.1 h
    rw [checked, if_neg hmarker, if_neg hextension]

theorem trimmed_marker_override (h : Text.trimmed s.marker ≠ "") (env : Environment) :
  Text.trimmed (s.override env).marker ≠ ""
  := by
  unfold override
  cases hvalue : env.getShown? "JOBPRUNE_DIRECTIVE" with
  | none => exact h
  | some value =>
    rw [Option.map_some, Option.getD_some, Text.trimmed_trimmed]
    exact getShown?_eq_some hvalue

theorem bareExtension_override_iff (h : bareExtension s.extension ≠ "") :
  bareExtension (s.override env).extension = "" ↔ env.SpoilsExtension
  := by
  unfold override Environment.SpoilsExtension
  simp only [← bareExtension_bareExtension_iff]
  cases env.get? "JOBPRUNE_EXTENSION" with
  | none => simp [h]
  | some value =>
    by_cases hbare : bareExtension value = ""
    · simp [hbare, h, Option.filter_some]
    · simp [hbare, Option.filter_some]

/-- Usable settings stay usable unless the environment sets two words of dots. -/
theorem isUsable_override_iff (h : s.isUsable = true) :
  (s.override env).isUsable = true ↔ ¬ env.SpoilsExtension
  := by
  obtain ⟨hmarker, hextension⟩ := isUsable_iff.1 h
  rw [isUsable_iff, ← bareExtension_override_iff hextension]
  constructor
  · exact And.right
  · exact And.intro (trimmed_marker_override hmarker env)

/-- Let settings pass the check.  With those of the environment put over them they pass it
again exactly if the extension that the environment sets is not two words of dots, and if it
is they are refused for their extension.  The same decides whether the settings that a run
loads can be used, whatever files there are and however they are read. -/
theorem checked_override_iff (env : Environment) :
  (∀ s : Settings, s.checked = .ok s →
      ((s.override env).checked = .ok (s.override env) ↔ ¬ env.SpoilsExtension)
        ∧ (env.SpoilsExtension → (s.override env).checked = .error .blankExtension))
    ∧ ∀ read look base configFolder,
      (load read look base configFolder env).1.isUsable = true ↔ ¬ env.SpoilsExtension
  := by
  constructor
  · intro s h
    rw [checked_eq_ok_iff] at h
    constructor
    · rw [checked_eq_ok_iff]
      apply isUsable_override_iff h
    · intro hspoils
      obtain ⟨hmarker, hextension⟩ := isUsable_iff.1 h
      rw [checked, if_neg (trimmed_marker_override hmarker env),
        if_pos ((bareExtension_override_iff hextension).2 hspoils)]
  · intro read look base configFolder
    rw [load, firstUsable_eq]
    apply isUsable_override_iff isUsable_firstOffer

/-- The settings that nothing was set for pass the check.  Two dots with a space between them
leave the extension of a space and a dot, and with this one they do not pass it; without any
file it is what a run has loaded. -/
theorem checked_override_withTwoDots :
  checked {} = .ok {}
    ∧ (override {} ⟨[("JOBPRUNE_EXTENSION", ". .")]⟩).extension = " ."
    ∧ (override {} ⟨[("JOBPRUNE_EXTENSION", ". .")]⟩).checked = .error .blankExtension
    ∧ ∀ read,
      (load read (fun _ => none) none none ⟨[("JOBPRUNE_EXTENSION", ". .")]⟩).1.isUsable = false
  := by
  refine ⟨rfl, rfl, rfl, ?_⟩
  intro read
  change (override {} ⟨[("JOBPRUNE_EXTENSION", ". .")]⟩).isUsable = false
  rfl

end Settings

end RobotJobs
