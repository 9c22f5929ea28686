import RobotJobs.Proofs.Text.Blank

/-!
# First words

A text has a given first word if it is made of blank characters, the word and a rest that does
not continue the word (`HasFirstWord`).  `firstWord` answers exactly this word
(`firstWord_eq_iff`), so there is one and no other, and blank characters at the end of the text
do not change it.  Trimming reaches no further into a text than to a part that neither begins
nor ends with a blank character (`trim_around`).
-/

namespace RobotJobs.Text

variable {xs ys cs word blanks : List Char}

/-! ### Trimming around a part -/

/-- Whether a text ends with a blank character. -/
def endsBlank (cs : List Char) : Bool :=
  cs.getLast?.any isBlank

theorem trimStart_append_of_blank (hblank : ∀ c ∈ blanks, isBlank c = true) (cs : List Char) :
  trimStart (blanks ++ cs) = trimStart cs
  := List.dropWhile_append_of_pos hblank

/-- A text is what is left at its beginning after blank characters. -/
theorem exists_append_trimStart (cs : List Char) :
  ∃ blanks, (∀ c ∈ blanks, isBlank c = true) ∧ cs = blanks ++ trimStart cs
  := by
  use cs.takeWhile isBlank
  constructor
  · intro c hc
    exact List.mem_takeWhile_imp hc
  · exact List.takeWhile_append_dropWhile.symm

/-- A text is what is left at its end before blank characters. -/
theorem exists_trimEnd_append (cs : List Char) :
  ∃ blanks, (∀ c ∈ blanks, isBlank c = true) ∧ cs = trimEnd cs ++ blanks
  := by
  use cs.rtakeWhile isBlank
  constructor
  · intro c hc
    exact List.mem_rtakeWhile_imp hc
  · exact List.rdropWhile_append_rtakeWhile.symm

theorem endsBlank_append (hne : ys ≠ []) (xs : List Char) :
  endsBlank (xs ++ ys) = endsBlank ys
  := by
  rw [endsBlank, List.getLast?_append_of_ne_nil _ hne, endsBlank]

theorem trimEnd_eq_self (h : endsBlank cs = false) :
  trimEnd cs = cs
  := by
  apply List.rdropWhile_eq_self_iff.2
  intro hne
  simpa [endsBlank, List.getLast?_eq_some_getLast hne] using h

theorem endsBlank_trim (cs : List Char) :
  endsBlank (trim cs) = false
  := by
  by_cases hne : trim cs = []
  · rw [hne]
    rfl
  · rw [endsBlank, List.getLast?_eq_some_getLast hne, Option.any_some, ← Bool.not_eq_true]
    exact List.rdropWhile_last_not _ _ hne

/-- Nothing is left to trim of a trimmed text. -/
theorem trim_trim (cs : List Char) :
  trim (trim cs) = trim cs
  := by
  rw [trim, trimStart_eq_self (beginsBlank_trim cs), trimEnd_eq_self (endsBlank_trim cs)]

theorem trimmed_trimmed (s : String) :
  trimmed (trimmed s) = trimmed s
  := by
  rw [trimmed, trimmed, String.toList_ofList, trim_trim]

/-- A text is what is left of it between blank characters. -/
theorem exists_append_trim (cs : List Char) :
  ∃ before after, cs = before ++ (trim cs ++ after)
    ∧ (∀ c ∈ before, isBlank c = true) ∧ ∀ c ∈ after, isBlank c = true
  := by
  obtain ⟨before, hbefore, hstart⟩ := exists_append_trimStart cs
  obtain ⟨after, hafter, hend⟩ := exists_trimEnd_append (trimStart cs)
  refine ⟨before, after, ?_, hbefore, hafter⟩
  rw [trim, ← hend]
  exact hstart

/-- Trimming the end of a text leaves a part that does not end with a blank character. -/
theorem trimEnd_append_of_endsBlank (hne : xs ≠ []) (hends : endsBlank xs = false)
    (ys : List Char) :
  trimEnd (xs ++ ys) = xs ++ trimEnd ys
  := by
  have hself : trimEnd (xs ++ trimEnd ys) = xs ++ trimEnd ys := by
    apply List.rdropWhile_eq_self_iff.2
    intro _
    by_cases hys : trimEnd ys = []
    · simpa [endsBlank, List.getLast?_eq_some_getLast hne, hys] using hends
    · rw [List.getLast_append_of_ne_nil _ hys]
      exact List.rdropWhile_last_not _ _ hys
  obtain ⟨blanks, hblanks, hys⟩ := exists_trimEnd_append ys
  calc trimEnd (xs ++ ys)
      = trimEnd (xs ++ trimEnd ys ++ blanks) := by rw [List.append_assoc, ← hys]
    _ = trimEnd (xs ++ trimEnd ys) := trimEnd_append_of_blank hblanks
    _ = xs ++ trimEnd ys := hself

/-- Trimming stops at a part that neither begins nor ends with a blank character. -/
theorem trim_around (hne : xs ≠ []) (hbegins : beginsBlank xs = false)
    (hends : endsBlank xs = false) (hblank : ∀ c ∈ blanks, isBlank c = true) (ys : List Char) :
  trim (blanks ++ (xs ++ ys)) = xs ++ trimEnd ys
  := by
  have hstart : beginsBlank (xs ++ ys) = false := by
    cases xs with
    | nil => exact absurd rfl hne
    | cons x xs => exact hbegins
  rw [trim, trimStart_append_of_blank hblank, trimStart_eq_self hstart,
    trimEnd_append_of_endsBlank hne hends]

/-! ### First words -/

/-- A text is made of blank characters, a word and a rest that does not continue the word; the
word is empty only if all is blank. -/
def HasFirstWord (cs word : List Char) : Prop :=
  ∃ blanks rest, cs = blanks ++ (word ++ rest) ∧ (∀ c ∈ blanks, isBlank c = true)
    ∧ (∀ c ∈ word, isBlank c = false) ∧ (rest = [] ∨ beginsBlank rest = true)
    ∧ (word = [] → rest = [])

theorem hasFirstWord_firstWord (cs : List Char) :
  HasFirstWord cs (firstWord cs)
  := by
  obtain ⟨blanks, hblanks, hcs⟩ := exists_append_trimStart cs
  refine ⟨blanks, (trimStart cs).dropWhile (fun c => !isBlank c), ?_, hblanks, ?_, ?_, ?_⟩
  · rw [firstWord, List.takeWhile_append_dropWhile]
    exact hcs
  · exact fun _ => not_isBlank_of_mem_firstWord
  · have hhead := List.head?_dropWhile_not (fun c => !isBlank c) (trimStart cs)
    cases hrest : (trimStart cs).dropWhile (fun c => !isBlank c) with
    | nil => exact .inl rfl
    | cons c rest =>
      rw [hrest] at hhead
      right
      simpa [beginsBlank] using hhead
  · intro hempty
    cases hstart : trimStart cs with
    | nil => rfl
    | cons c rest =>
      have hc := beginsBlank_trimStart cs
      rw [hstart] at hc
      rw [firstWord, hstart, List.takeWhile_cons_of_pos (by simpa [beginsBlank] using hc)] at hempty
      cases hempty

theorem HasFirstWord.firstWord_eq (h : HasFirstWord cs word) :
  firstWord cs = word
  := by
  obtain ⟨blanks, rest, rfl, hblanks, hword, hrest, hempty⟩ := h
  rw [firstWord, trimStart_append_of_blank hblanks]
  by_cases hne : word = []
  · rw [hne, hempty hne]
    rfl
  · have hbegins : beginsBlank (word ++ rest) = false := by
      obtain ⟨c, cs, rfl⟩ := List.exists_cons_of_ne_nil hne
      exact hword c List.mem_cons_self
    have hstop : rest.takeWhile (fun c => !isBlank c) = [] := by
      cases rest with
      | nil => rfl
      | cons c rest =>
        have hc : isBlank c = true := hrest.resolve_left (List.cons_ne_nil c rest)
        apply List.takeWhile_cons_of_neg
        simp [hc]
    rw [trimStart_eq_self hbegins, List.takeWhile_append_of_pos, hstop, List.append_nil]
    intro c hc
    simp [hword c hc]

/-- The first word of a text is the one that the text has as its first word. -/
theorem firstWord_eq_iff :
  firstWord cs = word ↔ HasFirstWord cs word
  := by
  constructor
  · rintro rfl
    exact hasFirstWord_firstWord cs
  · exact HasFirstWord.firstWord_eq

/-- Blank characters at the end of a text do not change its first word. -/
theorem HasFirstWord.append (h : HasFirstWord cs word)
    (hblank : ∀ c ∈ blanks, isBlank c = true) :
  HasFirstWord (cs ++ blanks) word
  := by
  obtain ⟨before, rest, rfl, hbefore, hword, hrest, hempty⟩ := h
  by_cases hne : word = []
  · -- All is blank, so the text is blank with more blank characters too.
    refine ⟨before ++ blanks, [], ?_, ?_, hword, .inl rfl, fun _ => rfl⟩
    · simp [hne, hempty hne]
    · intro c hc
      exact (List.mem_append.1 hc).elim (hbefore c) (hblank c)
  · refine ⟨before, rest ++ blanks, ?_, hbefore, hword, ?_, fun h => absurd h hne⟩
    · simp
    · rcases hrest with rfl | hrest
      · cases blanks with
        | nil => exact .inl rfl
        | cons c blanks => exact .inr (hblank c List.mem_cons_self)
      · exact .inr (beginsBlank_append hrest blanks)

theorem firstWord_append_of_blank (hblank : ∀ c ∈ blanks, isBlank c = true) :
  firstWord (cs ++ blanks) = firstWord cs
  := by
  apply HasFirstWord.firstWord_eq
  apply (hasFirstWord_firstWord cs).append hblank

theorem firstWord_trimEnd (cs : List Char) :
  firstWord (trimEnd cs) = firstWord cs
  := by
  obtain ⟨blanks, hblanks, hcs⟩ := exists_trimEnd_append cs
  calc firstWord (trimEnd cs)
      = firstWord (trimEnd cs ++ blanks) := (firstWord_append_of_blank hblanks).symm
    _ = firstWord cs := by rw [← hcs]

end RobotJobs.Text
