import Mathlib.Data.List.Nodup
import Mathlib.Data.List.TakeWhile
import Mathlib.Logic.Function.Basic
import RobotJobs.Settings.File

/-!
# Which settings file is used

A file that is there either offers settings or is refused.  The first offer among the
candidates is taken as it stands, whatever the files before it and after it hold, and the
notices are the refusals on the way to it followed by its own (`firstUsable_eq`).  No two
candidates have the same path, so every refusal is noted once, and all that a refused file
does to a run is this notice (`load_firstOffer`).
-/

namespace RobotJobs

theorem Path.isSuffix_join (p q : Path) :
  q.bytes <:+ (p.join q).bytes
  := by
  unfold join
  split
  · exact List.suffix_rfl
  · split
    · exact List.suffix_append _ _
    · exact (List.suffix_cons _ _).trans (List.suffix_append _ _)

namespace Settings

variable (read : SettingsReader) (look : Path → FoundFile)

/-- The settings and the notices of a file that is there and can be used. -/
def offer? (file : Path) : Option (Settings × List Notice) :=
  (look file).bind fun answer => (ofFile read file answer).toOption

/-- The notice about a file that is there and cannot be used. -/
def refusal? (file : Path) : Option Notice :=
  (look file).bind fun answer => match ofFile read file answer with
    | .ok _ => none
    | .error e => some (.skipped file e.message)

/-- The first offer among some files, or the settings that nothing was set for. -/
def firstOffer (files : List Path) : Settings × List Notice :=
  (files.findSome? (offer? read look)).getD ({}, [])

/-- The files before the first one with an offer; all of them if there is no offer. -/
def passed (files : List Path) : List Path :=
  files.takeWhile fun file => (offer? read look file).isNone

/-! ### One file after the other -/

variable {read look} {look' : Path → FoundFile} {file : Path} {files before after : List Path}
  {found : Settings × List Notice} {notice : Notice} {reason : String}

/-- A file can be used if it can be read as text and the text gives settings; the notices
are about the unknown keys. -/
theorem ofFile_eq_ok {answer : Except IoFailure (List UInt8)}
    (h : ofFile read file answer = .ok found) :
  ∃ bytes content s unknown, answer = .ok bytes ∧ Text.decode? bytes = some content
    ∧ ofText read content = .ok (s, unknown) ∧ found = (s, unknown.map (Notice.ofKey file content))
  := by
  unfold ofFile at h
  split at h
  · cases h
  · next bytes =>
    split at h
    · cases h
    · next content hdecode =>
      split at h
      · cases h
      · next s unknown htext =>
        cases h
        exact ⟨bytes, content, s, unknown, rfl, hdecode, htext, rfl⟩

theorem offer?_eq_some_iff :
  offer? read look file = some found
    ↔ ∃ answer, look file = some answer ∧ ofFile read file answer = .ok found
  := by
  simp only [offer?, Option.bind_eq_some_iff]
  constructor
  · rintro ⟨answer, hlook, hfound⟩
    use answer, hlook
    cases hfile : ofFile read file answer with
    | error e =>
      rw [hfile] at hfound
      cases hfound
    | ok given =>
      rw [hfile] at hfound
      cases hfound
      rfl
  · rintro ⟨answer, hlook, hfile⟩
    use answer, hlook
    rw [hfile]
    rfl

/-- A file with an offer is used; any other one adds its refusal, if there is one. -/
theorem firstUsable_cons :
  firstUsable read look (file :: files) = match offer? read look file with
    | some found => found
    | none => ((firstUsable read look files).1,
        (refusal? read look file).toList ++ (firstUsable read look files).2)
  := by
  simp only [firstUsable, offer?, refusal?]
  cases look file with
  | none => rfl
  | some answer =>
    simp only [Option.bind_some]
    cases ofFile read file answer with
    | error e => rfl
    | ok given => rfl

theorem firstUsable_append (h : ∀ file ∈ before, offer? read look file = none) :
  firstUsable read look (before ++ after)
    = ((firstUsable read look after).1,
        before.filterMap (refusal? read look) ++ (firstUsable read look after).2)
  := by
  induction before with
  | nil => rfl
  | cons file before ih =>
    obtain ⟨hfile, hbefore⟩ := List.forall_mem_cons.1 h
    rw [List.cons_append, firstUsable_cons, hfile, ih hbefore]
    cases hrefusal : refusal? read look file with
    | none => simp [hrefusal]
    | some notice => simp [hrefusal]

/-- A file that is not there might as well not be looked for. -/
theorem firstUsable_absent (h : look file = none) :
  firstUsable read look (before ++ file :: after) = firstUsable read look (before ++ after)
  := by
  induction before with
  | nil => rw [List.nil_append, List.nil_append, firstUsable, h]
  | cons file' before ih =>
    rw [List.cons_append, List.cons_append, firstUsable_cons, firstUsable_cons, ih]

/-- The first offer is taken as it stands, after the refusals on the way to it. -/
theorem firstUsable_eq (read : SettingsReader) (look : Path → FoundFile) (files : List Path) :
  firstUsable read look files
    = ((firstOffer read look files).1,
        (passed read look files).filterMap (refusal? read look) ++ (firstOffer read look files).2)
  := by
  induction files with
  | nil => rfl
  | cons file files ih =>
    rw [firstUsable_cons]
    cases hoffer : offer? read look file with
    | some found => simp [firstOffer, passed, hoffer]
    | none =>
      have hfirst : firstOffer read look (file :: files) = firstOffer read look files := by
        simp [firstOffer, hoffer]
      have hpassed : passed read look (file :: files) = file :: passed read look files := by
        simp [passed, hoffer]
      rw [hfirst, hpassed, ih]
      cases hrefusal : refusal? read look file with
      | none => simp [hrefusal]
      | some notice => simp [hrefusal]

theorem firstOffer_cases (read : SettingsReader) (look : Path → FoundFile) (files : List Path) :
  firstOffer read look files = ({}, [])
    ∨ ∃ file, offer? read look file = some (firstOffer read look files)
  := by
  unfold firstOffer
  cases hfirst : files.findSome? (offer? read look) with
  | none => exact .inl rfl
  | some found =>
    obtain ⟨file, -, hoffer⟩ := List.exists_of_findSome?_eq_some hfirst
    exact .inr ⟨file, hoffer⟩

/-- Only the files that are looked for matter. -/
theorem firstUsable_congr (h : ∀ file ∈ files, look file = look' file) :
  firstUsable read look files = firstUsable read look' files
  := by
  induction files with
  | nil => rfl
  | cons file files ih =>
    obtain ⟨hfile, hfiles⟩ := List.forall_mem_cons.1 h
    simp only [firstUsable_cons, offer?, refusal?, hfile, ih hfiles]

/-! ### Refusals -/

theorem refusal?_eq_some_iff :
  refusal? read look file = some notice
    ↔ ∃ answer e, look file = some answer ∧ ofFile read file answer = .error e
      ∧ notice = .skipped file e.message
  := by
  simp only [refusal?, Option.bind_eq_some_iff]
  constructor
  · rintro ⟨answer, hlook, hnotice⟩
    cases hfile : ofFile read file answer with
    | ok given =>
      rw [hfile] at hnotice
      cases hnotice
    | error e =>
      rw [hfile] at hnotice
      cases hnotice
      exact ⟨answer, e, hlook, hfile, rfl⟩
  · rintro ⟨answer, e, hlook, hfile, rfl⟩
    use answer, hlook
    rw [hfile]

/-- The notices of a file that can be used are about its unknown keys. -/
theorem skipped_not_mem_ofFile {answer : Except IoFailure (List UInt8)}
    (h : ofFile read file answer = .ok found) (file' : Path) (reason : String) :
  .skipped file' reason ∉ found.2
  := by
  obtain ⟨bytes, content, s, unknown, -, -, -, rfl⟩ := ofFile_eq_ok h
  intro hmem
  obtain ⟨key, -, hkey⟩ := List.mem_map.1 hmem
  cases hkey

/-- A refusal is that of one of the files. -/
theorem mem_of_skipped_mem (h : .skipped file reason ∈ (firstUsable read look files).2) :
  file ∈ files
  := by
  rw [firstUsable_eq] at h
  rcases List.mem_append.1 h with h | h
  · obtain ⟨file', hpassed, hnotice⟩ := List.mem_filterMap.1 h
    obtain ⟨answer, e, -, -, hskipped⟩ := refusal?_eq_some_iff.1 hnotice
    obtain ⟨rfl, -⟩ := Notice.skipped.inj hskipped
    exact (List.takeWhile_prefix _).subset hpassed
  · rcases firstOffer_cases read look files with hnone | ⟨file', hoffer⟩
    · rw [hnone] at h
      cases h
    · obtain ⟨answer, -, hfile⟩ := offer?_eq_some_iff.1 hoffer
      exact absurd h (skipped_not_mem_ofFile hfile file reason)

/-- Some files that are passed: those before one of them, which has no offer either. -/
theorem exists_append_of_mem_passed (h : file ∈ passed read look files) :
  ∃ before after, files = before ++ file :: after
    ∧ (∀ file' ∈ before, offer? read look file' = none) ∧ offer? read look file = none
  := by
  have hnone (file' : Path) (hfile' : file' ∈ passed read look files) :
      offer? read look file' = none := by
    simpa using List.mem_takeWhile_imp hfile'
  obtain ⟨before, rest, hpassed⟩ := List.append_of_mem h
  use before, rest ++ files.dropWhile fun file => (offer? read look file).isNone
  refine ⟨?_, ?_, hnone file h⟩
  · rw [← List.cons_append, ← List.append_assoc, ← hpassed]
    exact (List.takeWhile_append_dropWhile).symm
  · intro file' hfile'
    apply hnone
    rw [hpassed]
    exact List.mem_append_left _ hfile'

/-- A refused file that is taken away takes its notice with it, and nothing else changes. -/
theorem firstUsable_update_none (hnodup : files.Nodup) (hpassed : file ∈ passed read look files)
    (hrefusal : refusal? read look file = some notice) :
  ∃ front back, (firstUsable read look files).2 = front ++ notice :: back
    ∧ notice ∉ front ++ back
    ∧ firstUsable read (Function.update look file none) files
      = ((firstUsable read look files).1, front ++ back)
  := by
  obtain ⟨before, after, rfl, hbefore, hfile⟩ := exists_append_of_mem_passed hpassed
  have hnot : file ∉ before ++ after := (List.nodup_cons.1 (List.nodup_middle.1 hnodup)).1
  have hthere : firstUsable read look (before ++ file :: after)
      = ((firstUsable read look after).1,
          before.filterMap (refusal? read look) ++ notice :: (firstUsable read look after).2) := by
    rw [firstUsable_append hbefore, firstUsable_cons, hfile, hrefusal]
    rfl
  have hgone : firstUsable read (Function.update look file none) (before ++ file :: after)
      = firstUsable read look (before ++ after) := by
    rw [firstUsable_absent (Function.update_self file none look)]
    apply firstUsable_congr
    intro file' hfile'
    apply Function.update_of_ne
    rintro rfl
    exact hnot hfile'
  use before.filterMap (refusal? read look), (firstUsable read look after).2
  refine ⟨?_, ?_, ?_⟩
  · rw [hthere]
  · intro h
    -- The notice would stand among those of the other files, which it is not about.
    have hskipped : notice ∈ (firstUsable read look (before ++ after)).2 := by
      rw [firstUsable_append hbefore]
      exact h
    obtain ⟨answer, e, -, -, rfl⟩ := refusal?_eq_some_iff.1 hrefusal
    exact hnot (mem_of_skipped_mem hskipped)
  · rw [hgone, hthere, firstUsable_append hbefore]

/-! ### The two candidates -/

/-- The settings files of a base folder and of the user have different names. -/
theorem join_projectFile_ne (p q : Path) :
  p.join projectFile ≠ q.join userFile
  := by
  intro h
  have hproject := p.isSuffix_join projectFile
  rw [h] at hproject
  rcases List.suffix_or_suffix_of_suffix hproject (q.isSuffix_join userFile) with h | h
  · exact absurd h (by decide)
  · exact absurd h (by decide)

theorem nodup_candidates (base configFolder : Option Path) :
  (candidates base configFolder).Nodup
  := by
  unfold candidates
  cases base with
  | none => cases configFolder with
    | none => exact List.nodup_nil
    | some folder => exact List.nodup_singleton _
  | some base => cases configFolder with
    | none => exact List.nodup_singleton _
    | some folder => simpa using join_projectFile_ne base folder

/-- However settings files are read and wherever those of the user are, the settings of a run
are those of the first file that can be used, with those of the environment put over them;
nothing of them comes from another file.  The notices are the refusals of the files before it,
in order, and then its own.  A refused file that is taken away takes its one notice with it,
and nothing else changes. -/
theorem load_firstOffer (read : SettingsReader) (look : Path → FoundFile)
    (base configFolder : Option Path) (env : Environment) :
  load read look base configFolder env
      = ((firstOffer read look (candidates base configFolder)).1.override env,
          (passed read look (candidates base configFolder)).filterMap (refusal? read look)
            ++ (firstOffer read look (candidates base configFolder)).2)
    ∧ ∀ file ∈ passed read look (candidates base configFolder),
      ∀ notice, refusal? read look file = some notice →
      ∃ front back, (load read look base configFolder env).2 = front ++ notice :: back
        ∧ notice ∉ front ++ back
        ∧ load read (Function.update look file none) base configFolder env
          = ((load read look base configFolder env).1, front ++ back)
  := by
  constructor
  · rw [load, firstUsable_eq]
  · intro file hpassed notice hrefusal
    obtain ⟨front, back, hnotices, hnot, hupdate⟩ :=
      firstUsable_update_none (nodup_candidates base configFolder) hpassed hrefusal
    use front, back, hnotices, hnot
    rw [load, hupdate]
    rfl

end Settings

end RobotJobs
