import RobotJobs.Proofs.Settings.Loaded
import RobotJobs.Proofs.Toml.Assignments

/-!
# Where unknown keys are reported

Of a reader it is assumed that it lists the keys that the table `jobs` does not know, if a text
holds this table and plain assignments in it: each key once, in the order of the text
(`SettingsReader.ListsUnknownKeys`).  The reader of TOML does so (`listsUnknownKeys_ofToml`).

Then each of these keys is reported once, in this order.  The line that is reported is the first
one that holds the text of the key, wherever in the line this stands.  So it is the line of the
assignment exactly if no line above that one holds the text, neither the header nor another key
or value (`ofFile_unknownKeys`).
-/

namespace RobotJobs

/-! ### Lines that hold a text -/

namespace Text

variable {xs content line : List Char} {ls before after : List (List Char)} {n : Nat}

/-- The line of a given number holds a text, and no line before it does. -/
def FirstHolding (xs : List Char) (ls : List (List Char)) (n : Nat) : Prop :=
  ∃ before line after, ls = before ++ line :: after ∧ xs <:+: line
    ∧ (∀ line' ∈ before, ¬ xs <:+: line') ∧ n = before.length + 1

/-- The line that is found is the first one that holds the text. -/
theorem lineHolding?_eq_some_iff :
  lineHolding? xs content = some n ↔ FirstHolding xs (lines content) n
  := by
  rw [lineHolding?, Option.map_eq_some_iff]
  constructor
  · rintro ⟨i, hfind, rfl⟩
    obtain ⟨hi, hholds, hbefore⟩ := List.findIdx?_eq_some_iff_getElem.1 hfind
    refine ⟨(lines content).take i, (lines content)[i], (lines content).drop (i + 1), ?_,
      occursIn_iff_isInfix.1 hholds, ?_, ?_⟩
    · rw [List.getElem_cons_drop, List.take_append_drop]
    · intro line' hline'
      obtain ⟨j, hj, rfl⟩ := List.mem_take_iff_getElem.1 hline'
      rw [← occursIn_iff_isInfix]
      exact hbefore j (by omega)
    · rw [List.length_take, Nat.min_eq_left hi.le]
  · rintro ⟨before, line, after, hlines, hholds, hbefore, rfl⟩
    have hnone : before.findIdx? (occursIn xs) = none := by
      apply List.findIdx?_eq_none_iff.2
      intro line' hline'
      rw [← Bool.not_eq_true, occursIn_iff_isInfix]
      exact hbefore line' hline'
    use before.length
    rw [hlines, List.findIdx?_append, hnone, List.findIdx?_cons,
      if_pos (occursIn_iff_isInfix.2 hholds)]
    simp

/-- A text is found if some line holds it. -/
theorem exists_lineHolding? (hmem : line ∈ lines content) (hline : xs <:+: line) :
  ∃ n, lineHolding? xs content = some n
  := by
  cases hfind : (lines content).findIdx? (occursIn xs) with
  | none =>
    have hnot := List.findIdx?_eq_none_iff.1 hfind line hmem
    rw [occursIn_iff_isInfix.2 hline] at hnot
    cases hnot
  | some i => exact ⟨i + 1, by rw [lineHolding?, hfind, Option.map_some]⟩

/-- The line that is found is a given one that holds the text exactly if none before does. -/
theorem lineHolding?_eq_iff (hlines : lines content = before ++ line :: after)
    (hline : xs <:+: line) (hfound : lineHolding? xs content = some n) :
  n = before.length + 1 ↔ ∀ line' ∈ before, ¬ xs <:+: line'
  := by
  constructor
  · intro hn
    obtain ⟨before', line', after', hlines', -, hbefore', hn'⟩ :=
      lineHolding?_eq_some_iff.1 hfound
    have hlength : before.length = before'.length := by omega
    obtain rfl := (List.append_inj (hlines.symm.trans hlines') hlength).1
    exact hbefore'
  · intro hbefore
    have hhere : lineHolding? xs content = some (before.length + 1) :=
      lineHolding?_eq_some_iff.2 ⟨before, line, after, hlines, hline, hbefore, rfl⟩
    exact Option.some.inj (hfound.symm.trans hhere)

end Text

/-! ### Keys that the table does not know -/

/-- The keys of the table `jobs`. -/
def jobsKeys : List String :=
  ["folder", "extension", "directive"]

/-- What is assumed of a reader: of a text of the table `jobs` and plain assignments it gives
the paths of the keys that the table does not know, which are these keys after the name of the
table, each once and in the order of the text. -/
def SettingsReader.ListsUnknownKeys (read : SettingsReader) : Prop :=
  ∀ (content : List Char) (as : List Toml.PlainAssignment) (s : Settings) (paths : List String),
    Text.lines content = Toml.headerLine "jobs" :: as.map Toml.PlainAssignment.line →
    read content = .ok (s, paths) →
    paths = (as.filter fun a => a.key ∉ jobsKeys).map ("jobs." ++ ·.key)

namespace Settings

variable {read : SettingsReader} {s t : Settings} {key value : String}
  {unknown : List String} {file : Path} {bytes : List UInt8} {content : List Char}
  {notices : List Notice} {as : List Toml.PlainAssignment}

/-- A text is taken over under any key, and a key that is not known is listed. -/
theorem unknown_of_takeJobsEntry
    (h : takeJobsEntry s key (.text value) = .ok (t, unknown)) :
  unknown = if key ∈ jobsKeys then [] else [key]
  := by
  unfold takeJobsEntry at h
  split at h
  case isTrue hfolder =>
    cases h
    rw [hfolder]
    rfl
  case isFalse hfolder =>
    split at h
    case isTrue hextension =>
      cases h
      rw [hextension]
      rfl
    case isFalse hextension =>
      split at h
      case isTrue hdirective =>
        cases h
        rw [hdirective]
        rfl
      case isFalse hdirective =>
        cases h
        rw [if_neg]
        simp [jobsKeys, hfolder, hextension, hdirective]

/-- Of plain assignments the keys are listed that the table does not know. -/
theorem unknown_of_takeEntries
    (h : takeEntries takeJobsEntry s (as.map Toml.PlainAssignment.entry) = .ok (t, unknown)) :
  unknown = (as.filter fun a => a.key ∉ jobsKeys).map (·.key)
  := by
  induction as generalizing s unknown with
  | nil =>
    cases h
    rfl
  | cons a as ih =>
    obtain ⟨⟨s', unknown'⟩, hentry, hentries⟩ := exists_of_bind_eq_ok h
    obtain ⟨⟨s'', unknown''⟩, hrest, hgiven⟩ := exists_of_bind_eq_ok hentries
    cases hgiven
    rw [ih hrest, unknown_of_takeJobsEntry hentry]
    by_cases hkey : a.key ∈ jobsKeys
    · simp [hkey]
    · simp [hkey]

/-- Of a document that is the table `jobs` with plain assignments the paths of these keys are
listed. -/
theorem unknown_of_ofEntries
    (h : ofEntries [("jobs", .table .header (as.map Toml.PlainAssignment.entry))]
      = .ok (s, unknown)) :
  unknown = (as.filter fun a => a.key ∉ jobsKeys).map ("jobs." ++ ·.key)
  := by
  obtain ⟨⟨s', paths⟩, hjobs, hlast⟩ := exists_of_bind_eq_ok h
  cases hlast
  change (takeEntries takeJobsEntry {} (as.map Toml.PlainAssignment.entry)).map
    (Taken.under "jobs") = _ at hjobs
  obtain ⟨⟨t, keys⟩, htaken, hpaths⟩ := exists_of_map_eq_ok hjobs
  cases hpaths
  rw [List.append_nil, unknown_of_takeEntries htaken, List.map_map]
  rfl

/-- The reader of TOML lists the keys that the table does not know. -/
theorem listsUnknownKeys_ofToml :
  SettingsReader.ListsUnknownKeys ofToml
  := by
  intro content as s paths hlines h
  unfold ofToml at h
  split at h
  · cases h
  · next es hparse =>
    obtain rfl := Toml.eq_of_parse?_plain (by decide) hlines hparse
    apply unknown_of_ofEntries (mapError_eq_ok_iff.1 h)

/-! ### Their notices -/

/-- The path of a key in the table ends with the key. -/
theorem lastPart_path (h : Toml.IsBareKey key) :
  lastPart ("jobs." ++ key) = key
  := by
  have hpoint : '.' ∉ key.toList := fun hmem => absurd (h.isBare_of_mem hmem) (by decide)
  have hpath : ("jobs." ++ key).toList = "jobs".toList ++ '.' :: key.toList := by
    simp [String.toList_append]
  rw [lastPart, hpath, Text.segments_append, Text.segments_of_not_mem hpoint,
    List.getLastD_concat, String.ofList_toList]

/-- Each key that the table does not know is reported, in the order of the file. -/
theorem notices_of_ofFile (hread : read.ListsUnknownKeys)
    (hdecode : Text.decode? bytes = some content)
    (hlines : Text.lines content = Toml.headerLine "jobs" :: as.map Toml.PlainAssignment.line)
    (hfile : ofFile read file (.ok bytes) = .ok (s, notices)) :
  notices = (as.filter fun a => a.key ∉ jobsKeys).map (fun a => Notice.ofKey file content a.key)
  := by
  obtain ⟨bytes', content', s', unknown, hbytes, hdecode', htext, hfound⟩ := ofFile_eq_ok hfile
  cases hbytes
  cases hdecode.symm.trans hdecode'
  cases hfound
  obtain ⟨t, paths, hpaths, -, rfl⟩ := ofText_eq_ok htext
  rw [hread content as t paths hlines hpaths, List.map_map, List.map_map]
  apply List.map_congr_left
  intro a ha
  rw [Function.comp_apply, Function.comp_apply, lastPart_path a.isBareKey]

/-! ### Their lines -/

/-- An assignment's line holds the text of its key. -/
theorem isInfix_line (a : Toml.PlainAssignment) :
  a.key.toList <:+: a.line
  := (List.prefix_append _ _).isInfix

/-- Let a reader list the keys that the table `jobs` does not know.  If a file of this table and
plain assignments can be used, each of these keys is reported, in the order of the file.  The
line that is reported with a key is the first one that holds its text, and it is the line of the
assignment exactly if the text is in no line above that one, the header included. -/
theorem ofFile_unknownKeys (hread : read.ListsUnknownKeys)
    (hdecode : Text.decode? bytes = some content)
    (hlines : Text.lines content = Toml.headerLine "jobs" :: as.map Toml.PlainAssignment.line)
    (hfile : ofFile read file (.ok bytes) = .ok (s, notices)) :
  notices = (as.filter fun a => a.key ∉ jobsKeys).map (fun a => Notice.ofKey file content a.key)
    ∧ ∀ before a after, as = before ++ a :: after →
      ∃ n, Notice.ofKey file content a.key
          = .unknownKey a.key file (some n) (suggestedKey? a.key)
        ∧ Text.FirstHolding a.key.toList (Text.lines content) n
        ∧ (n = before.length + 2
          ↔ ∀ line ∈ Toml.headerLine "jobs" :: before.map Toml.PlainAssignment.line,
            ¬ a.key.toList <:+: line)
  := by
  constructor
  · apply notices_of_ofFile hread hdecode hlines hfile
  · rintro before a after rfl
    have hsplit : Text.lines content
        = (Toml.headerLine "jobs" :: before.map Toml.PlainAssignment.line)
          ++ a.line :: after.map Toml.PlainAssignment.line := by
      rw [hlines, List.map_append, List.map_cons, List.cons_append]
    have hmem : a.line ∈ Text.lines content := by
      rw [hsplit]
      exact List.mem_append_right _ List.mem_cons_self
    obtain ⟨n, hn⟩ := Text.exists_lineHolding? hmem (isInfix_line a)
    refine ⟨n, ?_, Text.lineHolding?_eq_some_iff.1 hn, ?_⟩
    · rw [Notice.ofKey, hn]
    · rw [← Text.lineHolding?_eq_iff hsplit (isInfix_line a) hn, List.length_cons,
        List.length_map]

/-- The assignment of the usual marker. -/
def usualMarker : Toml.PlainAssignment :=
  ⟨"directive", "CALL JOB:", by decide, by decide⟩

/-- The assignment of some text to a key. -/
def someText (key : String) (h : Toml.IsBareKey key) : Toml.PlainAssignment :=
  ⟨key, "X", h, by decide⟩

/-- A settings file with both assignments. -/
def markerAnd (key : String) : String :=
  "[jobs]\ndirective = \"CALL JOB:\"\n" ++ key ++ " = \"X\"\n"

/-- A misspelt key on the third line, whose text is nowhere above. -/
theorem ofFile_unknownKeys_withFoldr :
  SettingsReader.ListsUnknownKeys ofToml
    ∧ Text.lines (markerAnd "foldr").toList
      = Toml.headerLine "jobs"
        :: [usualMarker, someText "foldr" (by decide)].map Toml.PlainAssignment.line
    ∧ ofFile ofToml (.ofString "conf.toml") (.ok (Text.toBytes (markerAnd "foldr")))
      = .ok ({}, [.unknownKey "foldr" (.ofString "conf.toml") (some 3) (some "folder")])
    ∧ Text.FirstHolding "foldr".toList (Text.lines (markerAnd "foldr").toList) 3
    ∧ ∀ line ∈ [Toml.headerLine "jobs", usualMarker.line], ¬ "foldr".toList <:+: line
  := by
  have hlines : Text.lines (markerAnd "foldr").toList
      = Toml.headerLine "jobs"
        :: [usualMarker, someText "foldr" (by decide)].map Toml.PlainAssignment.line := rfl
  have hfile : ofFile ofToml (.ofString "conf.toml") (.ok (Text.toBytes (markerAnd "foldr")))
      = .ok ({}, [.unknownKey "foldr" (.ofString "conf.toml") (some 3) (some "folder")]) := rfl
  obtain ⟨-, hkeys⟩ := ofFile_unknownKeys listsUnknownKeys_ofToml rfl hlines hfile
  obtain ⟨n, hn, hfirst, hiff⟩ := hkeys [usualMarker] (someText "foldr" (by decide)) [] rfl
  cases hn
  exact ⟨listsUnknownKeys_ofToml, hlines, hfile, hfirst, hiff.1 rfl⟩

/-- The key `dir` is on the third line, but the second one is reported, since its own key holds
the text `dir`: so it is with every reader that lists the unknown keys, if it takes the file, and
the reader of TOML takes it. -/
theorem ofFile_unknownKeys_withDir :
  Text.lines (markerAnd "dir").toList
      = Toml.headerLine "jobs"
        :: [usualMarker, someText "dir" (by decide)].map Toml.PlainAssignment.line
    ∧ ([usualMarker, someText "dir" (by decide)].map (·.key)).Nodup
    ∧ (∀ (read : SettingsReader) s notices, read.ListsUnknownKeys →
        ofFile read (.ofString "conf.toml") (.ok (Text.toBytes (markerAnd "dir")))
          = .ok (s, notices) →
        notices = [.unknownKey "dir" (.ofString "conf.toml") (some 2) none])
    ∧ SettingsReader.ListsUnknownKeys ofToml
    ∧ ofFile ofToml (.ofString "conf.toml") (.ok (Text.toBytes (markerAnd "dir")))
      = .ok ({}, [.unknownKey "dir" (.ofString "conf.toml") (some 2) none])
  := by
  have hlines : Text.lines (markerAnd "dir").toList
      = Toml.headerLine "jobs"
        :: [usualMarker, someText "dir" (by decide)].map Toml.PlainAssignment.line := rfl
  refine ⟨hlines, by decide, ?_, listsUnknownKeys_ofToml, rfl⟩
  intro read s notices hread hfile
  rw [notices_of_ofFile hread rfl hlines hfile]
  rfl

end Settings

end RobotJobs
