import RobotJobs.Proofs.Text.Line
import RobotJobs.Toml.Reader

/-!
# Sections of plain assignments

A plain assignment gives a text to a key without quotes, on a line of its own, and every
character between the quotes stands for itself.  A text whose lines are the header of a section
and plain assignments says nothing else: if it can be read, what is read is that section with
these assignments in this order (`eq_of_parse?_plain`).  Whether lines end with a line feed alone
or with a carriage return before it, and whether the last one ends at all, does not matter.
-/

namespace RobotJobs.Toml

variable {c c' : Char} {xs cs rest text : List Char} {ls : List (List Char)} {name : String}
  {n : Nat} {d : Document} {es : Entries}

/-! ### Lines -/

/-- Some characters are lines, each ended by a line feed, which the last line may lack. -/
inductive Written : List (List Char) → List Char → Prop where
  | nil : Written [] []
  | last (line : List Char) : Written [line] line
  | cons (line : List Char) {ls : List (List Char)} {cs : List Char} (h : Written ls cs) :
    Written (line :: ls) (line ++ '\n' :: cs)

theorem unifyLineEnds_of_not_mem (h : '\n' ∉ xs) :
  unifyLineEnds xs = xs
  := by
  induction xs with
  | nil => rfl
  | cons x xs ih =>
    obtain ⟨-, hxs⟩ := not_or.1 (mt List.mem_cons.2 h)
    have hhead : xs.head? ≠ some '\n' := fun hhead => hxs (List.mem_of_head? hhead)
    simp [unifyLineEnds, hhead, ih hxs]

theorem unifyLineEnds_append (h : '\n' ∉ xs) (cs : List Char) :
  unifyLineEnds (xs ++ '\n' :: cs) = Text.dropReturn xs ++ '\n' :: unifyLineEnds cs
  := by
  induction xs with
  | nil => simp [unifyLineEnds, Text.dropReturn]
  | cons x xs ih =>
    obtain ⟨-, hxs⟩ := not_or.1 (mt List.mem_cons.2 h)
    cases xs with
    | nil => by_cases hx : x = '\r' <;> simp [unifyLineEnds, Text.dropReturn, hx]
    | cons y ys =>
      have hy : y ≠ '\n' := fun hy => hxs (List.mem_cons.2 (.inl hy.symm))
      have hdrop : Text.dropReturn (x :: y :: ys) = x :: Text.dropReturn (y :: ys) := by
        simp only [Text.dropReturn, List.getLast?_cons_cons, List.dropLast_cons_cons]
        split <;> rfl
      rw [List.cons_append, unifyLineEnds, ih hxs, hdrop]
      simp [hy]

/-- A text with single line feeds as line ends is its lines. -/
theorem written_lines (cs : List Char) :
  Written (Text.lines cs) (unifyLineEnds cs)
  := by
  induction cs using Text.segments_induction '\n' with
  | last xs hxs =>
    rw [unifyLineEnds_of_not_mem hxs, Text.lines, Text.segments_of_not_mem hxs]
    by_cases hempty : xs = []
    · rw [hempty]
      exact .nil
    · rw [Text.linesOfSegments, if_neg hempty]
      exact .last xs
  | segment xs ys hxs ih =>
    rw [unifyLineEnds_append hxs, Text.lines_append_newline xs ys hxs]
    exact .cons _ ih

/-- A line ends here, with a line feed or with all that is written. -/
def IsLineEnd (rest : List Char) : Prop :=
  rest.head?.all (· == '\n') = true

/-- What follows a line in what is written: its end and the other lines, or nothing. -/
theorem Written.exists_append (h : Written (xs :: ls) cs) :
  ∃ rest, cs = xs ++ rest ∧ IsLineEnd rest ∧ ∃ cs', afterLine rest = some cs' ∧ Written ls cs'
  := by
  cases h with
  | last => exact ⟨[], (List.append_nil _).symm, rfl, [], rfl, .nil⟩
  | cons _ h => exact ⟨_, rfl, rfl, _, rfl, h⟩

/-! ### Keys without quotes -/

/-- A key that may stand without quotes. -/
def IsBareKey (name : String) : Prop :=
  name ≠ "" ∧ name.toList.all isBare = true

instance : DecidablePred IsBareKey :=
  fun _ => inferInstanceAs (Decidable (_ ∧ _))

theorem IsBareKey.isBare_of_mem (h : IsBareKey name) (hc : c ∈ name.toList) :
  isBare c = true
  := List.all_eq_true.1 h.2 c hc

theorem IsBareKey.exists_cons (h : IsBareKey name) :
  ∃ c cs, name.toList = c :: cs ∧ isBare c = true
  := by
  obtain ⟨c, cs, hname⟩ := List.exists_cons_of_ne_nil (mt String.toList_eq_nil_iff.1 h.1)
  exact ⟨c, cs, hname, h.isBare_of_mem (hname ▸ List.mem_cons_self)⟩

theorem ne_of_isBare (h : isBare c = true) (h' : isBare c' = false) :
  c ≠ c'
  := by
  rintro rfl
  rw [h] at h'
  cases h'

theorem skipGaps_bare (h : IsBareKey name) (rest : List Char) :
  skipGaps (name.toList ++ rest) = name.toList ++ rest
  := by
  obtain ⟨c, cs, hname, hc⟩ := h.exists_cons
  have hspace : c ≠ ' ' := ne_of_isBare hc (by decide)
  have htab : c ≠ '\t' := ne_of_isBare hc (by decide)
  rw [hname, List.cons_append, skipGaps, List.dropWhile_cons_of_neg]
  simp [isGap, hspace, htab]

theorem keyPart_bare (h : IsBareKey name) (hrest : rest.head?.any isBare = false) :
  keyPart (name.toList ++ rest) = some (name, rest)
  := by
  have htake : (name.toList ++ rest).takeWhile isBare = name.toList := by
    rw [List.takeWhile_append_of_pos fun _ => h.isBare_of_mem]
    cases rest with
    | nil => exact List.append_nil _
    | cons c rest =>
      have hc : isBare c = false := hrest
      simp [hc]
  obtain ⟨c, cs, hname, -⟩ := h.exists_cons
  have hne : name.toList.isEmpty = false := by rw [hname]; rfl
  simp only [keyPart, htake, hne, Bool.false_eq_true, if_false, String.ofList_toList,
    List.drop_left]

theorem dottedKey_bare (h : IsBareKey name) (hrest : rest.head?.any isBare = false)
    (hpoint : (skipGaps rest).head? ≠ some '.') :
  dottedKey (n + 1) (name.toList ++ rest) = some (⟨[], name⟩, skipGaps rest)
  := by
  have hpart : keyPart (skipGaps (name.toList ++ rest)) = some (name, rest) := by
    rw [skipGaps_bare h, keyPart_bare h hrest]
  simp only [dottedKey, hpart, Option.bind_eq_bind, Option.bind_some]
  split
  · next heq =>
    rw [heq] at hpoint
    exact absurd rfl hpoint
  · rfl

/-- A key without quotes is read as a single part, up to what no longer belongs to it. -/
theorem key_bare (h : IsBareKey name) (hrest : rest.head?.any isBare = false)
    (hpoint : (skipGaps rest).head? ≠ some '.') :
  key (name.toList ++ rest) = some (⟨[], name⟩, skipGaps rest)
  := dottedKey_bare h hrest hpoint

/-! ### One assignment -/

/-- A text in which every character stands for itself. -/
def IsPlain (given : String) : Prop :=
  '"' ∉ given.toList ∧ '\\' ∉ given.toList

instance : DecidablePred IsPlain :=
  fun _ => inferInstanceAs (Decidable (_ ∧ _))

/-- A key without quotes and a text in which every character stands for itself. -/
structure PlainAssignment where
  key : String
  value : String
  isBareKey : IsBareKey key
  isPlain : IsPlain value

namespace PlainAssignment

/-- The line that an assignment is written on. -/
def line (a : PlainAssignment) : List Char :=
  a.key.toList ++ ' ' :: '=' :: ' ' :: '"' :: (a.value.toList ++ ['"'])

/-- The assignment as it is read. -/
def toAssignment (a : PlainAssignment) : Assignment :=
  ⟨⟨[], a.key⟩, .text a.value⟩

/-- The entry that an assignment makes. -/
def entry (a : PlainAssignment) : String × Node :=
  (a.key, .text a.value)

end PlainAssignment

/-- A text that holds neither quotes nor backslashes is read as it stands. -/
theorem eq_of_escapedRest {value : List Char} (hquote : '"' ∉ value) (hbackslash : '\\' ∉ value)
    (h : escapedRest n (value ++ '"' :: rest) = some (text, cs)) :
  text = value ∧ cs = rest
  := by
  induction value generalizing n text with
  | nil =>
    cases n with
    | zero => cases h
    | succ n =>
      cases h
      exact ⟨rfl, rfl⟩
  | cons c value ih =>
    obtain ⟨hquote', hquote⟩ := not_or.1 (mt List.mem_cons.2 hquote)
    obtain ⟨hbackslash', hbackslash⟩ := not_or.1 (mt List.mem_cons.2 hbackslash)
    cases n with
    | zero => cases h
    | succ n =>
      rw [List.cons_append, escapedRest, if_neg (Ne.symm hquote'),
        if_neg (Ne.symm hbackslash')] at h
      split at h
      · obtain ⟨⟨text', cs'⟩, hrest, hsome⟩ := Option.bind_eq_some_iff.1 h
        cases hsome
        obtain ⟨rfl, rfl⟩ := ih hquote hbackslash hrest
        exact ⟨rfl, rfl⟩
      · cases h

theorem beginsLines_plain {value : List Char} (hquote : '"' ∉ value)
    (hrest : IsLineEnd rest) :
  beginsLines ('"' :: (value ++ '"' :: rest)) = false
  := by
  cases value with
  | nil =>
    cases rest with
    | nil => rfl
    | cons c rest =>
      obtain rfl : c = '\n' := by simpa [IsLineEnd] using hrest
      rfl
  | cons c value =>
    have hc : '"' ≠ c := (not_or.1 (mt List.mem_cons.2 hquote)).1
    simp [beginsLines, Text.afterStart?, hc]

/-- A text between double quotes that stands for itself is read as the value that it is. -/
theorem eq_of_value {given : String} {node : Node} (hgiven : IsPlain given)
    (hrest : IsLineEnd rest)
    (h : value (n + 1) ('"' :: (given.toList ++ '"' :: rest)) = some (node, cs)) :
  node = .text given ∧ cs = rest
  := by
  change (Toml.text ('"' :: (given.toList ++ '"' :: rest))).map _ = _ at h
  rw [Toml.text, beginsLines_plain hgiven.1 hrest] at h
  obtain ⟨⟨s, cs'⟩, hline, hnode⟩ := Option.map_eq_some_iff.1 h
  cases hnode
  obtain ⟨⟨text, cs'⟩, hescaped, htext⟩ := Option.map_eq_some_iff.1 hline
  cases htext
  obtain ⟨rfl, rfl⟩ := eq_of_escapedRest hgiven.1 hgiven.2 hescaped
  rw [String.ofList_toList]
  exact ⟨rfl, rfl⟩

/-- A plain assignment at the beginning of a line is read as the assignment that it is. -/
theorem eq_of_assignment (a : PlainAssignment) (hrest : IsLineEnd rest)
    {found : Assignment} (h : assignment (value (n + 1)) (a.line ++ rest) = some (found, cs)) :
  found = a.toAssignment ∧ cs = rest
  := by
  have hkey : Toml.key (a.line ++ rest)
      = some (⟨[], a.key⟩, '=' :: ' ' :: '"' :: (a.value.toList ++ '"' :: rest)) := by
    rw [PlainAssignment.line, List.append_assoc, key_bare a.isBareKey rfl]
    · simp [skipGaps, isGap]
    · simp [skipGaps, isGap]
  obtain ⟨⟨key, afterKey⟩, hkey', h⟩ := Option.bind_eq_some_iff.1 h
  cases hkey.symm.trans hkey'
  obtain ⟨afterSign, hsign, h⟩ := Option.bind_eq_some_iff.1 h
  cases hsign
  obtain ⟨⟨node, afterValue⟩, hnode, hfound⟩ := Option.bind_eq_some_iff.1 h
  cases hfound
  obtain ⟨rfl, rfl⟩ := eq_of_value a.isPlain hrest hnode
  exact ⟨rfl, rfl⟩

/-! ### Whole documents -/

/-- A line that a key without quotes begins is read as an assignment. -/
theorem exists_of_ofLines_bare (hname : IsBareKey name)
    (h : Document.ofLines (n + 1) (name.toList ++ cs) = some d) :
  ∃ a rest rest' d', assignment (value (nestingLimit - 1)) (name.toList ++ cs) = some (a, rest)
    ∧ afterLine rest = some rest' ∧ Document.ofLines n rest' = some d' ∧ d = d'.after a
  := by
  obtain ⟨c, name', hcons, hc⟩ := hname.exists_cons
  have hbracket : c ≠ '[' := ne_of_isBare hc (by decide)
  have hother : ¬ (c = '\n' ∨ c = '#') :=
    not_or.2 ⟨ne_of_isBare hc (by decide), ne_of_isBare hc (by decide)⟩
  rw [Document.ofLines, skipGaps_bare hname] at h
  rw [hcons, List.cons_append] at h ⊢
  split at h
  case h_1 heq => cases heq
  case h_2 heq => exact absurd (List.cons.inj heq).1 hbracket
  case h_3 heq => exact absurd (List.cons.inj heq).1 hbracket
  case h_4 heq =>
    obtain ⟨rfl, rfl⟩ := List.cons.inj heq
    rw [if_neg hother] at h
    obtain ⟨⟨a, rest⟩, ha, h⟩ := Option.bind_eq_some_iff.1 h
    obtain ⟨rest', hrest', h⟩ := Option.bind_eq_some_iff.1 h
    obtain ⟨d', hd', h⟩ := Option.bind_eq_some_iff.1 h
    cases h
    exact ⟨a, rest, rest', d', ha, hrest', hd', rfl⟩

/-- Lines with plain assignments are read as a document of these assignments. -/
theorem eq_of_ofLines_plain {as : List PlainAssignment}
    (hwritten : Written (as.map PlainAssignment.line) cs) (h : Document.ofLines n cs = some d) :
  d = ⟨as.map PlainAssignment.toAssignment, []⟩
  := by
  induction as generalizing n cs d with
  | nil =>
    cases hwritten
    cases n with
    | zero => cases h
    | succ n =>
      cases h
      rfl
  | cons a as ih =>
    obtain ⟨rest, rfl, hrest, cs', hafter, hrests⟩ := hwritten.exists_append
    cases n with
    | zero => cases h
    | succ n =>
      rw [PlainAssignment.line, List.append_assoc] at h
      obtain ⟨found, rest', cs'', d', hfound, hafter', hd', rfl⟩ :=
        exists_of_ofLines_bare a.isBareKey h
      rw [← List.append_assoc, ← PlainAssignment.line] at hfound
      obtain ⟨rfl, rfl⟩ := eq_of_assignment a hrest hfound
      cases hafter.symm.trans hafter'
      rw [ih hrests hd']
      rfl

/-- The line of the header of a section. -/
def headerLine (name : String) : List Char :=
  '[' :: (name.toList ++ [']'])

/-- The header of a section is read with its key, and what follows it makes up the section. -/
theorem eq_of_ofLines_headerLine (hname : IsBareKey name) {as : List PlainAssignment}
    (hwritten : Written (headerLine name :: as.map PlainAssignment.line) cs)
    (h : Document.ofLines n cs = some d) :
  d = ⟨[], [⟨⟨[], name⟩, false, as.map PlainAssignment.toAssignment⟩]⟩
  := by
  obtain ⟨rest, rfl, -, cs', hafter, hrests⟩ := hwritten.exists_append
  cases n with
  | zero => cases h
  | succ n =>
    have hkey : key (name.toList ++ (']' :: rest)) = some (⟨[], name⟩, ']' :: rest) := by
      rw [key_bare hname rfl]
      · rfl
      · exact ne_of_beq_false rfl
    have hheader : header [']'] (name.toList ++ (']' :: rest)) = some (⟨[], name⟩, cs') := by
      simp [header, hkey, Text.afterStart?, hafter]
    have hgaps : skipGaps (headerLine name ++ rest) = '[' :: (name.toList ++ (']' :: rest)) := by
      simp [headerLine, skipGaps, isGap]
    obtain ⟨c, name', hcons, hc⟩ := hname.exists_cons
    have hbracket : c ≠ '[' := ne_of_isBare hc (by decide)
    rw [Document.ofLines, hgaps] at h
    split at h
    case h_1 heq => cases heq
    case h_2 heq =>
      rw [hcons] at heq
      exact absurd (List.cons.inj (List.cons.inj heq).2).1 hbracket
    case h_3 heq =>
      obtain ⟨-, rfl⟩ := List.cons.inj heq
      rw [hheader] at h
      obtain ⟨⟨key, rest'⟩, hheader, h⟩ := Option.bind_eq_some_iff.1 h
      cases hheader
      obtain ⟨d', hd', hd⟩ := Option.bind_eq_some_iff.1 h
      cases hd
      rw [eq_of_ofLines_plain hrests hd']
      rfl
    case h_4 hno heq => exact absurd (List.cons.inj heq).1.symm hno

/-- Assignments under new keys without points add their entries at the end. -/
theorem eq_of_assignAll_plain {as : List PlainAssignment} {es' : Entries}
    (h : es.assignAll (as.map PlainAssignment.toAssignment) = some es') :
  es' = es ++ as.map PlainAssignment.entry
  := by
  induction as generalizing es with
  | nil =>
    cases h
    exact (List.append_nil _).symm
  | cons a as ih =>
    obtain ⟨es'', ha, hrest⟩ := Option.bind_eq_some_iff.1 h
    -- An assignment under a key that is there already would have failed.
    obtain rfl : es ++ [a.entry] = es'' := by
      change (if _ then none else some _) = _ at ha
      split at ha
      · cases ha
      · exact Option.some.inj ha
    rw [ih hrest, List.append_assoc]
    rfl

theorem entries?_section (name : String) (as : List Assignment) :
  Document.entries? ⟨[], [⟨⟨[], name⟩, false, as⟩]⟩
    = (Entries.assignAll [] as).map fun below => [(name, .table .header below)]
  := by
  have hempty : Entries.assignAll [] [] = some [] := rfl
  simp [Document.entries?, hempty, Section.place, Entries.descend, Section.add, Entries.find?]

/-- A text whose first line is a header does not begin with a byte order mark. -/
theorem skipMark_eq_self (h : Written (headerLine name :: ls) (unifyLineEnds cs)) :
  skipMark cs = cs
  := by
  obtain ⟨rest, hrest, -⟩ := h.exists_append
  cases cs with
  | nil => rfl
  | cons c cs =>
    rw [skipMark, if_neg]
    rintro rfl
    have hunify : unifyLineEnds ('\uFEFF' :: cs) = '\uFEFF' :: unifyLineEnds cs := by
      simp [unifyLineEnds]
    rw [hunify] at hrest
    exact absurd (List.cons.inj hrest).1 (by decide)

/-- A text of a header and plain assignments is read as a section of these assignments. -/
theorem eq_of_parse?_plain {content : List Char} (hname : IsBareKey name)
    {as : List PlainAssignment}
    (hlines : Text.lines content = headerLine name :: as.map PlainAssignment.line)
    (h : parse? content = some es) :
  es = [(name, .table .header (as.map PlainAssignment.entry))]
  := by
  have hwritten := written_lines content
  rw [hlines] at hwritten
  obtain ⟨d, hd, hes⟩ := Option.bind_eq_some_iff.1 h
  rw [Document.ofText?, skipMark_eq_self hwritten] at hd
  obtain rfl := eq_of_ofLines_headerLine hname hwritten hd
  rw [entries?_section] at hes
  obtain ⟨below, hbelow, rfl⟩ := Option.map_eq_some_iff.1 hes
  rw [eq_of_assignAll_plain hbelow]
  rfl

end RobotJobs.Toml
