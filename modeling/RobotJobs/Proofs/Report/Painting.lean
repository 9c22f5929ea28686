import Mathlib.Data.List.Basic
import RobotJobs.Proofs.Text.Utf8
import RobotJobs.Report.Calls
import RobotJobs.Report.Sweep

/-!
# Painted reports

`unpainted` takes the escape sequences out of a text: whatever stands from an escape
character and a bracket on up to the next `m`.  Of a paint it is assumed that it leaves a text
as it is and only puts such sequences around it (`Paint.Surrounds`), as the paint of a terminal
does (`Paint.surrounds_escaped`).  Then what is painted is the plain text with sequences around
parts of it, and it stays so when texts are put together (`Paints`), as long as no part brings
an escape character of its own.  So every part of a report is the plain one when its paint is
taken off (`unpainted_reports`).
-/

namespace RobotJobs

/-! ### Taking paint off -/

/-- The characters that do not belong to an escape sequence; one may have begun already. -/
def withoutEscapes (begun : Bool) : List Char → List Char
  | [] => []
  | c :: cs =>
    if begun then withoutEscapes (c != 'm') cs
    else if c = '\x1b' ∧ cs.head? = some '[' then withoutEscapes true cs
    else c :: withoutEscapes false cs

/-- A text without escape sequences. -/
def unpainted (text : String) : String :=
  String.ofList (withoutEscapes false text.toList)

/-- A text holds no escape character. -/
def Unescaped (text : String) : Prop :=
  '\x1b' ∉ text.toList

instance (text : String) : Decidable (Unescaped text) :=
  inferInstanceAs (Decidable (_ ∉ _))

/-- Without its escape sequences the second text is the first one, whatever follows. -/
def Paints (text painted : String) : Prop :=
  ∀ rest, withoutEscapes false (painted.toList ++ rest)
    = text.toList ++ withoutEscapes false rest

variable {s s' t t' : String} {cs : List Char}

theorem withoutEscapes_append (h : '\x1b' ∉ cs) (rest : List Char) :
  withoutEscapes false (cs ++ rest) = cs ++ withoutEscapes false rest
  := by
  induction cs with
  | nil => rfl
  | cons c cs ih =>
    obtain ⟨hc, hcs⟩ := not_or.1 (mt List.mem_cons.2 h)
    simp [withoutEscapes, Ne.symm hc, ih hcs]

/-- A sequence that has begun ends with the next `m`. -/
theorem withoutEscapes_begun (h : 'm' ∉ cs) (rest : List Char) :
  withoutEscapes true (cs ++ 'm' :: rest) = withoutEscapes false rest
  := by
  induction cs with
  | nil => rfl
  | cons c cs ih =>
    obtain ⟨hc, hcs⟩ := not_or.1 (mt List.mem_cons.2 h)
    have hgoes : (c != 'm') = true := bne_iff_ne.2 (Ne.symm hc)
    rw [List.cons_append, withoutEscapes, if_pos rfl, hgoes, ih hcs]

theorem Paints.unpainted_eq (h : Paints s t) :
  unpainted t = s
  := by
  have hall := h []
  rw [List.append_nil] at hall
  rw [unpainted, hall, withoutEscapes, List.append_nil, String.ofList_toList]

/-! ### Texts put together -/

theorem unescaped_append_iff :
  Unescaped (s ++ s') ↔ Unescaped s ∧ Unescaped s'
  := by
  rw [Unescaped, String.toList_append, List.mem_append, not_or]
  rfl

theorem unescaped_toString (n : ℕ) :
  Unescaped (toString n)
  := by
  intro hmem
  have hdigits : '\x1b' ∈ Nat.toDigits 10 n := by
    simpa [Nat.repr_eq_ofList_toDigits] using hmem
  exact absurd (Nat.isDigit_of_mem_toDigits (by decide) (by decide) hdigits) (by decide)

/-- A text without escape characters is its own paint. -/
theorem Unescaped.paints (h : Unescaped s) :
  Paints s s
  := withoutEscapes_append h

theorem Paints.append (h : Paints s t) (h' : Paints s' t') :
  Paints (s ++ s') (t ++ t')
  := by
  intro rest
  rw [String.toList_append, String.toList_append, List.append_assoc, List.append_assoc, h, h']

theorem paints_unlines {α : Type} {xs : List α} {f g : α → String}
    (h : ∀ x ∈ xs, Paints (f x) (g x)) :
  Paints (unlines (xs.map f)) (unlines (xs.map g))
  := by
  induction xs with
  | nil => exact Unescaped.paints List.not_mem_nil
  | cons x xs ih =>
    obtain ⟨hx, hxs⟩ := List.forall_mem_cons.1 h
    have hcons (line : String) (lines : List String) :
        unlines (line :: lines) = line ++ "\n" ++ unlines lines := by
      simp [unlines]
    rw [List.map_cons, List.map_cons, hcons, hcons]
    apply Paints.append _ (ih hxs)
    apply hx.append
    apply Unescaped.paints
    decide

/-! ### Painted texts -/

/-- A text is escape sequences, one after the other. -/
inductive AreEscapes : String → Prop where
  | none : AreEscapes ""
  | more {parameters rest : String} (h : 'm' ∉ parameters.toList) (hrest : AreEscapes rest) :
    AreEscapes (Paint.escape parameters ++ rest)

/-- What is assumed of a paint: a text in a style is the unchanged text between escape
sequences. -/
def Paint.Surrounds (paint : Paint) : Prop :=
  ∀ style text, ∃ before after, paint.apply style text = before ++ text ++ after
    ∧ AreEscapes before ∧ AreEscapes after

variable {paint : Paint}

theorem AreEscapes.escape {parameters : String} (h : 'm' ∉ parameters.toList) :
  AreEscapes (Paint.escape parameters)
  := by
  rw [← String.append_empty (s := Paint.escape parameters)]
  apply AreEscapes.more h .none

/-- Of escape sequences nothing is left. -/
theorem AreEscapes.paints (h : AreEscapes t) :
  Paints "" t
  := by
  induction h with
  | none => exact Unescaped.paints List.not_mem_nil
  | @more parameters escapes hparameters hescapes ih =>
    intro rest
    have hsequence : (Paint.escape parameters ++ escapes).toList ++ rest
        = '\x1b' :: '[' :: (parameters.toList ++ 'm' :: (escapes.toList ++ rest)) := by
      simp [Paint.escape, String.toList_append]
    rw [hsequence, withoutEscapes, if_neg (by decide), if_pos ⟨rfl, rfl⟩, ← List.cons_append,
      withoutEscapes_begun, ih]
    simpa using hparameters

theorem Paint.surrounds_plain :
  plain.Surrounds
  := by
  intro style text
  use "", ""
  refine ⟨?_, .none, .none⟩
  simp

theorem Paint.not_mem_colourParameters (colours : Bool) {parameters : String}
    (h : 'm' ∉ parameters.toList) :
  'm' ∉ (colourParameters colours parameters).toList
  := by
  unfold colourParameters
  split
  · exact h
  · decide

/-- A terminal's paint is escape sequences around a text, with and without colours. -/
theorem Paint.surrounds_escaped (colours : Bool) :
  (escaped colours).Surrounds
  := by
  intro style text
  have hcolour : 'm' ∉ ("38;5;" ++ style.colour.code).toList := by
    cases style.colour <;> decide
  have hon := not_mem_colourParameters colours hcolour
  cases hbold : style.bold with
  | true =>
    use escape (colourParameters colours ("38;5;" ++ style.colour.code)) ++ escape "1",
      escape "0"
    refine ⟨?_, .more hon (.escape (by decide)), .escape (by decide)⟩
    simp [escaped, hbold]
  | false =>
    use escape (colourParameters colours ("38;5;" ++ style.colour.code)),
      escape (colourParameters colours "39")
    refine ⟨?_, .escape hon, .escape (not_mem_colourParameters colours (by decide))⟩
    simp [escaped, hbold]

/-- A text in a style is painted if it holds no escape character of its own. -/
theorem paints_apply (hpaint : paint.Surrounds) (style : Style) (h : Unescaped s) :
  Paints (Paint.plain.apply style s) (paint.apply style s)
  := by
  obtain ⟨before, after, happly, hbefore, hafter⟩ := hpaint style s
  rw [Paint.apply_plain, happly]
  simpa using (hbefore.paints.append h.paints).append hafter.paints

theorem paints_heading (hpaint : paint.Surrounds) (h : Unescaped s) :
  Paints (heading s .plain) (heading s paint)
  := paints_apply hpaint _ h

theorem paints_aside (hpaint : paint.Surrounds) (h : Unescaped s) :
  Paints (aside s .plain) (aside s paint)
  := paints_apply hpaint _ h

theorem paints_line (hpaint : paint.Surrounds) (tag : Tag) (h : Unescaped s) :
  Paints (tag.line s .plain) (tag.line s paint)
  := by
  have htext : Unescaped tag.text := by
    cases tag <;> decide
  apply Paints.append _ h.paints
  apply (paints_apply hpaint tag.style htext).append
  apply Unescaped.paints
  decide

/-! ### What reports are about -/

/-- The texts that a problem brings. -/
def Problem.texts : Problem → List String
  | notFound job fileName folder => [job.text, fileName, folder.display]
  | unreadable job path reason => [job.text, path.display, reason]

/-- The reason of a failure. -/
def Fate.reason? : Fate → Option String
  | failed reason => some reason
  | _ => none

/-- The texts that an outcome brings. -/
def Outcome.texts (o : Outcome) : List String :=
  o.fileName :: o.path.display :: o.fate.reason?.toList

theorem Problem.unescaped_message {p : Problem} (h : ∀ text ∈ p.texts, Unescaped text) :
  Unescaped p.message
  := by
  cases p with
  | notFound job fileName folder =>
    simp only [texts, List.forall_mem_cons] at h
    obtain ⟨-, hfile, hfolder, -⟩ := h
    unfold message
    rw [unescaped_append_iff, unescaped_append_iff, unescaped_append_iff]
    exact ⟨⟨⟨by decide, hfile⟩, by decide⟩, hfolder⟩
  | unreadable job path reason =>
    simp only [texts, List.forall_mem_cons] at h
    obtain ⟨-, hpath, hreason, -⟩ := h
    unfold message
    rw [unescaped_append_iff, unescaped_append_iff, unescaped_append_iff]
    exact ⟨⟨⟨by decide, hpath⟩, by decide⟩, hreason⟩

/-- The units of a drawing hold no escape character. -/
structure Glyphs.Unescaped (g : Glyphs) : Prop where
  branch : RobotJobs.Unescaped g.branch
  corner : RobotJobs.Unescaped g.corner
  bar : RobotJobs.Unescaped g.bar
  blank : RobotJobs.Unescaped g.blank

theorem Glyphs.unescaped_choose (unicode : Bool) :
  (Glyphs.choose unicode).Unescaped
  := by
  cases unicode with
  | true => exact ⟨by decide, by decide, by decide, by decide⟩
  | false => exact ⟨by decide, by decide, by decide, by decide⟩

theorem Glyphs.Unescaped.draw_calls {g : Glyphs} (hg : g.Unescaped) {calls : Calls}
    {indent : String} (hindent : RobotJobs.Unescaped indent)
    (hnames : ∀ job ∈ calls.names, RobotJobs.Unescaped job.text) :
  ∀ line ∈ calls.draw g indent, RobotJobs.Unescaped line
  := by
  fun_induction Calls.draw g indent calls with
  | case1 => exact List.forall_mem_nil _
  | case2 indent job below ih =>
    simp only [Calls.names, List.forall_mem_cons, List.append_nil] at hnames
    simp only [List.forall_mem_cons, unescaped_append_iff]
    exact ⟨⟨⟨hindent, hg.corner⟩, hnames.1⟩,
      ih (unescaped_append_iff.2 ⟨hindent, hg.blank⟩) hnames.2⟩
  | case3 indent job below job' below' others ihbelow ihothers =>
    rw [Calls.names, List.forall_mem_cons, List.forall_mem_append] at hnames
    obtain ⟨hjob, hbelow, hothers⟩ := hnames
    rw [List.cons_append, List.forall_mem_cons, List.forall_mem_append]
    simp only [unescaped_append_iff] at *
    exact ⟨⟨⟨hindent, hg.branch⟩, hjob⟩, ihbelow ⟨hindent, hg.bar⟩ hbelow, ihothers hindent hothers⟩

theorem Glyphs.Unescaped.draw {g : Glyphs} (hg : g.Unescaped) {tree : CallTree}
    (hnames : ∀ job ∈ tree.root :: tree.calls.names, RobotJobs.Unescaped job.text) :
  ∀ line ∈ tree.draw g, RobotJobs.Unescaped line
  := by
  obtain ⟨hroot, hcalls⟩ := List.forall_mem_cons.1 hnames
  rw [CallTree.draw, List.forall_mem_cons, unescaped_append_iff]
  exact ⟨⟨hg.corner, hroot⟩, hg.draw_calls hg.blank hcalls⟩

/-! ### Reports -/

theorem paints_problemLines (hpaint : paint.Surrounds) {problems : List Problem}
    (h : ∀ p ∈ problems, ∀ text ∈ p.texts, Unescaped text) :
  Paints (problemLines problems .plain) (problemLines problems paint)
  := by
  apply paints_unlines
  intro p hp
  apply paints_line hpaint
  apply Problem.unescaped_message (h p hp)

theorem paints_treeReport (hpaint : paint.Surrounds) {a : Analysis} {g : Glyphs}
    (hg : g.Unescaped) (h : ∀ job ∈ a.tree.root :: a.tree.calls.names, Unescaped job.text) :
  Paints (a.treeReport g .plain) (a.treeReport g paint)
  := by
  have hlines : Paints (unlines (a.tree.draw g)) (unlines (a.tree.draw g)) := by
    have hlines := paints_unlines (f := id) (g := id) fun line hline =>
      (hg.draw h line hline).paints
    rwa [List.map_id] at hlines
  have hend : Paints "\n" "\n" := Unescaped.paints (by decide)
  have hheading := paints_heading hpaint (s := "Job Call Tree:") (by decide)
  exact ((hend.append hheading).append hend).append hlines

theorem paints_sizeReport (hpaint : paint.Surrounds) (a : Analysis) :
  Paints (a.sizeReport .plain) (a.sizeReport paint)
  := by
  apply Paints.append _ (Unescaped.paints (by decide))
  apply paints_aside hpaint
  simp only [unescaped_append_iff, unescaped_toString]
  decide

theorem paints_reportLine (hpaint : paint.Surrounds) {o : Outcome}
    (h : ∀ text ∈ o.texts, Unescaped text) :
  Paints (o.reportLine .plain) (o.reportLine paint)
  := by
  obtain ⟨fileName, path, fate⟩ := o
  obtain ⟨hname, hrest⟩ := List.forall_mem_cons.1 h
  obtain ⟨-, hreason⟩ := List.forall_mem_cons.1 hrest
  cases fate with
  | kept => exact paints_line hpaint .kept hname
  | deleted => exact paints_line hpaint .deleted hname
  | wouldDelete => exact paints_line hpaint .wouldDelete hname
  | failed reason =>
    apply paints_line hpaint .error
    simp only [unescaped_append_iff]
    exact ⟨⟨⟨by decide, hname⟩, by decide⟩, hreason reason (List.mem_singleton.2 rfl)⟩

theorem paints_reportLines (hpaint : paint.Surrounds) {outcomes : List Outcome}
    (h : ∀ o ∈ outcomes, ∀ text ∈ o.texts, Unescaped text) :
  Paints (Outcome.reportLines outcomes .plain) (Outcome.reportLines outcomes paint)
  := by
  apply paints_unlines
  intro o ho
  apply paints_reportLine hpaint (h o ho)

theorem paints_summary (hpaint : paint.Surrounds) (outcomes : List Outcome) (dryRun : Bool) :
  Paints (Outcome.summary outcomes dryRun .plain) (Outcome.summary outcomes dryRun paint)
  := by
  have hend : Paints "\n" "\n" := Unescaped.paints (by decide)
  unfold Outcome.summary
  split
  · exact (paints_aside hpaint (by decide)).append hend
  · refine Paints.append (hend.append ?_) hend
    apply paints_aside hpaint
    have hverb : Unescaped (if dryRun then "would be deleted" else "deleted") := by
      cases dryRun <;> decide
    have hfailures : Unescaped (if Outcome.allSucceeded outcomes then ""
        else ", " ++ toString (Outcome.failedCount outcomes) ++ " failed") := by
      split
      · decide
      · simp only [unescaped_append_iff, unescaped_toString]
        decide
    simp only [unescaped_append_iff, unescaped_toString, hverb, hfailures]
    decide

theorem paints_sweepReport (hpaint : paint.Surrounds) {outcomes : List Outcome}
    {extension : String} (hextension : Unescaped extension)
    (h : ∀ o ∈ outcomes, ∀ text ∈ o.texts, Unescaped text) (dryRun : Bool) :
  Paints (sweepReport extension outcomes dryRun .plain)
    (sweepReport extension outcomes dryRun paint)
  := by
  apply Paints.append _ (paints_summary hpaint outcomes dryRun)
  apply Paints.append _ (paints_reportLines hpaint h)
  apply Unescaped.paints
  unfold sweepHeader
  split
  · rw [unescaped_append_iff, unescaped_append_iff]
    exact ⟨⟨by decide, hextension⟩, by decide⟩
  · rw [unescaped_append_iff, unescaped_append_iff]
    exact ⟨⟨by decide, hextension⟩, by decide⟩

/-- Let no name of a job or a file, no path and no reason hold an escape character, and let a
paint put nothing but escape sequences around texts.  Then all parts of the report of an
analysis and of a sweep are the plain ones when this paint is taken off, and so is the whole
report of a sweep, whatever the connectors are. -/
theorem unpainted_reports {paint : Paint} (hpaint : paint.Surrounds) (a : Analysis)
    (outcomes : List Outcome) (unicode dryRun : Bool)
    (hnames : ∀ job ∈ a.tree.root :: a.tree.calls.names, Unescaped job.text)
    (hproblems : ∀ p ∈ a.problems, ∀ text ∈ p.texts, Unescaped text)
    (houtcomes : ∀ o ∈ outcomes, ∀ text ∈ o.texts, Unescaped text) :
  unpainted (problemLines a.problems paint) = problemLines a.problems .plain
    ∧ unpainted (a.treeReport (.choose unicode) paint) = a.treeReport (.choose unicode) .plain
    ∧ unpainted (a.sizeReport paint) = a.sizeReport .plain
    ∧ unpainted (Outcome.reportLines outcomes paint) = Outcome.reportLines outcomes .plain
    ∧ unpainted (Outcome.summary outcomes dryRun paint) = Outcome.summary outcomes dryRun .plain
    ∧ ∀ extension, Unescaped extension →
      unpainted (sweepReport extension outcomes dryRun paint)
        = sweepReport extension outcomes dryRun .plain
  := by
  refine ⟨?_, ?_, ?_, ?_, ?_, ?_⟩
  · exact (paints_problemLines hpaint hproblems).unpainted_eq
  · exact (paints_treeReport hpaint (Glyphs.unescaped_choose unicode) hnames).unpainted_eq
  · exact (paints_sizeReport hpaint a).unpainted_eq
  · exact (paints_reportLines hpaint houtcomes).unpainted_eq
  · exact (paints_summary hpaint outcomes dryRun).unpainted_eq
  · intro extension hextension
    exact (paints_sweepReport hpaint hextension houtcomes dryRun).unpainted_eq

/-- A job calls another one whose file is missing. -/
def Analysis.withGhost : Analysis where
  tree := ⟨⟨"MAIN"⟩, .call ⟨"GHOST"⟩ .none .none⟩
  events := [.problem (.notFound ⟨"GHOST"⟩ "GHOST.JBI" (.ofString "jobs"))]

/-- A file could not be deleted. -/
def Outcome.withLock : Outcome :=
  ⟨"OLD.JBI", .ofString "jobs/OLD.JBI", .failed "Permission denied"⟩

theorem unpainted_reports_withGhost :
  (Paint.escaped true).Surrounds
    ∧ ((∀ job ∈ Analysis.withGhost.tree.root :: Analysis.withGhost.tree.calls.names,
        Unescaped job.text)
      ∧ (∀ p ∈ Analysis.withGhost.problems, ∀ text ∈ p.texts, Unescaped text)
      ∧ ∀ o ∈ [Outcome.withLock], ∀ text ∈ o.texts, Unescaped text)
    ∧ Analysis.withGhost.treeReport .ascii (.escaped true)
      ≠ Analysis.withGhost.treeReport .ascii .plain
    ∧ unpainted (Analysis.withGhost.treeReport .ascii (.escaped true))
      = "\nJob Call Tree:\n\x60-- MAIN\n    \x60-- GHOST\n"
    ∧ unpainted (sweepReport "JBI" [Outcome.withLock] false (.escaped true))
      = sweepReport "JBI" [Outcome.withLock] false .plain
  := by
  have hnames : ∀ job ∈ Analysis.withGhost.tree.root :: Analysis.withGhost.tree.calls.names,
      Unescaped job.text := by decide
  have hshown (path : String) (h : Unescaped path) : Unescaped (Path.ofString path).display := by
    rwa [Path.display, Path.ofString, Text.ofBytes_toBytes]
  have hproblems : ∀ p ∈ Analysis.withGhost.problems, ∀ text ∈ p.texts, Unescaped text := by
    intro p hp
    rw [List.mem_singleton.1 hp]
    exact List.forall_mem_cons.2 ⟨by decide, List.forall_mem_cons.2 ⟨by decide,
      List.forall_mem_singleton.2 (hshown "jobs" (by decide))⟩⟩
  have houtcomes : ∀ o ∈ [Outcome.withLock], ∀ text ∈ o.texts, Unescaped text := by
    intro o ho
    rw [List.mem_singleton.1 ho]
    exact List.forall_mem_cons.2 ⟨by decide, List.forall_mem_cons.2
      ⟨hshown "jobs/OLD.JBI" (by decide), List.forall_mem_singleton.2 (by decide)⟩⟩
  have hpaint : (Paint.escaped true).Surrounds := Paint.surrounds_escaped true
  obtain ⟨-, htree, -, -, -, hsweep⟩ := unpainted_reports hpaint Analysis.withGhost
    [Outcome.withLock] false false hnames hproblems houtcomes
  refine ⟨hpaint, ⟨hnames, hproblems, houtcomes⟩, by decide, ?_, hsweep "JBI" (by decide)⟩
  exact htree.trans (by decide)

end RobotJobs
