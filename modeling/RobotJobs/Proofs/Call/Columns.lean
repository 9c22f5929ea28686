import Mathlib.Data.List.Basic
import RobotJobs.Proofs.Call.Drawing

/-!
# The lines and columns of a drawing

The line of a call is told from the chain of calls that leads to it: one unit for each call
above it, which is blank under the last call at its level and a bar under every other one,
then the connector and the name (`Glyphs.line`, `Calls.draw_eq`).  So a drawing has a mark in
each column of a line up to the connector, and these marks can be read off the text of the
line (`Glyphs.Telling.columns_line`).

Drawings are connected (`Calls.connected_chains`).  A branch or a bar goes on in the same
column of the next line, and the column of a corner stays free below it until a connector
stands further out.  For the two sets of connectors this can be seen in the text of the lines
(`Glyphs.draw_connected`).
-/

namespace RobotJobs

namespace Calls

/-! ### Chains of calls -/

/-- A call, and whether it is the last one at its level. -/
structure Link where
  job : JobName
  isLast : Bool

/-- A call with the calls above it, from the outside in. -/
structure Chain where
  above : List Link
  call : Link

/-- A chain of calls under one more call. -/
def Chain.under (link : Link) (chain : Chain) : Chain :=
  ⟨link :: chain.above, chain.call⟩

/-- The level and the name of the call that a chain leads to. -/
def Chain.node (chain : Chain) : Nat × JobName :=
  (chain.above.length, chain.call.job)

/-- The chains that lead to the calls at all levels, each call before the calls below it. -/
def chains : Calls → List Chain
  | none => []
  | call job below others =>
    let link : Link := ⟨job, others = none⟩
    ⟨[], link⟩ :: (below.chains.map (Chain.under link) ++ others.chains)

theorem preorder_succ (calls : Calls) (level : Nat) :
  calls.preorder (level + 1) = (calls.preorder level).map (Prod.map (· + 1) id)
  := by
  induction calls generalizing level with
  | none => rfl
  | call job below others ihBelow ihOthers => simp [preorder, ihBelow, ihOthers]

/-- The chains lead to the calls in order. -/
theorem map_node_chains (calls : Calls) :
  calls.chains.map Chain.node = calls.preorder 0
  := by
  induction calls with
  | none => rfl
  | call job below others ihBelow ihOthers =>
    have hbelow : (below.chains.map (Chain.under ⟨job, others = none⟩)).map Chain.node
        = below.preorder 1 := by
      rw [preorder_succ, ← ihBelow, List.map_map, List.map_map]
      rfl
    rw [chains, preorder, List.map_cons, List.map_append, hbelow, ihOthers]
    rfl

end Calls

/-! ### Marks -/

/-- The kinds of units in a drawing. -/
inductive Mark where
  | branch
  | corner
  | bar
  | blank
  deriving DecidableEq

/-- Whether a name hangs on a unit. -/
def Mark.isConnector : Mark → Bool
  | .branch | .corner => true
  | .bar | .blank => false

/-- The unit for a mark. -/
def Glyphs.unit (g : Glyphs) : Mark → String
  | .branch => g.branch
  | .corner => g.corner
  | .bar => g.bar
  | .blank => g.blank

namespace Calls

/-- What a call passes down to the calls below it. -/
def Link.passed (link : Link) : Mark :=
  if link.isLast then .blank else .bar

/-- What the name of a call hangs on. -/
def Link.connector (link : Link) : Mark :=
  if link.isLast then .corner else .branch

theorem Link.isConnector_connector (link : Link) :
  link.connector.isConnector = true
  := by
  grind [connector, Mark.isConnector]

theorem Link.isConnector_passed (link : Link) :
  link.passed.isConnector = false
  := by
  grind [passed, Mark.isConnector]

/-- The marks on the line of a call, from the left. -/
def Chain.marks (chain : Chain) : List Mark :=
  chain.above.map Link.passed ++ [chain.call.connector]

end Calls

/-- The line of a call: the units that the calls above it pass down, its connector and its
name. -/
def Glyphs.line (g : Glyphs) (chain : Calls.Chain) : String :=
  String.join (chain.above.map fun link => g.unit link.passed)
    ++ g.unit chain.call.connector ++ chain.call.job.text

namespace Calls

theorem line_under (g : Glyphs) (link : Link) (chain : Chain) :
  g.line (chain.under link) = g.unit link.passed ++ g.line chain
  := by
  simp [Glyphs.line, Chain.under, String.append_assoc]

/-- A drawing has the lines of the calls, each after the indentation. -/
theorem draw_eq (g : Glyphs) (calls : Calls) (indent : String) :
  calls.draw g indent = calls.chains.map fun chain => indent ++ g.line chain
  := by
  have hunder (indent : String) (link : Link) (below : Calls) :
      (below.chains.map (Chain.under link)).map (fun chain => indent ++ g.line chain)
        = below.chains.map fun chain => indent ++ g.unit link.passed ++ g.line chain := by
    simp [line_under, String.append_assoc]
  fun_induction draw g indent calls with
  | case1 => rfl
  | case2 indent job below ih =>
    rw [chains, List.map_cons, List.map_append, hunder, ih]
    simp [chains, Glyphs.line, Link.passed, Link.connector, Glyphs.unit, String.append_assoc]
  | case3 indent job below job' below' others ihBelow ihOthers =>
    rw [chains, List.map_cons, List.map_append, hunder, ihBelow, ihOthers]
    simp [Glyphs.line, Link.passed, Link.connector, Glyphs.unit, String.append_assoc]

/-- A tree is drawn as its root on a corner, and below it the drawing of its calls after a
blank unit. -/
theorem draw_tree_eq (g : Glyphs) (tree : CallTree) :
  tree.draw g = (g.corner ++ tree.root.text) :: (tree.calls.draw g "").map (g.blank ++ ·)
  := by
  rw [CallTree.draw, draw_eq, draw_eq, List.map_map]
  simp [Function.comp_def]

end Calls

/-! ### Columns -/

/-- The mark in a column of a line. -/
def markAt? (rows : List (List Mark)) (line column : Nat) : Option Mark :=
  rows[line]?.bind (·[column]?)

/-- Between two lines a connector stands further out than a column. -/
def ConnectorBetween (rows : List (List Mark)) (line line' column : Nat) : Prop :=
  ∃ between column' connector, line < between ∧ between < line' ∧ column' < column
    ∧ markAt? rows between column' = some connector ∧ connector.isConnector = true

/-- The marks on some lines hang together: a branch or a bar goes on in the next line, and
after a corner its column is free until a connector stands further out. -/
structure Connected (rows : List (List Mark)) : Prop where
  goes_on : ∀ line column mark, markAt? rows line column = some mark →
    (mark = .branch ∨ mark = .bar) →
      ∃ next, markAt? rows (line + 1) column = some next ∧ next ≠ .blank
  ends : ∀ line line' column mark, markAt? rows line column = some .corner →
    line < line' → markAt? rows line' column = some mark → mark ≠ .blank →
      ConnectorBetween rows line line' column

/-- The lines of a call, the calls below it and the other calls after it. -/
def block (link : Calls.Link) (below others : List (List Mark)) : List (List Mark) :=
  [link.connector] :: (below.map (link.passed :: ·) ++ others)

variable {link : Calls.Link} {below others : List (List Mark)} {mark : Mark}
  {line column : Nat}

theorem lt_length_of_markAt? {rows : List (List Mark)} (h : markAt? rows line column = some mark) :
  line < rows.length
  := by
  obtain ⟨row, hrow, -⟩ := Option.bind_eq_some_iff.1 h
  exact (List.getElem?_eq_some_iff.1 hrow).1

/-- In its own line a call has the connector. -/
theorem markAt?_block_zero :
  markAt? (block link below others) 0 column = some mark ↔ column = 0 ∧ mark = link.connector
  := by
  cases column with
  | zero => simp [markAt?, block, eq_comm]
  | succ column => simp [markAt?, block]

/-- In the lines below it a call has the mark that it passes down, before the marks of these
lines. -/
theorem markAt?_block_below (h : line < below.length) :
  markAt? (block link below others) (line + 1) column = some mark
    ↔ (column = 0 ∧ mark = link.passed) ∨ ∃ c, column = c + 1 ∧ markAt? below line c = some mark
  := by
  have hline : line < (below.map (link.passed :: ·)).length := by simpa using h
  simp only [block, markAt?, List.getElem?_cons_succ, List.getElem?_append_left hline]
  cases column with
  | zero => simp [h, eq_comm]
  | succ column => simp [h]

/-- After the lines below a call come those of the other calls. -/
theorem markAt?_block_others :
  markAt? (block link below others) (below.length + line + 1) column = markAt? others line column
  := by
  rw [block, markAt?, List.getElem?_cons_succ, List.getElem?_append_right (by simp)]
  simp [markAt?]

/-- A mark stands in the line of the call, in one below it, or in one of the other calls. -/
theorem markAt?_block_cases (h : markAt? (block link below others) line column = some mark) :
  (line = 0 ∧ column = 0 ∧ mark = link.connector)
    ∨ (∃ l < below.length, line = l + 1 ∧ column = 0 ∧ mark = link.passed)
    ∨ (∃ l < below.length, line = l + 1 ∧ ∃ c, column = c + 1 ∧ markAt? below l c = some mark)
    ∨ ∃ l, line = below.length + l + 1 ∧ markAt? others l column = some mark
  := by
  cases line with
  | zero => exact .inl ⟨rfl, markAt?_block_zero.1 h⟩
  | succ line =>
    rcases Nat.lt_or_ge line below.length with hline | hline
    · rcases (markAt?_block_below hline).1 h with hpassed | hbelow
      · exact .inr (.inl ⟨line, hline, rfl, hpassed⟩)
      · exact .inr (.inr (.inl ⟨line, hline, rfl, hbelow⟩))
    · obtain ⟨l, rfl⟩ := Nat.exists_eq_add_of_le hline
      rw [markAt?_block_others] at h
      exact .inr (.inr (.inr ⟨l, rfl, h⟩))

/-- The lines of the calls after a call: none if it is the last one, and otherwise the first
of them has a connector and nothing else. -/
structure GoesBefore (link : Calls.Link) (others : List (List Mark)) : Prop where
  last : link.isLast = true → others = []
  followed : link.isLast = false → ∃ connector rows, others = [connector] :: rows
    ∧ connector.isConnector = true

/-- What a call passes down goes on to the first of the other calls. -/
theorem GoesBefore.goes_on (h : GoesBefore link others) (hlast : link.isLast = false)
    (hline : line ≤ below.length) :
  ∃ next, markAt? (block link below others) (line + 1) 0 = some next ∧ next ≠ .blank
  := by
  obtain ⟨connector, rows, rfl, hconnector⟩ := h.followed hlast
  rcases Nat.lt_or_eq_of_le hline with hline | rfl
  · use link.passed
    constructor
    · exact (markAt?_block_below hline).2 (.inl ⟨rfl, rfl⟩)
    · simp [Calls.Link.passed, hlast]
  · use connector
    constructor
    · exact @markAt?_block_others link below _ 0 0
    · rintro rfl
      cases hconnector

/-- If anything stands in the lines of the other calls, the first of them has a connector in
the first column, and what stands further in stands in a later line. -/
theorem GoesBefore.exists_connector (h : GoesBefore link others)
    (hmark : markAt? others line column = some mark) :
  ∃ connector, markAt? others 0 0 = some connector ∧ connector.isConnector = true
    ∧ (column ≠ 0 → 0 < line)
  := by
  cases hlast : link.isLast with
  | true =>
    rw [h.last hlast] at hmark
    cases hmark
  | false =>
    obtain ⟨connector, rows, rfl, hconnector⟩ := h.followed hlast
    refine ⟨connector, rfl, hconnector, ?_⟩
    intro hcolumn
    cases line with
    | zero => simp [markAt?, hcolumn] at hmark
    | succ line => exact Nat.succ_pos line

theorem ConnectorBetween.block_below {line' : Nat} (h : ConnectorBetween below line line' column)
    (hline' : line' < below.length) :
  ConnectorBetween (block link below others) (line + 1) (line' + 1) (column + 1)
  := by
  obtain ⟨between, column', connector, hgt, hlt, hcolumn, hmark, hconnector⟩ := h
  refine ⟨between + 1, column' + 1, connector, Nat.succ_lt_succ hgt, Nat.succ_lt_succ hlt,
    Nat.succ_lt_succ hcolumn, ?_, hconnector⟩
  exact (markAt?_block_below (Nat.lt_trans hlt hline')).2 (.inr ⟨column', rfl, hmark⟩)

theorem ConnectorBetween.block_others {line' : Nat}
    (h : ConnectorBetween others line line' column) :
  ConnectorBetween (block link below others) (below.length + line + 1)
    (below.length + line' + 1) column
  := by
  obtain ⟨between, column', connector, hgt, hlt, hcolumn, hmark, hconnector⟩ := h
  refine ⟨below.length + between + 1, column', connector, by omega, by omega, hcolumn, ?_,
    hconnector⟩
  exact markAt?_block_others.trans hmark

/-- Between a line below a call and what stands further in in the lines of the other calls,
the first of these has its connector. -/
theorem GoesBefore.connectorBetween {line' : Nat} (h : GoesBefore link others)
    (hline : line < below.length) (hmark : markAt? others line' (column + 1) = some mark) :
  ConnectorBetween (block link below others) (line + 1) (below.length + line' + 1) (column + 1)
  := by
  obtain ⟨connector, hfirst, hconnector, hlater⟩ := h.exists_connector hmark
  have hpos : 0 < line' := hlater (Nat.succ_ne_zero column)
  refine ⟨below.length + 0 + 1, 0, connector, by omega, by omega, Nat.succ_pos column, ?_,
    hconnector⟩
  exact markAt?_block_others.trans hfirst

/-- Only a call that is not the last one has a branch or passes down a bar. -/
theorem Calls.Link.isLast_eq_false (hmark : mark = .branch ∨ mark = .bar)
    (h : mark = link.connector ∨ mark = link.passed) :
  link.isLast = false
  := by
  cases hlast : link.isLast with
  | false => rfl
  | true => grind [connector, passed]

/-- Only the last call has a corner, and it passes down a blank. -/
theorem Calls.Link.isLast_of_corner (h : .corner = link.connector) :
  link.isLast = true ∧ link.passed = .blank
  := by
  cases hlast : link.isLast with
  | false => grind [connector]
  | true => grind [passed]

/-- The lines of calls hang together if those of the calls below the first one do, and those
of the others. -/
theorem Connected.block (h : Connected below) (h' : Connected others)
    (hothers : GoesBefore link others) :
  Connected (block link below others)
  := by
  constructor
  case goes_on =>
    intro line column mark hmark hdown
    rcases markAt?_block_cases hmark with ⟨rfl, rfl, hconnector⟩ | ⟨l, hl, rfl, rfl, hpassed⟩
      | ⟨l, hl, rfl, c, rfl, hbelow⟩ | ⟨l, rfl, hrest⟩
    · exact hothers.goes_on (Calls.Link.isLast_eq_false hdown (.inl hconnector)) (Nat.zero_le _)
    · exact hothers.goes_on (Calls.Link.isLast_eq_false hdown (.inr hpassed)) hl
    · obtain ⟨next, hnext, hstroke⟩ := h.goes_on l c mark hbelow hdown
      use next
      constructor
      · exact (markAt?_block_below (lt_length_of_markAt? hnext)).2 (.inr ⟨c, rfl, hnext⟩)
      · exact hstroke
    · obtain ⟨next, hnext, hstroke⟩ := h'.goes_on l column mark hrest hdown
      use next
      constructor
      · exact markAt?_block_others.trans hnext
      · exact hstroke
  case ends =>
    intro line line' column mark hcorner hlt hmark hstroke
    rcases markAt?_block_cases hcorner with ⟨rfl, rfl, hconnector⟩ | ⟨l, hl, rfl, rfl, hpassed⟩
      | ⟨l, hl, rfl, c, rfl, hbelow⟩ | ⟨l, rfl, hrest⟩
    · -- Below the corner of the last call stand blanks, and no other calls.
      obtain ⟨hlast, hblank⟩ := Calls.Link.isLast_of_corner hconnector
      rcases markAt?_block_cases hmark with ⟨rfl, -⟩ | ⟨l', hl', rfl, -, hpassed⟩
        | ⟨l', hl', rfl, c, hc, -⟩ | ⟨l', rfl, hrest'⟩
      · exact absurd hlt (Nat.lt_irrefl 0)
      · exact absurd (hpassed.trans hblank) hstroke
      · cases hc
      · rw [hothers.last hlast] at hrest'
        cases hrest'
    · have := link.isConnector_passed
      rw [← hpassed] at this
      cases this
    · rcases markAt?_block_cases hmark with ⟨rfl, -⟩ | ⟨l', hl', rfl, hc, -⟩
        | ⟨l', hl', rfl, c', hc, hbelow'⟩ | ⟨l', rfl, hrest'⟩
      · exact absurd hlt (Nat.not_lt_zero _)
      · cases hc
      · cases hc
        apply ConnectorBetween.block_below _ hl'
        exact h.ends l l' c mark hbelow (Nat.lt_of_succ_lt_succ hlt) hbelow' hstroke
      · exact hothers.connectorBetween hl hrest'
    · rcases markAt?_block_cases hmark with ⟨rfl, -⟩ | ⟨l', hl', rfl, -⟩
        | ⟨l', hl', rfl, -⟩ | ⟨l', rfl, hrest'⟩
      · exact absurd hlt (Nat.not_lt_zero _)
      · omega
      · omega
      · apply ConnectorBetween.block_others
        exact h'.ends l l' column mark hrest (by omega) hrest' hstroke

namespace Calls

theorem map_marks_under (link : Link) (chains : List Chain) :
  (chains.map (Chain.under link)).map Chain.marks
    = (chains.map Chain.marks).map (link.passed :: ·)
  := by
  rw [List.map_map, List.map_map]
  rfl

theorem map_marks_chains (job : JobName) (below others : Calls) :
  (call job below others).chains.map Chain.marks
    = block ⟨job, others = none⟩ (below.chains.map Chain.marks) (others.chains.map Chain.marks)
  := by
  rw [chains, List.map_cons, List.map_append, map_marks_under]
  rfl

theorem goesBefore_chains (job : JobName) (others : Calls) :
  GoesBefore ⟨job, others = none⟩ (others.chains.map Chain.marks)
  := by
  constructor
  case last =>
    intro hlast
    obtain rfl : others = none := by simpa using hlast
    rfl
  case followed =>
    intro hlast
    cases others with
    | none => simp at hlast
    | call job' below' others' =>
      rw [map_marks_chains]
      exact ⟨_, _, rfl, Link.isConnector_connector _⟩

/-- The marks on the lines of calls hang together. -/
theorem connected_chains (calls : Calls) :
  Connected (calls.chains.map Chain.marks)
  := by
  induction calls with
  | none => constructor <;> intros <;> contradiction
  | call job below others ihBelow ihOthers =>
    rw [map_marks_chains]
    exact ihBelow.block ihOthers (goesBefore_chains job others)

end Calls

/-! ### Marks on a line of text -/

namespace Glyphs

/-- The mark that a unit stands for. -/
def mark? (g : Glyphs) (unit : List Char) : Option Mark :=
  [.branch, .corner, .bar, .blank].find? fun mark => (g.unit mark).toList = unit

/-- The marks on a line, read from the left in units of four characters up to the first
connector. -/
def columns (g : Glyphs) : List Char → List Mark
  | a :: b :: c :: d :: line =>
    match g.mark? [a, b, c, d] with
    | none => []
    | some mark =>
      if mark.isConnector then [mark] else mark :: g.columns line
  | _ => []

/-- The units of a set have four characters each and can be told from each other. -/
structure Telling (g : Glyphs) : Prop where
  length_unit : ∀ mark, (g.unit mark).toList.length = 4
  mark?_unit : ∀ mark, g.mark? (g.unit mark).toList = some mark

theorem telling_choose (unicode : Bool) :
  (Glyphs.choose unicode).Telling
  := by
  constructor
  case length_unit =>
    intro mark
    cases unicode <;> cases mark <;> rfl
  case mark?_unit =>
    intro mark
    cases unicode <;> cases mark <;> decide

variable {g : Glyphs} {mark : Mark}

/-- A unit is read as its mark, and a connector ends the marks. -/
theorem Telling.columns_unit (h : g.Telling) (mark : Mark) (line : List Char) :
  g.columns ((g.unit mark).toList ++ line)
    = if mark.isConnector then [mark] else mark :: g.columns line
  := by
  obtain ⟨a, b, c, d, hunit⟩ := exists_eq_of_length (h.length_unit mark)
  have hmark := h.mark?_unit mark
  rw [hunit] at hmark ⊢
  simp only [List.cons_append, List.nil_append, columns, hmark]

/-- The marks that are read on the line of a call are those of its chain, whatever the names
look like. -/
theorem Telling.columns_line (h : g.Telling) (chain : Calls.Chain) :
  g.columns (g.line chain).toList = chain.marks
  := by
  obtain ⟨above, call⟩ := chain
  induction above with
  | nil =>
    have hline : (g.line ⟨[], call⟩).toList
        = (g.unit call.connector).toList ++ call.job.text.toList := by
      simp [line]
    rw [hline, h.columns_unit]
    apply if_pos call.isConnector_connector
  | cons link above ih =>
    have hline : (g.line ⟨link :: above, call⟩).toList
        = (g.unit link.passed).toList ++ (g.line ⟨above, call⟩).toList := by
      rw [← String.toList_append, ← Calls.line_under]
      rfl
    rw [hline, h.columns_unit, ih, link.isConnector_passed]
    rfl

/-- A name that looks like a branch is no mark. -/
example : Glyphs.unicode.columns "│   └── ├── A".toList = [.bar, .corner] := by decide

/-- In both sets of connectors the drawing of calls has one line for each call, in preorder.
The line has one unit for each call above, blank if that is the last one at its level and a
bar otherwise, then a corner if the call is the last one and a branch otherwise, then the
name; the marks that can be read on it are these units.  The marks of all lines hang
together.  A tree is drawn as the root on a corner, and below it the drawing of its calls
after a blank unit. -/
theorem draw_connected (unicode : Bool) (calls : Calls) :
  let g := Glyphs.choose unicode
  let lines := calls.draw g ""
  lines.length = calls.nodeCount
    ∧ calls.chains.map Calls.Chain.node = calls.preorder 0
    ∧ lines = calls.chains.map g.line
    ∧ lines.map (fun line => g.columns line.toList) = calls.chains.map Calls.Chain.marks
    ∧ Connected (lines.map fun line => g.columns line.toList)
    ∧ ∀ root, CallTree.draw g ⟨root, calls⟩
      = (g.corner ++ root.text) :: lines.map (g.blank ++ ·)
  := by
  intro g lines
  have hlines : lines = calls.chains.map g.line := by
    simp only [lines, Calls.draw_eq, String.empty_append]
  have hcolumns : lines.map (fun line => g.columns line.toList)
      = calls.chains.map Calls.Chain.marks := by
    rw [hlines, List.map_map]
    apply List.map_congr_left
    intro chain _
    apply (telling_choose unicode).columns_line
  refine ⟨calls.length_draw g "", calls.map_node_chains, hlines, hcolumns, ?_, ?_⟩
  · rw [hcolumns]
    apply Calls.connected_chains
  · intro root
    apply Calls.draw_tree_eq

end Glyphs

end RobotJobs
