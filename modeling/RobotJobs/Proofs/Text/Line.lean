import RobotJobs.Proofs.Text.SingleByte
import RobotJobs.Text.Line

/-!
# Line feeds among bytes

The byte of a line feed is read as a line feed wherever it stands, since no unfinished
character is continued by a byte below 128 (`Reading.HighOnly.pieces_append`).  So what
stands before a line feed is read as if the bytes ended there, and what stands after it as if
they began there (`decode_append_lineFeed`).  Nor does it matter whether carriage returns are
put before the line feeds as bytes or as characters (`decode_putBefore`).
-/

namespace RobotJobs.Text

/-! ### Lists with separators -/

section

variable {α : Type} [DecidableEq α] {sep mark : α} {xs : List α}

/-- To prove something of all lists, prove it of those without a separator, and of a list that
begins with one of these and a separator if it holds of the rest. -/
@[elab_as_elim]
theorem segments_induction (sep : α) {motive : List α → Prop}
    (last : ∀ xs, sep ∉ xs → motive xs)
    (segment : ∀ xs ys, sep ∉ xs → motive ys → motive (xs ++ sep :: ys)) (ys : List α) :
  motive ys
  := by
  -- The induction is on what follows a stretch without separators.
  suffices h : ∀ xs, sep ∉ xs → motive (xs ++ ys) from h [] List.not_mem_nil
  induction ys with
  | nil =>
    intro xs hxs
    rw [List.append_nil]
    exact last xs hxs
  | cons y ys ih =>
    intro xs hxs
    by_cases hy : y = sep
    · subst hy
      exact segment xs ys hxs (ih [] List.not_mem_nil)
    · rw [List.append_cons]
      apply ih
      simp [hxs, Ne.symm hy]

/-- The list with a mark put before every separator. -/
def putBefore (mark sep : α) (xs : List α) : List α :=
  xs.flatMap fun x => if x = sep then [mark, sep] else [x]

theorem putBefore_of_not_mem (h : sep ∉ xs) :
  putBefore mark sep xs = xs
  := by
  induction xs with
  | nil => rfl
  | cons x xs ih =>
    obtain ⟨hx, hxs⟩ := not_or.1 (fun hmem => h (List.mem_cons.2 hmem))
    rw [putBefore, List.flatMap_cons, ← putBefore, ih hxs, if_neg (Ne.symm hx)]
    rfl

theorem putBefore_append_cons (h : sep ∉ xs) (ys : List α) :
  putBefore mark sep (xs ++ sep :: ys) = xs ++ mark :: sep :: putBefore mark sep ys
  := by
  rw [putBefore, List.flatMap_append, ← putBefore, putBefore_of_not_mem h, List.flatMap_cons,
    if_pos rfl]
  rfl

end

/-! ### Reading -/

variable {r : Reading} {b : UInt8} {bs bs' bytes : List UInt8}

/-- A reading that no byte below 128 continues. -/
def Reading.HighOnly : Reading → Prop
  | .between => True
  | .within _ least _ _ => 0x80 ≤ least.toNat

theorem Reading.highOnly_between :
  Reading.between.HighOnly
  := trivial

theorem Reading.highOnly_start (b : UInt8) :
  (Reading.start b).2.HighOnly
  := by
  unfold Reading.start
  repeat' split
  all_goals simp [Reading.HighOnly]

theorem Reading.HighOnly.feed (h : r.HighOnly) (b : UInt8) :
  (r.feed b).2.HighOnly
  := by
  unfold Reading.feed
  split
  · exact highOnly_start b
  · split
    · split
      · trivial
      · simp [Reading.HighOnly]
    · exact highOnly_start b

/-- A byte below 128 ends what was begun and is a character by itself. -/
theorem Reading.HighOnly.feed_of_lt (h : r.HighOnly) (hb : b.toNat < 0x80) :
  r.feed b = (r.finish ++ [some (Char.ofNat b.toNat)], .between)
  := by
  have hstart : Reading.start b = ([some (Char.ofNat b.toNat)], .between) := by
    rw [start_of_toNat rfl, if_pos hb]
  cases r with
  | between => exact hstart
  | within bits least greatest more =>
    have hleast : 0x80 ≤ least.toNat := h
    have hrange : (least ≤ b && b ≤ greatest) = false := by
      rw [Bool.and_eq_false_iff, decide_eq_false_iff_not, UInt8.le_iff_toNat_le]
      left
      omega
    simp only [Reading.feed, hrange, hstart]
    rfl

/-- What stands before a byte below 128 is read as if the bytes ended there, and what stands
after it as if they began there. -/
theorem Reading.HighOnly.pieces_append (h : r.HighOnly) (hb : b.toNat < 0x80)
    (bs bs' : List UInt8) :
  r.pieces (bs ++ b :: bs')
    = r.pieces bs ++ some (Char.ofNat b.toNat) :: Reading.between.pieces bs'
  := by
  induction bs generalizing r with
  | nil =>
    simp only [List.nil_append, Reading.pieces, h.feed_of_lt hb, List.append_assoc]
    rfl
  | cons b' bs ih =>
    simp only [List.cons_append, Reading.pieces, ih (h.feed b'), List.append_assoc]

theorem decode_append_cons (hb : b.toNat < 0x80) (bs bs' : List UInt8) :
  decode (bs ++ b :: bs') = decode bs ++ Char.ofNat b.toNat :: decode bs'
  := by
  rw [decode, Reading.highOnly_between.pieces_append hb, List.map_append, List.map_cons]
  rfl

/-- The byte of a line feed divides what is read. -/
theorem decode_append_lineFeed (bs bs' : List UInt8) :
  decode (bs ++ 0x0A :: bs') = decode bs ++ '\n' :: decode bs'
  := decode_append_cons (by decide) bs bs'

theorem lineFeed_not_mem_decode (h : 0x0A ∉ bytes) :
  '\n' ∉ decode bytes
  := by
  intro hmem
  exact h (mem_of_mem_decode (by decide) hmem)

/-- Carriage returns put before the line feeds as bytes are read as carriage returns put
before the line feeds. -/
theorem decode_putBefore (bytes : List UInt8) :
  decode (putBefore 0x0D 0x0A bytes) = putBefore '\r' '\n' (decode bytes)
  := by
  induction bytes using segments_induction (0x0A : UInt8) with
  | last bs hbs =>
    rw [putBefore_of_not_mem hbs, putBefore_of_not_mem (lineFeed_not_mem_decode hbs)]
  | segment bs bs' hbs ih =>
    have hreturn (rest : List UInt8) :
        decode (bs ++ 0x0D :: 0x0A :: rest) = decode bs ++ '\r' :: '\n' :: decode rest :=
      decode_append_cons (by decide) bs (0x0A :: rest)
    rw [putBefore_append_cons hbs, hreturn, ih, decode_append_lineFeed,
      putBefore_append_cons (lineFeed_not_mem_decode hbs)]

end RobotJobs.Text
