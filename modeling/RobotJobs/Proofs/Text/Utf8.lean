import RobotJobs.Text.Utf8

/-!
# Reading back what was written

The bytes of a text are read as that text, character by character (`decode_encode`).  So
some bytes are those of a text exactly if they survive being read and written again
(`isText_iff`).
-/

namespace RobotJobs.Text

variable {bits n x more : Nat} {b least greatest : UInt8} {bs bytes : List UInt8} {c : Char}

/-! ### Characters of more than one byte -/

/-- The byte that completes a character. -/
theorem pieces_last (hb : b.toNat = x + 0x80) (hleast : least.toNat ≤ x + 0x80)
    (hgreatest : x + 0x80 ≤ greatest.toNat) :
  (Reading.within bits least greatest 0).pieces (b :: bs)
    = some (Char.ofNat (bits * 64 + x)) :: Reading.between.pieces bs
  := by
  simp [Reading.pieces, Reading.feed, UInt8.le_iff_toNat_le, hb, hleast, hgreatest]

/-- A byte that leaves more to come. -/
theorem pieces_more (hb : b.toNat = x + 0x80) (hleast : least.toNat ≤ x + 0x80)
    (hgreatest : x + 0x80 ≤ greatest.toNat) :
  (Reading.within bits least greatest (more + 1)).pieces (b :: bs)
    = (Reading.within (bits * 64 + x) 0x80 0xBF more).pieces bs
  := by
  simp [Reading.pieces, Reading.feed, UInt8.le_iff_toNat_le, hb, hleast, hgreatest]

/-- What a byte begins, by its number. -/
theorem start_of_toNat (hb : b.toNat = n) :
  Reading.start b
    = if n < 0x80 then ([some (Char.ofNat n)], .between)
      else if n < 0xC2 then ([none], .between)
      else if n < 0xE0 then ([], .within (n - 0xC0) 0x80 0xBF 0)
      else if n = 0xE0 then ([], .within 0 0xA0 0xBF 1)
      else if n = 0xED then ([], .within 0xD 0x80 0x9F 1)
      else if n < 0xF0 then ([], .within (n - 0xE0) 0x80 0xBF 1)
      else if n = 0xF0 then ([], .within 0 0x90 0xBF 2)
      else if n < 0xF4 then ([], .within (n - 0xF0) 0x80 0xBF 2)
      else if n = 0xF4 then ([], .within 4 0x80 0x8F 2)
      else ([none], .between)
  := by
  simp only [Reading.start, UInt8.lt_iff_toNat_lt, ← UInt8.toNat_inj, hb]
  rfl

theorem pieces_between :
  Reading.between.pieces (b :: bs) = (Reading.start b).1 ++ (Reading.start b).2.pieces bs
  := rfl

/-- The first byte of a character of two bytes. -/
theorem pieces_two (hb : b.toNat = n + 0xC0) (hleast : 2 ≤ n) (hgreatest : n < 0x20) :
  Reading.between.pieces (b :: bs) = (Reading.within n 0x80 0xBF 0).pieces bs
  := by
  rw [pieces_between, start_of_toNat hb, if_neg (by omega), if_neg (by omega), if_pos (by omega),
    Nat.add_sub_cancel]
  rfl

/-- The first two bytes of a character of three bytes.  After the first byte not every byte
may follow: not one that makes the character too small or a surrogate. -/
theorem pieces_three {b' : UInt8} (hb : b.toNat = n + 0xE0) (hb' : b'.toNat = x + 0x80)
    (hn : n < 0x10) (hx : x < 0x40) (hleast : 0x20 ≤ n * 0x40 + x)
    (hsurrogate : n = 0xD → x < 0x20) :
  Reading.between.pieces (b :: b' :: bs)
    = (Reading.within (n * 64 + x) 0x80 0xBF 0).pieces bs
  := by
  rw [pieces_between, start_of_toNat hb, if_neg (by omega), if_neg (by omega), if_neg (by omega)]
  by_cases hzero : n = 0
  · subst hzero
    exact pieces_more hb' (by simp; omega) (by simp; omega)
  · rw [if_neg (by omega)]
    by_cases hlimit : n = 0xD
    · subst hlimit
      exact pieces_more hb' (by simp) (by simp; omega)
    · rw [if_neg (by omega), if_pos (by omega), Nat.add_sub_cancel]
      exact pieces_more hb' (by simp) (by simp; omega)

/-- The first two bytes of a character of four bytes. -/
theorem pieces_four {b' : UInt8} (hb : b.toNat = n + 0xF0) (hb' : b'.toNat = x + 0x80)
    (hx : x < 0x40) (hleast : 0x10 ≤ n * 0x40 + x) (hgreatest : n * 0x40 + x < 0x110) :
  Reading.between.pieces (b :: b' :: bs)
    = (Reading.within (n * 64 + x) 0x80 0xBF 1).pieces bs
  := by
  rw [pieces_between, start_of_toNat hb, if_neg (by omega), if_neg (by omega), if_neg (by omega),
    if_neg (by omega), if_neg (by omega), if_neg (by omega)]
  by_cases hzero : n = 0
  · subst hzero
    exact pieces_more hb' (by simp; omega) (by simp; omega)
  · rw [if_neg (by omega)]
    by_cases hlimit : n = 4
    · subst hlimit
      exact pieces_more hb' (by simp) (by simp; omega)
    · rw [if_pos (by omega), Nat.add_sub_cancel]
      exact pieces_more hb' (by simp) (by simp; omega)

/-! ### Reading a text -/

theorem toNat_ofNat_of_lt (h : n < 256) :
  (UInt8.ofNat n).toNat = n
  := by
  rw [UInt8.toNat_ofNat']
  exact Nat.mod_eq_of_lt h

/-- The bytes of a character are read as that character. -/
theorem pieces_encodeChar (c : Char) (bs : List UInt8) :
  Reading.between.pieces (String.utf8EncodeChar c ++ bs) = some c :: Reading.between.pieces bs
  := by
  have hc : Char.ofNat c.val.toNat = c := Char.ofNat_toNat c
  have hscalar : c.val.toNat < 0xD800 ∨ 0xDFFF < c.val.toNat ∧ c.val.toNat < 0x110000 := c.valid
  fun_cases String.utf8EncodeChar c with
  | case1 v h =>
    have hb := toNat_ofNat_of_lt (n := v) (by omega)
    rw [List.singleton_append, pieces_between, start_of_toNat hb, if_pos (by omega), hc]
    rfl
  | case2 v _ h =>
    have hb := toNat_ofNat_of_lt (n := v / 64 % 0x20 + 0xC0) (by omega)
    have hb' := toNat_ofNat_of_lt (n := v % 0x40 + 0x80) (by omega)
    rw [List.cons_append, List.singleton_append, pieces_two hb (by omega) (by omega),
      pieces_last hb' (by simp) (by simp; omega)]
    rw [show v / 64 % 0x20 * 64 + v % 0x40 = c.val.toNat by omega, hc]
  | case3 v _ _ h =>
    have hb := toNat_ofNat_of_lt (n := v / 4096 % 0x10 + 0xE0) (by omega)
    have hb' := toNat_ofNat_of_lt (n := v / 64 % 0x40 + 0x80) (by omega)
    have hb'' := toNat_ofNat_of_lt (n := v % 0x40 + 0x80) (by omega)
    simp only [List.cons_append, List.nil_append]
    rw [pieces_three hb hb' (by omega) (by omega) (by omega) (by omega),
      pieces_last hb'' (by simp) (by simp; omega)]
    rw [show (v / 4096 % 0x10 * 64 + v / 64 % 0x40) * 64 + v % 0x40 = c.val.toNat by omega, hc]
  | case4 v _ _ h =>
    have hb := toNat_ofNat_of_lt (n := v / 262144 % 0x08 + 0xF0) (by omega)
    have hb' := toNat_ofNat_of_lt (n := v / 4096 % 0x40 + 0x80) (by omega)
    have hb'' := toNat_ofNat_of_lt (n := v / 64 % 0x40 + 0x80) (by omega)
    have hb''' := toNat_ofNat_of_lt (n := v % 0x40 + 0x80) (by omega)
    simp only [List.cons_append, List.nil_append]
    rw [pieces_four hb hb' (by omega) (by omega) (by omega),
      pieces_more hb'' (by simp) (by simp; omega), pieces_last hb''' (by simp) (by simp; omega)]
    rw [show ((v / 262144 % 0x08 * 64 + v / 4096 % 0x40) * 64 + v / 64 % 0x40) * 64 + v % 0x40
      = c.val.toNat by omega, hc]

theorem pieces_encode (cs : List Char) :
  Reading.between.pieces (encode cs) = cs.map some
  := by
  induction cs with
  | nil => rfl
  | cons c cs ih =>
    rw [encode, List.flatMap_cons, pieces_encodeChar, List.map_cons]
    exact congrArg _ ih

/-- The bytes of a text are read as that text. -/
theorem decode_encode (cs : List Char) :
  decode (encode cs) = cs
  := by
  rw [decode, pieces_encode, List.map_map]
  exact List.map_id cs

theorem ofBytes_toBytes (s : String) :
  ofBytes (toBytes s) = s
  := by
  rw [ofBytes, toBytes, decode_encode, String.ofList_toList]

/-- Bytes are those of a text. -/
def IsText (bytes : List UInt8) : Prop :=
  ∃ s, toBytes s = bytes

/-- Bytes are those of a text exactly if they survive being read and written again. -/
theorem isText_iff :
  IsText bytes ↔ toBytes (ofBytes bytes) = bytes
  := by
  constructor
  · rintro ⟨s, rfl⟩
    rw [ofBytes_toBytes]
  · intro h
    exact ⟨_, h⟩

end RobotJobs.Text
