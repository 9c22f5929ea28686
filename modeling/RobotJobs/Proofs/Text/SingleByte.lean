import RobotJobs.Proofs.Text.Utf8

/-!
# Characters of one byte

A character below 128 is written as the byte of its number, and every byte of any other
character is 128 or more.  Reading respects that: a reading that is within a character can
only end with a character of more bytes or with none (`Reading.Long`).  So a character of
one byte is read from nothing but its byte (`mem_of_mem_decode`), and bytes that are read as
a text of such characters are the bytes of that text (`eq_of_toBytes_ofBytes`).
-/

namespace RobotJobs.Text

/-- A character that is written as one byte.  The zero character is left out, because
`Char.ofNat` gives it for all the numbers that no character has. -/
def IsSingle (c : Char) : Prop :=
  0 < c.toNat ∧ c.toNat < 0x80

instance (c : Char) : Decidable (IsSingle c) :=
  inferInstanceAs (Decidable (_ ∧ _))

variable {r : Reading} {b least greatest : UInt8} {bits more n : Nat} {c : Char} {cs : List Char}
  {bs bytes bytes' : List UInt8}

/-! ### Writing -/

theorem encodeChar_of_lt (h : c.toNat < 0x80) :
  String.utf8EncodeChar c = [UInt8.ofNat c.toNat]
  := by
  have hlow : c.val.toNat ≤ 127 := Nat.le_of_lt_succ h
  simp only [String.utf8EncodeChar, if_pos hlow]
  rfl

/-- A byte of 128 or more before such bytes. -/
theorem le_of_mem_cons (h : 0x80 ≤ n) (h' : n < 256) (hbs : ∀ b ∈ bs, 0x80 ≤ b.toNat) :
  ∀ b ∈ UInt8.ofNat n :: bs, 0x80 ≤ b.toNat
  := by
  intro b hb
  rcases List.mem_cons.1 hb with rfl | hb
  · rw [toNat_ofNat_of_lt h']
    exact h
  · exact hbs b hb

/-- Every byte of a character of more bytes is 128 or more. -/
theorem le_of_mem_encodeChar (h : 0x80 ≤ c.toNat) :
  ∀ b ∈ String.utf8EncodeChar c, 0x80 ≤ b.toNat
  := by
  have hscalar : c.val.toNat < 0xD800 ∨ 0xDFFF < c.val.toNat ∧ c.val.toNat < 0x110000 := c.valid
  have hlarge : 0x80 ≤ c.val.toNat := h
  fun_cases String.utf8EncodeChar c with
  | case1 v h => omega
  | case2 v _ h =>
    apply le_of_mem_cons (by omega) (by omega)
    apply le_of_mem_cons (by omega) (by omega)
    nofun
  | case3 v _ _ h =>
    apply le_of_mem_cons (by omega) (by omega)
    apply le_of_mem_cons (by omega) (by omega)
    apply le_of_mem_cons (by omega) (by omega)
    nofun
  | case4 v _ _ h =>
    apply le_of_mem_cons (by omega) (by omega)
    apply le_of_mem_cons (by omega) (by omega)
    apply le_of_mem_cons (by omega) (by omega)
    apply le_of_mem_cons (by omega) (by omega)
    nofun

/-- The byte of a character is among the bytes of a text exactly if the character is in the
text. -/
theorem mem_encode_iff (h : IsSingle c) :
  UInt8.ofNat c.toNat ∈ encode cs ↔ c ∈ cs
  := by
  have hlt := h.2
  rw [encode, List.mem_flatMap]
  constructor
  · rintro ⟨d, hd, hmem⟩
    have hsingle : d.toNat < 0x80 := by
      apply Nat.lt_of_not_le
      intro hle
      have hbyte := le_of_mem_encodeChar hle _ hmem
      rw [toNat_ofNat_of_lt (by omega)] at hbyte
      omega
    rw [encodeChar_of_lt hsingle, List.mem_singleton] at hmem
    have hnumber := congrArg UInt8.toNat hmem
    rw [toNat_ofNat_of_lt (by omega), toNat_ofNat_of_lt (by omega)] at hnumber
    rw [Char.toNat_inj.1 hnumber]
    exact hd
  · intro hc
    refine ⟨c, hc, ?_⟩
    rw [encodeChar_of_lt hlt]
    exact List.mem_singleton.2 rfl

/-! ### One step of reading -/

/-- A reading that is between two characters, or within one of more bytes. -/
def Reading.Long : Reading → Prop
  | .between => True
  | .within bits _ _ 0 => 2 ≤ bits
  | .within bits least _ (_ + 1) => 0x80 ≤ least.toNat ∧ 0x82 ≤ bits * 64 + least.toNat

theorem toNat_charOfNat (h : n.isValidChar) :
  (Char.ofNat n).toNat = n
  := by
  rw [Char.ofNat, dif_pos h]
  rfl

theorem Reading.long_between :
  Reading.between.Long
  := trivial

/-- The number of a longer character gives no character of one byte, even if it is the
number of none. -/
theorem not_isSingle_ofNat (h : 0x80 ≤ n) :
  ¬ IsSingle (Char.ofNat n)
  := by
  rintro ⟨hzero, hlt⟩
  by_cases hvalid : n.isValidChar
  · rw [toNat_charOfNat hvalid] at hlt
    omega
  · have hnumber : (Char.ofNat n).toNat = 0 := by
      rw [Char.ofNat, dif_neg hvalid]
      rfl
    omega

/-- A byte is a character, or it is unreadable by itself, or it begins a longer character. -/
theorem start_cases (b : UInt8) :
  (b.toNat < 0x80 ∧ Reading.start b = ([some (Char.ofNat b.toNat)], .between))
    ∨ Reading.start b = ([none], .between)
    ∨ ∃ bits least greatest more, Reading.start b = ([], .within bits least greatest more)
        ∧ (Reading.within bits least greatest more).Long
  := by
  rw [start_of_toNat rfl]
  by_cases h₁ : b.toNat < 0x80
  · rw [if_pos h₁]
    exact .inl ⟨h₁, rfl⟩
  rw [if_neg h₁]
  apply Or.inr
  by_cases h₂ : b.toNat < 0xC2
  · rw [if_pos h₂]
    exact .inl rfl
  rw [if_neg h₂]
  by_cases h₃ : b.toNat < 0xE0
  · rw [if_pos h₃]
    exact .inr ⟨_, _, _, _, rfl, show 2 ≤ b.toNat - 0xC0 by omega⟩
  rw [if_neg h₃]
  by_cases h₄ : b.toNat = 0xE0
  · rw [if_pos h₄]
    exact .inr ⟨_, _, _, _, rfl, by decide, by decide⟩
  rw [if_neg h₄]
  by_cases h₅ : b.toNat = 0xED
  · rw [if_pos h₅]
    exact .inr ⟨_, _, _, _, rfl, by decide, by decide⟩
  rw [if_neg h₅]
  by_cases h₆ : b.toNat < 0xF0
  · rw [if_pos h₆]
    exact .inr ⟨_, _, _, _, rfl, by decide, show 0x82 ≤ (b.toNat - 0xE0) * 64 + 0x80 by omega⟩
  rw [if_neg h₆]
  by_cases h₇ : b.toNat = 0xF0
  · rw [if_pos h₇]
    exact .inr ⟨_, _, _, _, rfl, by decide, by decide⟩
  rw [if_neg h₇]
  by_cases h₈ : b.toNat < 0xF4
  · rw [if_pos h₈]
    exact .inr ⟨_, _, _, _, rfl, by decide, show 0x82 ≤ (b.toNat - 0xF0) * 64 + 0x80 by omega⟩
  rw [if_neg h₈]
  by_cases h₉ : b.toNat = 0xF4
  · rw [if_pos h₉]
    exact .inr ⟨_, _, _, _, rfl, by decide, by decide⟩
  rw [if_neg h₉]
  exact .inl rfl

/-- Within a longer character a byte ends it or continues it, or else the character is
unreadable and the byte stands for itself. -/
theorem feed_within_cases (h : (Reading.within bits least greatest more).Long) (b : UInt8) :
  (∃ n, 0x80 ≤ n
      ∧ (Reading.within bits least greatest more).feed b = ([some (Char.ofNat n)], .between))
    ∨ (∃ bits' least' greatest' more',
        (Reading.within bits least greatest more).feed b
            = ([], .within bits' least' greatest' more')
          ∧ (Reading.within bits' least' greatest' more').Long)
    ∨ (Reading.within bits least greatest more).feed b
        = (none :: (Reading.start b).1, (Reading.start b).2)
  := by
  by_cases hrange : (least ≤ b && b ≤ greatest) = true
  · have hleast : least.toNat ≤ b.toNat := by
      rw [Bool.and_eq_true, decide_eq_true_eq] at hrange
      exact UInt8.le_iff_toNat_le.1 hrange.1
    cases more with
    | zero =>
      have hbits : 2 ≤ bits := h
      refine .inl ⟨bits * 64 + (b.toNat - 0x80), by omega, ?_⟩
      simp only [Reading.feed, hrange, if_true]
    | succ more =>
      obtain ⟨hcontinues, hbits⟩ := h
      refine .inr (.inl ⟨bits * 64 + (b.toNat - 0x80), 0x80, 0xBF, more, ?_, ?_⟩)
      · simp only [Reading.feed, hrange, if_true]
      · have hlarge : 2 ≤ bits * 64 + (b.toNat - 0x80) := by omega
        cases more with
        | zero => exact hlarge
        | succ more => exact ⟨by decide, by simp; omega⟩
  · apply Or.inr
    apply Or.inr
    simp only [Reading.feed, hrange]
    rfl

/-! ### Reading to the end -/

/-- A piece of what is read that is a character of one byte. -/
def IsSinglePiece (piece : Option Char) : Prop :=
  ∃ c, piece = some c ∧ IsSingle c

theorem not_isSinglePiece_none :
  ¬ IsSinglePiece none
  := by
  rintro ⟨_, ⟨⟩, _⟩

/-- Not everything that is read from within a longer character on is a character of one
byte. -/
theorem exists_not_isSinglePiece (h : (Reading.within bits least greatest more).Long)
    (bs : List UInt8) :
  ∃ piece ∈ (Reading.within bits least greatest more).pieces bs, ¬ IsSinglePiece piece
  := by
  induction bs generalizing bits least greatest more with
  | nil => exact ⟨none, List.mem_singleton.2 rfl, not_isSinglePiece_none⟩
  | cons b bs ih =>
    rcases feed_within_cases h b with ⟨n, hn, hfeed⟩ | ⟨_, _, _, _, hfeed, hlong⟩ | hfeed
    · simp only [Reading.pieces, hfeed]
      refine ⟨some (Char.ofNat n), List.mem_cons_self, ?_⟩
      rintro ⟨_, ⟨⟩, hsingle⟩
      exact not_isSingle_ofNat hn hsingle
    · simp only [Reading.pieces, hfeed]
      exact ih hlong
    · simp only [Reading.pieces, hfeed]
      exact ⟨none, List.mem_cons_self, not_isSinglePiece_none⟩

/-- If all that is read are characters of one byte, then the bytes are those of these
characters. -/
theorem eq_encode_of_pieces (h : Reading.between.pieces bs = cs.map some)
    (hsingle : ∀ c ∈ cs, IsSingle c) :
  bs = encode cs
  := by
  induction bs generalizing cs with
  | nil =>
    cases cs with
    | nil => rfl
    | cons => cases h
  | cons b bs ih =>
    have hpieces : ∀ piece ∈ Reading.between.pieces (b :: bs), IsSinglePiece piece := by
      intro piece hpiece
      rw [h] at hpiece
      obtain ⟨c, hc, rfl⟩ := List.mem_map.1 hpiece
      exact ⟨c, rfl, hsingle c hc⟩
    rw [pieces_between] at h hpieces
    rcases start_cases b with ⟨hb, hstart⟩ | hstart | ⟨_, _, _, _, hstart, hlong⟩
    · rw [hstart] at h
      cases cs with
      | nil => cases h
      | cons c cs =>
        obtain ⟨hhead, hrest⟩ := List.cons.inj h
        have hnumber : c.toNat = b.toNat := by
          rw [← Option.some.inj hhead, toNat_charOfNat (.inl (by omega))]
        rw [ih hrest fun c' hc' => hsingle c' (List.mem_cons_of_mem _ hc'), encode, encode,
          List.flatMap_cons, encodeChar_of_lt (hnumber ▸ hb), hnumber, UInt8.ofNat_toNat]
        rfl
    · rw [hstart] at hpieces
      exact absurd (hpieces none List.mem_cons_self) not_isSinglePiece_none
    · rw [hstart] at hpieces
      obtain ⟨piece, hpiece, hnot⟩ := exists_not_isSinglePiece hlong bs
      exact absurd (hpieces piece hpiece) hnot

/-- A character of one byte is read only where its byte stands. -/
theorem mem_of_mem_pieces (hr : r.Long) (hc : IsSingle c) (h : some c ∈ r.pieces bs) :
  UInt8.ofNat c.toNat ∈ bs
  := by
  induction bs generalizing r with
  | nil =>
    cases r with
    | between => cases h
    | within => cases List.mem_singleton.1 h
  | cons b bs ih =>
    have hbetween (h : some c ∈ (Reading.start b).1 ++ (Reading.start b).2.pieces bs) :
        UInt8.ofNat c.toNat ∈ b :: bs := by
      rcases start_cases b with ⟨hb, hstart⟩ | hstart | ⟨_, _, _, _, hstart, hlong⟩
      · rw [hstart] at h
        rcases List.mem_cons.1 h with h | h
        · rw [Option.some.inj h, toNat_charOfNat (.inl (by omega)), UInt8.ofNat_toNat]
          exact List.mem_cons_self
        · exact List.mem_cons_of_mem _ (ih Reading.long_between h)
      · rw [hstart] at h
        rcases List.mem_cons.1 h with h | h
        · cases h
        · exact List.mem_cons_of_mem _ (ih Reading.long_between h)
      · rw [hstart] at h
        exact List.mem_cons_of_mem _ (ih hlong h)
    cases r with
    | between => exact hbetween h
    | within bits least greatest more =>
      rcases feed_within_cases hr b with ⟨n, hn, hfeed⟩ | ⟨_, _, _, _, hfeed, hlong⟩ | hfeed
      · simp only [Reading.pieces, hfeed] at h
        rcases List.mem_cons.1 h with h | h
        · rw [Option.some.inj h] at hc
          exact absurd hc (not_isSingle_ofNat hn)
        · exact List.mem_cons_of_mem _ (ih Reading.long_between h)
      · simp only [Reading.pieces, hfeed] at h
        exact List.mem_cons_of_mem _ (ih hlong h)
      · simp only [Reading.pieces, hfeed] at h
        rcases List.mem_cons.1 h with h | h
        · cases h
        · exact hbetween h

/-! ### Texts -/

/-- A piece that is shown as a character of one byte is that character. -/
theorem eq_some_of_getD {piece : Option Char} (h : piece.getD '\uFFFD' = c) (hc : IsSingle c) :
  piece = some c
  := by
  cases piece with
  | none =>
    subst h
    exact absurd hc (by decide)
  | some d => exact congrArg some h

theorem mem_of_mem_decode (hc : IsSingle c) (h : c ∈ decode bytes) :
  UInt8.ofNat c.toNat ∈ bytes
  := by
  obtain ⟨piece, hpiece, hshown⟩ := List.mem_map.1 h
  rw [eq_some_of_getD hshown hc] at hpiece
  exact mem_of_mem_pieces Reading.long_between hc hpiece

/-- Bytes that are read as a text of characters of one byte are the bytes of that text. -/
theorem eq_encode_of_decode (h : decode bytes = cs) (hsingle : ∀ c ∈ cs, IsSingle c) :
  bytes = encode cs
  := by
  subst h
  apply eq_encode_of_pieces _ hsingle
  symm
  calc (decode bytes).map some
      = (Reading.between.pieces bytes).map fun piece => some (piece.getD '\uFFFD') := List.map_map
    _ = (Reading.between.pieces bytes).map id := by
        apply List.map_congr_left
        intro piece hpiece
        exact (eq_some_of_getD rfl (hsingle _ (List.mem_map_of_mem hpiece))).symm
    _ = Reading.between.pieces bytes := List.map_id _

/-- Bytes that are shown as a text of characters of one byte are the bytes of that text. -/
theorem eq_of_toBytes_ofBytes {xs : List UInt8} (h : toBytes (ofBytes bytes) = xs)
    (hsingle : (decode xs).all (decide <| IsSingle ·) = true) :
  bytes = xs
  := by
  have hdecode : decode bytes = decode xs := by
    rw [← h, toBytes, decode_encode, ofBytes, String.toList_ofList]
  have hsingle' : ∀ c ∈ decode xs, IsSingle c := by
    simpa using hsingle
  calc bytes = encode (decode xs) := eq_encode_of_decode hdecode hsingle'
    _ = encode (decode bytes) := by rw [hdecode]
    _ = toBytes (ofBytes bytes) := by rw [toBytes, ofBytes, String.toList_ofList]
    _ = xs := h

end RobotJobs.Text
