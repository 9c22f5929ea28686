/-!
# Letter case

Two texts agree up to the case of the letters A to Z.  Other characters, letters of
other alphabets among them, have to be the same (`mem_of_sameLetters`).
-/

namespace RobotJobs.Text

/-- A text with the letters A to Z made small. -/
def lowered (s : String) : String :=
  String.ofList (s.toList.map Char.toLower)

/-- Whether two texts agree up to the case of the letters A to Z. -/
def sameLetters (a b : String) : Bool :=
  lowered a == lowered b

@[simp]
theorem sameLetters_self (s : String) :
  sameLetters s s = true
  := by
  simp [sameLetters]

/-- Only capital letters are made small, and into small letters. -/
theorem eq_of_toLower_eq {c d : Char} (hd : d.isLower = false) (h : c.toLower = d) :
  c = d
  := by
  unfold Char.toLower at h
  split at h
  · next hupper =>
    have hval : d.val.toNat = c.val.toNat + 32 := by
      have hle := UInt32.le_iff_toNat_le.1 hupper.2
      rw [← h]
      simp [UInt32.toNat_add] at hle ⊢
      omega
    have hlower : d.isLower = true := by
      change (decide ('a'.val ≤ d.val) && decide (d.val ≤ 'z'.val)) = true
      obtain ⟨hleast, hgreatest⟩ := hupper
      simp only [Bool.and_eq_true, decide_eq_true_eq, ge_iff_le, UInt32.le_iff_toNat_le, hval]
        at hleast hgreatest ⊢
      simp at hleast hgreatest ⊢
      omega
    rw [hd] at hlower
    cases hlower
  · exact h

/-- A character that has no case stands in both of two texts that agree up to case. -/
theorem mem_of_sameLetters {a b : String} {c : Char} (hlower : c.isLower = false)
    (hupper : c.toLower = c) (h : sameLetters a b = true) (hmem : c ∈ a.toList) :
  c ∈ b.toList
  := by
  have hlowered : a.toList.map Char.toLower = b.toList.map Char.toLower := by
    apply String.ofList_injective
    simpa [sameLetters, lowered] using h
  have hmap : c ∈ b.toList.map Char.toLower := by
    rw [← hlowered]
    exact List.mem_map.2 ⟨c, hmem, hupper⟩
  obtain ⟨d, hd, hsame⟩ := List.mem_map.1 hmap
  rw [← eq_of_toLower_eq hlower hsame]
  exact hd

theorem sameLetters_comm (a b : String) :
  sameLetters a b = sameLetters b a
  := BEq.comm

end RobotJobs.Text
