import Mathlib.Data.List.Basic
import RobotJobs.Path

/-!
# Files in folders

A name that a component of a path can have is joined to a folder as its last component,
however the folder is written (`place_join`).  The place of a file is the place of the
folder that holds it followed by the file's name (`place_eq_of_parent`).
-/

namespace RobotJobs

namespace Path

variable {p : Path} {name segment : List UInt8} {folder : Place}

/-- A component of a path can have a name: it is not empty, holds no slash and does not
stand for the folder itself or the folder above. -/
structure IsName (name : List UInt8) : Prop where
  nonempty : name ≠ []
  not_dot : name ≠ [dot]
  not_dots : name ≠ [dot, dot]
  no_slash : slash ∉ name

theorem component?_eq_name_iff :
  component? segment = some (.name name)
    ↔ name = segment ∧ segment ≠ [] ∧ segment ≠ [dot] ∧ segment ≠ [dot, dot]
  := by
  unfold component?
  split
  · next h =>
    constructor
    · exact fun h => nomatch h
    · rintro ⟨-, hempty, hdot, -⟩
      rcases h with h | h
      · exact absurd h hempty
      · exact absurd h hdot
  · next h =>
    split
    · next hdots => simp [hdots]
    · next hdots =>
      obtain ⟨hempty, hdot⟩ := not_or.1 h
      simp only [Option.some.injEq, Component.name.injEq]
      constructor
      · rintro rfl
        exact ⟨rfl, hempty, hdot, hdots⟩
      · rintro ⟨rfl, -⟩
        rfl

theorem IsName.component?_eq (h : IsName name) :
  component? name = some (.name name)
  := component?_eq_name_iff.2 ⟨rfl, h.nonempty, h.not_dot, h.not_dots⟩

/-- The first segment of a path counts as an inner one if it is a name. -/
theorem firstComponent?_eq_name {last : Bool}
    (h : firstComponent? segment last = some (.name name)) :
  component? segment = some (.name name)
  := by
  unfold firstComponent? at h
  split at h
  · cases last with
    | true => cases h
    | false => cases h
  · split at h
    · cases h
    · exact h

/-- Whether a segment is the last one matters only to an empty first segment. -/
theorem firstComponent?_of_ne_nil (h : segment ≠ []) (last last' : Bool) :
  firstComponent? segment last = firstComponent? segment last'
  := by
  simp [firstComponent?, h]

/-- Every name in the place of a path is one that a component can have. -/
theorem isName_of_mem_place (h : Component.name name ∈ p.place) :
  IsName name
  := by
  have hsegment : ∃ segment ∈ Text.segments slash p.bytes,
      component? segment = some (.name name) := by
    unfold place at h
    split at h
    · cases h
    · next s ss hsegments =>
      rw [hsegments]
      rcases List.mem_append.1 h with h | h
      · exact ⟨s, List.mem_cons_self, firstComponent?_eq_name (Option.mem_toList.1 h)⟩
      · obtain ⟨segment, hmem, hcomponent⟩ := List.mem_filterMap.1 h
        exact ⟨segment, List.mem_cons_of_mem _ hmem, hcomponent⟩
  obtain ⟨segment, hmem, hcomponent⟩ := hsegment
  obtain ⟨rfl, hempty, hdot, hdots⟩ := component?_eq_name_iff.1 hcomponent
  exact ⟨hempty, hdot, hdots, Text.not_mem_of_mem_segments hmem⟩

/-- The place of a path whose bytes are divided by a slash before a name. -/
theorem place_append_name (bytes : List UInt8) (h : IsName name) :
  (Path.mk (bytes ++ slash :: name)).place
    = (Path.mk (bytes ++ [slash])).place ++ [.name name]
  := by
  obtain ⟨s, ss, hsegments⟩ := List.exists_cons_of_ne_nil (Text.segments_ne_nil slash bytes)
  have hname := Text.segments_append slash bytes name
  rw [Text.segments_of_not_mem h.no_slash, hsegments] at hname
  have hopen := Text.segments_append slash bytes []
  rw [show Text.segments slash [] = [[]] from rfl, hsegments] at hopen
  have hinner (t : List UInt8) : (ss ++ [t]).isEmpty = false := by simp
  simp only [place, hname, hopen, List.cons_append, List.filterMap_append, hinner,
    List.append_assoc, List.filterMap_cons_some h.component?_eq]
  rfl

/-- A slash after a path that is not empty does not matter. -/
theorem place_append_slash {bytes : List UInt8} (h : bytes ≠ []) :
  (Path.mk (bytes ++ [slash])).place = (Path.mk bytes).place
  := by
  obtain ⟨s, ss, hsegments⟩ := List.exists_cons_of_ne_nil (Text.segments_ne_nil slash bytes)
  have hopen := Text.segments_append slash bytes []
  rw [show Text.segments slash [] = [[]] from rfl, hsegments] at hopen
  have hfirst : firstComponent? s false = firstComponent? s ss.isEmpty := by
    cases ss with
    | nil =>
      apply firstComponent?_of_ne_nil
      rintro rfl
      exact h (Text.eq_nil_of_segments hsegments)
    | cons => rfl
  have hinner : (ss ++ [[]]).isEmpty = false := by simp
  simp only [place, hopen, hsegments, List.cons_append, List.filterMap_append, hinner, hfirst]
  exact congrArg _ (List.append_nil _)

theorem isAbsolute_eq_false (h : slash ∉ p.bytes) :
  p.isAbsolute = false
  := by
  unfold isAbsolute
  cases hbytes : p.bytes with
  | nil => rfl
  | cons b bs =>
    rw [hbytes] at h
    have hb : b ≠ slash := fun hb => h (hb ▸ List.mem_cons_self)
    simp [hb]

/-- A name that is joined to a folder is its last component. -/
theorem place_join (p : Path) (h : IsName name) :
  (p.join ⟨name⟩).place = p.place ++ [.name name]
  := by
  obtain ⟨bytes⟩ := p
  have hrelative : (Path.mk name).isAbsolute = false := isAbsolute_eq_false h.no_slash
  simp only [join, hrelative]
  rcases List.eq_nil_or_concat bytes with rfl | ⟨front, last, rfl⟩
  · -- Nothing stands before the name.
    simp [endsOpen, place, Text.segments_of_not_mem h.no_slash, Text.segments, firstComponent?,
      h.nonempty, h.not_dot, h.component?_eq]
  · by_cases hlast : last = slash
    · subst hlast
      have hjoined := place_append_name front h
      simpa [endsOpen] using hjoined
    · have hjoined := place_append_name (front ++ [last]) h
      rw [place_append_slash (by simp)] at hjoined
      simpa [endsOpen, hlast] using hjoined

/-- The place of a file is the place of its folder followed by its name. -/
theorem place_eq_of_parent (hparent : p.parent? = some folder) (hname : p.fileName? = some name) :
  p.place = folder ++ [.name name]
  := by
  unfold fileName? Place.fileName? at hname
  unfold parent? Place.parent? at hparent
  split at hname
  · next bytes hlast =>
    cases hname
    rw [hlast] at hparent
    cases hparent
    exact (List.dropLast_append_getLast? _ (Option.mem_def.2 hlast)).symm
  · cases hname

theorem isName_of_fileName? (h : p.fileName? = some name) :
  IsName name
  := by
  unfold fileName? Place.fileName? at h
  split at h
  · next bytes hlast =>
    cases h
    exact isName_of_mem_place (List.mem_of_getLast? hlast)
  · cases h

/-- A file that stands directly in a folder is where its name leads from the folder. -/
theorem place_join_fileName? {folder : Path} (hparent : p.parent? = some folder.place)
    (hname : p.fileName? = some name) :
  (folder.join ⟨name⟩).place = p.place
  := by
  rw [place_join folder (isName_of_fileName? hname), place_eq_of_parent hparent hname]

end Path

end RobotJobs
