import Mathlib.Data.List.Nodup
import RobotJobs.Storage.Shelf

/-!
# Look-ups on a shelf

No two entries of a shelf have the same place, so an entry is determined by its place, and
`find?` answers with the content of the one entry that has it.  `without` takes away the
entries at given places; erasing one place after another comes to the same.
-/

namespace RobotJobs

namespace Shelf

variable {shelf : Shelf} {place : Place} {path : Path} {bytes : List UInt8}

/-- A shelf is determined by its entries. -/
theorem eq_of_entries_eq {shelf shelf' : Shelf} (h : shelf.entries = shelf'.entries) :
  shelf = shelf'
  := by
  cases shelf
  cases shelf'
  cases h
  rfl

/-- No place occurs twice. -/
theorem nodup_places (shelf : Shelf) :
  (shelf.entries.map fun e => e.1.place).Nodup
  := by
  apply List.pairwise_map.2
  apply shelf.ordered.imp
  intro e e' hbefore heq
  rw [heq] at hbefore
  exact Place.not_before_self _ hbefore

/-- Entries at the same place are the same. -/
theorem eq_of_place_eq {e e' : Path × List UInt8} (he : e ∈ shelf.entries)
    (he' : e' ∈ shelf.entries) (h : e.1.place = e'.1.place) :
  e = e'
  := List.inj_on_of_nodup_map shelf.nodup_places he he' h

/-- A content is found at a place exactly if an entry there has it. -/
theorem find?_eq_some_iff :
  shelf.find? place = some bytes ↔ ∃ path, (path, bytes) ∈ shelf.entries ∧ path.place = place
  := by
  constructor
  · intro h
    obtain ⟨e, he, rfl⟩ := Option.map_eq_some_iff.1 h
    exact ⟨e.1, List.mem_of_find?_eq_some he, by simpa using List.find?_some he⟩
  · rintro ⟨path, hmem, rfl⟩
    have hfound : (shelf.entries.find? fun e => e.1.place = path.place).isSome := by
      rw [List.find?_isSome]
      exact ⟨(path, bytes), hmem, by simp⟩
    obtain ⟨e, he⟩ := Option.isSome_iff_exists.1 hfound
    have hplace : e.1.place = path.place := by simpa using List.find?_some he
    rw [find?, he, eq_of_place_eq (List.mem_of_find?_eq_some he) hmem hplace]
    rfl

theorem mem_paths_iff :
  path ∈ shelf.paths ↔ ∃ bytes, (path, bytes) ∈ shelf.entries
  := by
  simp [paths]

/-- The paths of a shelf come one after another in the order of places. -/
theorem paths_ordered (shelf : Shelf) :
  shelf.paths.Pairwise fun p q => p.place.Before q.place
  := List.pairwise_map.2 shelf.ordered

theorem isSome_find?_of_mem_paths (h : path ∈ shelf.paths) :
  (shelf.find? path.place).isSome
  := by
  obtain ⟨bytes, hmem⟩ := mem_paths_iff.1 h
  rw [find?_eq_some_iff.2 ⟨path, hmem, rfl⟩]
  rfl

/-- The shelf without the entries at some places. -/
def without (shelf : Shelf) (places : List Place) : Shelf :=
  ⟨shelf.entries.filter fun e => e.1.place ∉ places, shelf.ordered.filter _⟩

@[simp]
theorem without_nil (shelf : Shelf) :
  shelf.without [] = shelf
  := by
  apply eq_of_entries_eq
  simp [without]

theorem without_erase (shelf : Shelf) (place : Place) (places : List Place) :
  (shelf.erase place).without places = shelf.without (place :: places)
  := by
  apply eq_of_entries_eq
  simp only [without, erase, List.filter_filter]
  apply List.filter_congr
  intro e _
  simp [Bool.and_comm]

theorem mem_without_iff {e : Path × List UInt8} {places : List Place} :
  e ∈ (shelf.without places).entries ↔ e ∈ shelf.entries ∧ e.1.place ∉ places
  := by
  simp [without]

theorem paths_without (shelf : Shelf) (places : List Place) :
  (shelf.without places).paths = shelf.paths.filter fun path => path.place ∉ places
  := by
  rw [paths, paths, List.filter_map]
  rfl

/-- Taking away the entries at some places leaves what is found at other places. -/
theorem find?_without {places : List Place} (h : place ∉ places) :
  (shelf.without places).find? place = shelf.find? place
  := by
  simp only [find?, without, List.find?_filter]
  congr 2
  funext e
  by_cases he : e.1.place = place
  · simp [he, h]
  · simp [he]

/-- Erasing a place leaves what is found at other places. -/
theorem find?_erase_of_ne {place' : Place} (h : place' ≠ place) :
  (shelf.erase place).find? place' = shelf.find? place'
  := by
  rw [← without_nil (shelf.erase place), without_erase]
  apply find?_without
  simpa using h

theorem find?_eq_none_iff :
  shelf.find? place = none ↔ ∀ e ∈ shelf.entries, e.1.place ≠ place
  := by
  simp [find?, List.find?_eq_none]

theorem find?_erase_self (shelf : Shelf) (place : Place) :
  (shelf.erase place).find? place = none
  := by
  rw [find?_eq_none_iff]
  intro e he
  simpa using (List.mem_filter.1 he).2

/-- After a place is erased, what was found is found at all other places. -/
theorem find?_erase_eq_some_iff {place' : Place} :
  (shelf.erase place).find? place' = some bytes ↔ shelf.find? place' = some bytes ∧ place ≠ place'
  := by
  by_cases h : place = place'
  · simp [← h, find?_erase_self]
  · simp [find?_erase_of_ne (Ne.symm h), h]

/-- Nothing changes when a place is erased at which there is nothing. -/
theorem erase_of_find?_eq_none (h : shelf.find? place = none) :
  shelf.erase place = shelf
  := by
  apply eq_of_entries_eq
  apply List.filter_eq_self.2
  simpa using find?_eq_none_iff.1 h

/-- Erasing the place of an entry takes away this entry and no other. -/
theorem entries_erase {front back : ShelfEntries} {e : Path × List UInt8}
    (h : shelf.entries = front ++ e :: back) :
  (shelf.erase e.1.place).entries = front ++ back
  := by
  have hnodup := shelf.nodup_places
  rw [h, List.map_append, List.map_cons, List.nodup_middle, ← List.map_append] at hnodup
  have hothers : e.1.place ∉ (front ++ back).map fun e => e.1.place :=
    (List.nodup_cons.1 hnodup).1
  simp only [erase, h]
  rw [List.filter_append, List.filter_cons_of_neg (by simp), ← List.filter_append]
  apply List.filter_eq_self.2
  intro e' he'
  rw [decide_eq_true_eq]
  intro heq
  rw [← heq] at hothers
  apply hothers (List.mem_map_of_mem he')

theorem mem_paths_erase :
  path ∈ (shelf.erase place).paths ↔ path ∈ shelf.paths ∧ path.place ≠ place
  := by
  simp [paths, erase]

end Shelf

end RobotJobs
