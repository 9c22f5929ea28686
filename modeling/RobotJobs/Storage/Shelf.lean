import RobotJobs.Path

/-!
# Shelves

A shelf is a finite map from places to contents.  Its entries are kept in the order of
their places and no two of them have the same place; each keeps the spelling under which
it was first put there.  `find?` looks up by place, `put` replaces the content of an
entry that is there already, and `erase` removes one entry.
-/

namespace RobotJobs

/-- Stored contents with their paths. -/
abbrev ShelfEntries := List (Path × List UInt8)

namespace ShelfEntries

/-- The entries with a content put under a path. -/
def put (path : Path) (content : List UInt8) : ShelfEntries → ShelfEntries
  | [] => [(path, content)]
  | (p, c) :: es =>
    if p.place = path.place then (p, content) :: es
    else if path.place.Before p.place then (path, content) :: (p, c) :: es
    else (p, c) :: put path content es

/-- The order in which entries are kept. -/
def Ordered (es : ShelfEntries) : Prop :=
  es.Pairwise fun a b => a.1.place.Before b.1.place

theorem mem_put {path : Path} {content : List UInt8} {es : ShelfEntries}
    {e : Path × List UInt8} (h : e ∈ put path content es) :
  e ∈ es ∨ e.1.place = path.place
  := by
  induction es with
  | nil => simp_all [put]
  | cons hd tl ih =>
    obtain ⟨p, c⟩ := hd
    simp only [put] at h
    split at h
    · rcases List.mem_cons.1 h with rfl | h
      · exact .inr ‹_›
      · exact .inl (List.mem_cons_of_mem _ h)
    · split at h
      · rcases List.mem_cons.1 h with rfl | h
        · exact .inr rfl
        · exact .inl h
      · rcases List.mem_cons.1 h with rfl | h
        · exact .inl List.mem_cons_self
        · exact (ih h).imp_left (List.mem_cons_of_mem _)

theorem Ordered.put {es : ShelfEntries} (h : Ordered es) (path : Path)
    (content : List UInt8) :
  Ordered (ShelfEntries.put path content es)
  := by
  induction es with
  | nil => simp [ShelfEntries.put, Ordered]
  | cons hd tl ih =>
    obtain ⟨p, c⟩ := hd
    obtain ⟨hhd, htl⟩ := List.pairwise_cons.1 h
    simp only [ShelfEntries.put]
    split
    · exact List.pairwise_cons.2 ⟨hhd, htl⟩
    · split
      · next hlt =>
        refine List.pairwise_cons.2 ⟨fun e he => ?_, h⟩
        rcases List.mem_cons.1 he with rfl | he
        · exact hlt
        · exact hlt.trans (hhd e he)
      · next hne hnlt =>
        refine List.pairwise_cons.2 ⟨fun e he => ?_, ih htl⟩
        rcases mem_put he with he | he
        · exact hhd e he
        · rw [he]
          exact Place.before_of_not_before hnlt (Ne.symm hne)

end ShelfEntries

/-- A finite map from places to contents. -/
structure Shelf where
  entries : ShelfEntries
  ordered : entries.Ordered

namespace Shelf

/-- The shelf without entries. -/
def empty : Shelf := ⟨[], List.Pairwise.nil⟩

/-- The shelf with a content put under a path. -/
def put (shelf : Shelf) (path : Path) (content : List UInt8) : Shelf :=
  ⟨shelf.entries.put path content, shelf.ordered.put path content⟩

/-- The shelf without the entry at a place. -/
def erase (shelf : Shelf) (place : Place) : Shelf :=
  ⟨shelf.entries.filter fun e => e.1.place ≠ place, shelf.ordered.filter _⟩

/-- The content at a place. -/
def find? (shelf : Shelf) (place : Place) : Option (List UInt8) :=
  (shelf.entries.find? fun e => e.1.place = place).map Prod.snd

/-- The paths of the entries, in order. -/
def paths (shelf : Shelf) : List Path :=
  shelf.entries.map Prod.fst

/-- The contents of the entries. -/
def contents (shelf : Shelf) : List (List UInt8) :=
  shelf.entries.map Prod.snd

theorem mem_contents_of_find? {shelf : Shelf} {q : Path × List UInt8 → Bool}
    {bytes : List UInt8} (h : (shelf.entries.find? q).map Prod.snd = some bytes) :
  bytes ∈ shelf.contents
  := by
  obtain ⟨e, he, rfl⟩ := Option.map_eq_some_iff.1 h
  exact List.mem_map_of_mem (List.mem_of_find?_eq_some he)

end Shelf

end RobotJobs
