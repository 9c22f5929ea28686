import RobotJobs.Proofs.Storage.Shelf
import RobotJobs.Storage.Memory

/-!
# Changes of a store

A store in memory changes when files are added or taken away, when paths are denied to
readers or locked, and when letter case is no longer regarded.  What is put on a shelf under
a path is found at its place, and all else is found as before (`Shelf.find?_put`).  A change adds
at most one entry or takes one away (`Memory.find?_change_iff`, `Memory.mem_paths_change_iff`),
and whatever happens to the files of a folder, the folder stays (`Memory.isFolder_after`).
-/

namespace RobotJobs

namespace ShelfEntries

variable {es : ShelfEntries} {path : Path} {content : List UInt8} {place : Place}

/-- What is put under a path is found at its place. -/
theorem find?_put_self (es : ShelfEntries) (path : Path) (content : List UInt8) :
  ((es.put path content).find? fun e => e.1.place = path.place).map Prod.snd = some content
  := by
  induction es with
  | nil => simp [put]
  | cons e es ih =>
    obtain ⟨p, c⟩ := e
    rw [put]
    split
    · next hsame => simp [hsame]
    · next hother =>
      split
      · simp
      · simp [hother, ih]

/-- Whatever is put somewhere, the same is found at other places. -/
theorem find?_put_of_ne (h : path.place ≠ place) :
  ((es.put path content).find? fun e => e.1.place = place).map Prod.snd
    = (es.find? fun e => e.1.place = place).map Prod.snd
  := by
  induction es with
  | nil => simp [put, h]
  | cons e es ih =>
    obtain ⟨p, c⟩ := e
    rw [put]
    split
    · next hsame =>
      rw [List.find?_cons_of_neg (by simpa [hsame] using h),
        List.find?_cons_of_neg (by simpa [hsame] using h)]
    · split
      · rw [List.find?_cons_of_neg (by simpa using h)]
      · by_cases hplace : p.place = place
        · rw [List.find?_cons_of_pos (by simpa using hplace),
            List.find?_cons_of_pos (by simpa using hplace)]
        · rw [List.find?_cons_of_neg (by simpa using hplace),
            List.find?_cons_of_neg (by simpa using hplace), ih]

/-- A path that is put among entries in order is kept if no entry has its place. -/
theorem mem_map_fst_put_iff (h : es.Ordered) {p : Path} :
  p ∈ (es.put path content).map Prod.fst
    ↔ p ∈ es.map Prod.fst ∨ p = path ∧ ∀ e ∈ es, e.1.place ≠ path.place
  := by
  induction es with
  | nil => simp [put]
  | cons e es ih =>
    obtain ⟨q, c⟩ := e
    obtain ⟨hbefore, hes⟩ := List.pairwise_cons.1 h
    rw [put]
    split
    · next hsame => simp [hsame]
    · next hother =>
      split
      · next hfirst =>
        -- All entries after the new one stand at later places.
        have hnone : ∀ e ∈ (q, c) :: es, e.1.place ≠ path.place := by
          intro e he heq
          rcases List.mem_cons.1 he with rfl | he
          · apply hother heq
          · have hlater := hfirst.trans (hbefore e he)
            rw [heq] at hlater
            apply Place.not_before_self _ hlater
        simp only [List.map_cons, List.mem_cons]
        grind
      · have hrest := ih hes
        simp only [List.map_cons, List.mem_cons, hrest]
        grind

end ShelfEntries

/-- A look-up finds what was put at the place last. -/
theorem Shelf.find?_put (shelf : Shelf) (path : Path) (content : List UInt8) (place : Place) :
  (shelf.put path content).find? place
    = if path.place = place then some content else shelf.find? place
  := by
  split
  · next h =>
    subst h
    apply ShelfEntries.find?_put_self
  · next h => apply ShelfEntries.find?_put_of_ne h

/-- A path is stored after something was put on a shelf if it was stored before, or if it is the
path of what was put and there was nothing at its place. -/
theorem Shelf.mem_paths_put {shelf : Shelf} {path p : Path} {content : List UInt8} :
  p ∈ (shelf.put path content).paths
    ↔ p ∈ shelf.paths ∨ p = path ∧ shelf.find? path.place = none
  := by
  rw [Shelf.find?_eq_none_iff]
  apply ShelfEntries.mem_map_fst_put_iff shelf.ordered

/-- What can be done to a store. -/
inductive Change where
  | add (path : Path) (content : List UInt8)
  | discard (path : Path)
  | remove (path : Path)
  | deny (path : Path)
  | lock (path : Path)
  | ignoreCase

namespace Change

/-- Whether a change denies a place to readers. -/
def Denies (place : Place) : Change → Prop
  | .deny path => path.place = place
  | _ => False

/-- Whether a change locks a place. -/
def Locks (place : Place) : Change → Prop
  | .lock path => path.place = place
  | _ => False

/-- Whether a change adds a file under a path directly in a place. -/
def AddsIn (folder : Place) : Change → Prop
  | .add path _ => path.parent? = some folder
  | _ => False

/-- Whether a change adds a file under a path. -/
def AddsAs (path : Path) : Change → Prop
  | .add path' _ => path' = path
  | _ => False

/-- Whether a change puts a content at a place. -/
def Puts (place : Place) (content : List UInt8) : Change → Prop
  | .add path content' => path.place = place ∧ content' = content
  | _ => False

/-- Whether a change takes away what is at a place: it discards a path there, or removes one
while the place is not locked. -/
def TakesAway (place : Place) (locked : Prop) : Change → Prop
  | .discard path => path.place = place
  | .remove path => path.place = place ∧ ¬ locked
  | _ => False

end Change

namespace Memory

/-- The store after a change. -/
def change (m : Memory) : Change → Memory
  | .add path content => m.add path content
  | .discard path => m.discard path
  | .remove path => (m.remove path).2
  | .deny path => m.deny path
  | .lock path => m.lock path
  | .ignoreCase => { m with ignoresCase := true }

/-- The store after some changes, one after another. -/
def after (m : Memory) (changes : List Change) : Memory :=
  changes.foldl change m

variable {m : Memory} {change : Change} {place : Place} {path folder : Path}
  {content : List UInt8}

theorem isFolder_add :
  (m.add path content).isFolder folder = true
    ↔ path.parent? = some folder.place ∨ m.isFolder folder = true
  := by
  simp [isFolder, add]

/-- A removal takes the file away unless its place is locked, and nothing else. -/
theorem remove_snd (m : Memory) (path : Path) :
  (m.remove path).2
    = { m with files := if path.place ∈ m.locked then m.files else m.files.erase path.place }
  := by
  unfold remove
  by_cases hlocked : path.place ∈ m.locked
  · simp [hlocked]
  · cases hfound : m.files.find? path.place with
    | none => simp [hlocked, Shelf.erase_of_find?_eq_none hfound]
    | some content => simp [hlocked, discard]

/-! ### What a change does -/

theorem mem_denied_change :
  place ∈ (m.change change).denied ↔ place ∈ m.denied ∨ change.Denies place
  := by
  cases change with
  | deny path => simp [Memory.change, deny, Change.Denies, eq_comm, or_comm]
  | _ => simp [Memory.change, add, discard, remove_snd, lock, Change.Denies]

theorem mem_locked_change :
  place ∈ (m.change change).locked ↔ place ∈ m.locked ∨ change.Locks place
  := by
  cases change with
  | lock path => simp [Memory.change, lock, Change.Locks, eq_comm, or_comm]
  | _ => simp [Memory.change, add, discard, remove_snd, deny, Change.Locks]

theorem mem_folders_change :
  place ∈ (m.change change).folders ↔ place ∈ m.folders ∨ change.AddsIn place
  := by
  cases change with
  | add path content => simp [Memory.change, add, Change.AddsIn, or_comm]
  | _ => simp [Memory.change, discard, remove_snd, deny, lock, Change.AddsIn]

theorem ignoresCase_change (h : change ≠ .ignoreCase) :
  (m.change change).ignoresCase = m.ignoresCase
  := by
  cases change with
  | ignoreCase => contradiction
  | _ => simp [Memory.change, add, discard, remove_snd, deny, lock]

/-- A content is found at a place after a change if the change puts it there, or if it was found
there before and the change neither takes it away nor puts another one there. -/
theorem find?_change_iff :
  (m.change change).files.find? place = some content
    ↔ change.Puts place content
      ∨ m.files.find? place = some content
        ∧ ¬ (change.TakesAway place (place ∈ m.locked) ∨ ∃ other, change.Puts place other)
  := by
  cases change with
  | add path content' =>
    rw [Memory.change, add, Shelf.find?_put]
    by_cases hplace : path.place = place
    · simp [hplace, Change.TakesAway, Change.Puts]
    · simp [hplace, Change.TakesAway, Change.Puts]
  | discard path =>
    rw [Memory.change, discard, Shelf.find?_erase_eq_some_iff]
    simp [Change.TakesAway, Change.Puts]
  | remove path =>
    simp only [Memory.change, remove_snd, Change.TakesAway, Change.Puts]
    split
    · grind
    · rw [Shelf.find?_erase_eq_some_iff]
      grind
  | _ => simp [Memory.change, deny, lock, Change.TakesAway, Change.Puts]

/-- A path is stored after a change if the change adds a file under it where there was none, or
if it was stored before and the change does not take the file away. -/
theorem mem_paths_change_iff :
  path ∈ (m.change change).files.paths
    ↔ (change.AddsAs path ∧ m.files.find? path.place = none)
      ∨ path ∈ m.files.paths ∧ ¬ change.TakesAway path.place (path.place ∈ m.locked)
  := by
  cases change with
  | add path' content =>
    rw [Memory.change, add, Shelf.mem_paths_put]
    simp only [Change.TakesAway, Change.AddsAs]
    grind
  | discard path' =>
    rw [Memory.change, discard, Shelf.mem_paths_erase]
    simp [Change.TakesAway, Change.AddsAs, eq_comm]
  | remove path' =>
    simp only [Memory.change, remove_snd, Change.TakesAway, Change.AddsAs]
    split
    · grind
    · rw [Shelf.mem_paths_erase]
      grind
  | _ => simp [Memory.change, deny, lock, Change.TakesAway, Change.AddsAs]

/-- A folder stays one whatever changes. -/
theorem isFolder_change (h : m.isFolder folder = true) (change : Change) :
  (m.change change).isFolder folder = true
  := by
  rw [isFolder, List.contains_iff_mem] at h ⊢
  apply mem_folders_change.2 (.inl h)

theorem isFolder_after (h : m.isFolder folder = true) (changes : List Change) :
  (m.after changes).isFolder folder = true
  := by
  induction changes generalizing m with
  | nil => apply h
  | cons change changes ih => apply ih (isFolder_change h change)

end Memory

end RobotJobs
