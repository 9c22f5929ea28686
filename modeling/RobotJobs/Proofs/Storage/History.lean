import Mathlib.Data.List.Induction
import RobotJobs.Proofs.Storage.Changes

/-!
# What a store remembers of its changes

A store in memory is told from the history of the changes that made it.  Of the place of a
path it knows whether it was ever denied or locked, which content was put there last, and
under which path the file there was created; what was put there counts only as long as
nothing has been taken away since (`Since`).  Paths are told apart by their places alone, so
the store is a finite map from places to contents (`Memory.mapsPlaces_after`).
-/

namespace RobotJobs

/-! ### Since a change -/

section Since

variable {α : Type} {begins ends : List α → α → Prop} {xs : List α} {x : α}

/-- Something began with one of the elements of a list and no element after it has ended it.
Which elements do so may hang on the elements before them. -/
def Since (begins ends : List α → α → Prop) (xs : List α) : Prop :=
  ∃ before x after, xs = before ++ x :: after ∧ begins before x
    ∧ ∀ mid y rest, after = mid ++ y :: rest → ¬ ends (before ++ x :: mid) y

theorem not_since_nil :
  ¬ Since begins ends ([] : List α)
  := by
  rintro ⟨before, x, after, hnil, -⟩
  simp at hnil

/-- An element of a list with one more at the end is this one or an element before it. -/
theorem concat_eq_append_cons_iff {before after : List α} {y : α} :
  xs ++ [x] = before ++ y :: after
    ↔ (xs = before ∧ x = y ∧ after = []) ∨ ∃ rest, after = rest ++ [x] ∧ xs = before ++ y :: rest
  := by
  constructor
  · intro h
    rcases List.eq_nil_or_concat' after with rfl | ⟨rest, z, rfl⟩
    · apply Or.inl
      simpa using h
    · apply Or.inr
      rw [← List.cons_append, ← List.append_assoc] at h
      obtain ⟨hxs, hx⟩ := List.append_inj' h rfl
      obtain rfl : x = z := by simpa using hx
      use rest
  · rintro (⟨rfl, rfl, rfl⟩ | ⟨rest, rfl, rfl⟩)
    · rfl
    · simp

theorem since_concat :
  Since begins ends (xs ++ [x]) ↔ begins xs x ∨ Since begins ends xs ∧ ¬ ends xs x
  := by
  constructor
  · rintro ⟨before, y, after, hxs, hbegins, hlasts⟩
    rcases concat_eq_append_cons_iff.1 hxs with ⟨rfl, rfl, rfl⟩ | ⟨rest, rfl, rfl⟩
    · apply Or.inl hbegins
    · apply Or.inr
      constructor
      · refine ⟨before, y, rest, rfl, hbegins, ?_⟩
        intro mid z rest' hrest
        apply hlasts mid z (rest' ++ [x])
        rw [hrest, List.append_assoc, List.cons_append]
      · apply hlasts rest x [] rfl
  · rintro (hbegins | ⟨⟨before, y, after, rfl, hbegins, hlasts⟩, hends⟩)
    · refine ⟨xs, x, [], rfl, hbegins, ?_⟩
      intro mid z rest hnil
      simp at hnil
    · refine ⟨before, y, after ++ [x], by simp, hbegins, ?_⟩
      intro mid z rest hafter
      rcases concat_eq_append_cons_iff.1 hafter with ⟨rfl, rfl, rfl⟩ | ⟨rest', rfl, rfl⟩
      · apply hends
      · apply hlasts mid z rest' rfl

end Since

/-! ### Histories -/

/-- The changes that an empty store has gone through. -/
abbrev History := List Change

namespace History

variable {history : History} {change : Change} {place : Place} {path : Path}
  {content : List UInt8}

/-- A place was denied to readers. -/
def Denied (history : History) (place : Place) : Prop :=
  ∃ change ∈ history, change.Denies place

/-- A place was locked. -/
def Locked (history : History) (place : Place) : Prop :=
  ∃ change ∈ history, change.Locks place

/-- A file was added directly in a place. -/
def AddedIn (history : History) (folder : Place) : Prop :=
  ∃ change ∈ history, change.AddsIn folder

/-- The content that was put at a place last, if nothing was taken away from there since. -/
def LastPut (history : History) (place : Place) (content : List UInt8) : Prop :=
  Since (fun _ change => change.Puts place content)
    (fun before change => change.TakesAway place (Locked before place)
      ∨ ∃ other, change.Puts place other) history

/-- The path under which a file was added where there was none, if nothing was taken away from
there since. -/
def CreatedAs (history : History) (path : Path) : Prop :=
  Since (fun before change => change.AddsAs path ∧ ∀ content, ¬ LastPut before path.place content)
    (fun before change => change.TakesAway path.place (Locked before path.place)) history

theorem denied_concat :
  Denied (history ++ [change]) place ↔ history.Denied place ∨ change.Denies place
  := by
  simp [Denied, or_and_right, exists_or]

theorem locked_concat :
  Locked (history ++ [change]) place ↔ history.Locked place ∨ change.Locks place
  := by
  simp [Locked, or_and_right, exists_or]

theorem addedIn_concat :
  AddedIn (history ++ [change]) place ↔ history.AddedIn place ∨ change.AddsIn place
  := by
  simp [AddedIn, or_and_right, exists_or]

theorem lastPut_concat :
  LastPut (history ++ [change]) place content
    ↔ change.Puts place content
      ∨ history.LastPut place content
        ∧ ¬ (change.TakesAway place (history.Locked place) ∨ ∃ other, change.Puts place other)
  := since_concat

theorem createdAs_concat :
  CreatedAs (history ++ [change]) path
    ↔ (change.AddsAs path ∧ ∀ content, ¬ history.LastPut path.place content)
      ∨ history.CreatedAs path ∧ ¬ change.TakesAway path.place (history.Locked path.place)
  := since_concat

end History

namespace Memory

variable {m : Memory} {history : History} {change : Change} {place : Place} {path : Path}
  {content : List UInt8}

/-! ### What a store remembers -/

/-- What a store consists of is told from a history. -/
structure Remembers (m : Memory) (history : History) : Prop where
  denied (place : Place) : place ∈ m.denied ↔ history.Denied place
  locked (place : Place) : place ∈ m.locked ↔ history.Locked place
  folders (place : Place) : place ∈ m.folders ↔ history.AddedIn place
  content (place : Place) (content : List UInt8) :
    m.files.find? place = some content ↔ history.LastPut place content
  path (path : Path) : path ∈ m.files.paths ↔ history.CreatedAs path
  regardsCase : m.ignoresCase = false

theorem remembers_nil :
  ({} : Memory).Remembers []
  := by
  constructor
  case denied => simp [History.Denied]
  case locked => simp [History.Locked]
  case folders => simp [History.AddedIn]
  case content => simp [Shelf.find?, Shelf.empty, History.LastPut, not_since_nil]
  case path => simp [Shelf.paths, Shelf.empty, History.CreatedAs, not_since_nil]
  case regardsCase => rfl

theorem Remembers.find?_eq_none_iff (h : m.Remembers history) :
  m.files.find? place = none ↔ ∀ content, ¬ history.LastPut place content
  := by
  simp only [← h.content, Option.eq_none_iff_forall_ne_some]

theorem Remembers.after_change (h : m.Remembers history) (hchange : change ≠ .ignoreCase) :
  (m.change change).Remembers (history ++ [change])
  := by
  constructor
  case denied =>
    intro place
    rw [mem_denied_change, History.denied_concat, h.denied]
  case locked =>
    intro place
    rw [mem_locked_change, History.locked_concat, h.locked]
  case folders =>
    intro place
    rw [mem_folders_change, History.addedIn_concat, h.folders]
  case content =>
    intro place content
    rw [find?_change_iff, History.lastPut_concat, h.content, h.locked]
  case path =>
    intro path
    rw [mem_paths_change_iff, History.createdAs_concat, h.path, h.locked,
      h.find?_eq_none_iff]
  case regardsCase =>
    rw [ignoresCase_change hchange, h.regardsCase]

theorem remembers_after (h : .ignoreCase ∉ history) :
  (({} : Memory).after history).Remembers history
  := by
  induction history using List.reverseRecOn with
  | nil => apply remembers_nil
  | append_singleton history change ih =>
    rw [List.mem_append, not_or] at h
    rw [after, List.foldl_concat]
    apply (ih h.1).after_change
    rintro rfl
    simp at h

/-! ### The store as a finite map -/

/-- The answers of a store are those of a finite map from places to contents with a history. -/
structure MapsPlaces (m : Memory) (history : History) : Prop where
  /-- No two stored paths mean the same place. -/
  distinct : (m.files.paths.map Path.place).Nodup
  /-- A stored path is spelled as when the file was created. -/
  stored (path : Path) : path ∈ m.files.paths ↔ history.CreatedAs path
  read_denied (path : Path) (h : history.Denied path.place) : m.read path = .error (.denied path)
  read_found (path : Path) (content : List UInt8) (h : ¬ history.Denied path.place)
    (hput : history.LastPut path.place content) : m.read path = .ok content
  read_missing (path : Path) (h : ¬ history.Denied path.place)
    (hput : ∀ content, ¬ history.LastPut path.place content) :
    m.read path = .error (.notFound path)
  list_missing (folder : Path) (h : ¬ history.AddedIn folder.place) :
    m.list folder = .error (.notFound folder)
  /-- A folder lists the stored paths that lie directly in it, one place after another. -/
  list_found (folder : Path) (h : history.AddedIn folder.place) :
    ∃ paths, m.list folder = .ok paths ∧ (paths.Pairwise fun p q => p.place.Before q.place)
      ∧ ∀ path, path ∈ paths ↔ path ∈ m.files.paths ∧ path.parent? = some folder.place
  remove_locked (path : Path) (h : history.Locked path.place) :
    m.remove path = (.error (.denied path), m)
  remove_missing (path : Path) (h : ¬ history.Locked path.place)
    (hput : ∀ content, ¬ history.LastPut path.place content) :
    m.remove path = (.error (.notFound path), m)
  /-- A removal that succeeds takes away one entry, and nothing else changes. -/
  remove_found (path : Path) (content : List UInt8) (h : ¬ history.Locked path.place)
    (hput : history.LastPut path.place content) :
    ∃ front stored back files, m.files.entries = front ++ (stored, content) :: back
      ∧ stored.place = path.place ∧ files.entries = front ++ back
      ∧ m.remove path = (.ok (), { m with files })

theorem Remembers.mapsPlaces (h : m.Remembers history) :
  m.MapsPlaces history
  := by
  have hlocked (path : Path) : m.locked.contains path.place = true ↔ history.Locked path.place := by
    rw [List.contains_iff_mem, h.locked]
  have hdenied (path : Path) : m.denied.contains path.place = true ↔ history.Denied path.place := by
    rw [List.contains_iff_mem, h.denied]
  have hfolder (folder : Path) : m.isFolder folder = true ↔ history.AddedIn folder.place := by
    rw [isFolder, List.contains_iff_mem, h.folders]
  constructor
  case distinct =>
    rw [Shelf.paths, List.map_map]
    apply Shelf.nodup_places
  case stored => apply h.path
  case read_denied =>
    intro path hpath
    rw [read, if_pos ((hdenied path).2 hpath)]
  case read_found =>
    intro path content hpath hput
    have hfound : m.find? path = some content := by
      simpa [find?, h.regardsCase] using (h.content path.place content).2 hput
    rw [read, if_neg (mt (hdenied path).1 hpath), hfound]
  case read_missing =>
    intro path hpath hput
    have hfound : m.find? path = none := by
      simpa [find?, h.regardsCase] using h.find?_eq_none_iff.2 hput
    rw [read, if_neg (mt (hdenied path).1 hpath), hfound]
  case list_missing =>
    intro folder hadded
    rw [list, if_neg (mt (hfolder folder).1 hadded)]
  case list_found =>
    intro folder hadded
    refine ⟨_, if_pos ((hfolder folder).2 hadded), ?_, ?_⟩
    · apply m.files.paths_ordered.filter
    · simp
  case remove_locked =>
    intro path hpath
    rw [remove, if_pos ((hlocked path).2 hpath)]
  case remove_missing =>
    intro path hpath hput
    rw [remove, if_neg (mt (hlocked path).1 hpath), h.find?_eq_none_iff.2 hput]
  case remove_found =>
    intro path content hpath hput
    have hfound := (h.content path.place content).2 hput
    obtain ⟨stored, hmem, hplace⟩ := Shelf.find?_eq_some_iff.1 hfound
    obtain ⟨front, back, hentries⟩ := List.append_of_mem hmem
    refine ⟨front, stored, back, m.files.erase path.place, hentries, hplace, ?_, ?_⟩
    · rw [← hplace]
      apply Shelf.entries_erase hentries
    · rw [remove, if_neg (mt (hlocked path).1 hpath), hfound]
      rfl

/-- After any changes, as long as letter case is regarded, a store is the finite map from places
to contents that the history of these changes tells. -/
theorem mapsPlaces_after (history : History) (h : .ignoreCase ∉ history) :
  (({} : Memory).after history).MapsPlaces history
  := (remembers_after h).mapsPlaces

/-- A file is added, its content is replaced under another spelling, and it is locked, so that it
is not removed.  Another file is added, removed and added once more; a path that begins with a
dot is not its path. -/
def respelled : History :=
  [.add (.ofString "jobs//A.JBI") (Text.toBytes "OLD"),
    .add (.ofString "jobs/./A.JBI") (Text.toBytes "NEW"),
    .lock (.ofString "jobs/A.JBI/"),
    .remove (.ofString "jobs/A.JBI"),
    .add (.ofString "jobs/B.JBI") [],
    .discard (.ofString "./jobs/B.JBI"),
    .remove (.ofString "jobs//B.JBI/"),
    .add (.ofString "jobs//B.JBI") []]

/-- The locked file has the content that was put last and is spelled as when it was first added;
the other file is spelled as when it was added once more. -/
theorem mapsPlaces_after_respelled :
  .ignoreCase ∉ respelled
    ∧ respelled.LastPut (Path.ofString "jobs/A.JBI").place (Text.toBytes "NEW")
    ∧ (({} : Memory).after respelled).read (.ofString "jobs/A.JBI") = .ok (Text.toBytes "NEW")
    ∧ (({} : Memory).after respelled).list (.ofString "jobs")
      = .ok [.ofString "jobs//A.JBI", .ofString "jobs//B.JBI"]
    ∧ respelled.CreatedAs (.ofString "jobs//B.JBI")
  := by
  have hcase : .ignoreCase ∉ respelled := by simp [respelled]
  have hmaps := mapsPlaces_after respelled hcase
  have hput : respelled.LastPut (Path.ofString "jobs/A.JBI").place (Text.toBytes "NEW") := by
    apply ((remembers_after hcase).content _ _).1
    decide
  refine ⟨hcase, hput, ?_, rfl, ?_⟩
  · apply hmaps.read_found _ _ _ hput
    simp [respelled, History.Denied, Change.Denies]
  · apply (hmaps.stored _).1
    decide

end Memory

end RobotJobs
