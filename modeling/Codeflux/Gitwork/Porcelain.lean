import Codeflux.Go.Bytes

/-!
# The paths of a Git status

`git status --porcelain=v1 -z` ends each field with a zero byte; after a rename the old path follows
in a field of its own. The parser drops three bytes of every field, and everything through the first
arrow, which belongs to the format without `-z`.
-/

namespace Codeflux.Gitwork

open Go List

/-- The arrow between two paths. -/
def arrow : Bytes := [0x20, 0x2D, 0x3E, 0x20]

/-- What follows the first arrow of a path. -/
def afterArrow : Bytes → Option Bytes
  | [] => none
  | b :: rest =>
    if arrow.isPrefixOf (b :: rest) then some ((b :: rest).drop 4) else afterArrow rest

/-- The path that a field is read as. Where the separator is the slash, `filepath.ToSlash` changes
nothing. -/
def fieldPath (field : Bytes) : Option Bytes :=
  if field.length < 4 then none else some ((afterArrow (field.drop 3)).getD (field.drop 3))

/-- The paths of a status. -/
def parsePorcelainPaths (status : Bytes) : List Bytes := (status.splitOn 0).filterMap fieldPath

/-- An entry of a status: its two letters, its path, and the old path of a rename or a copy. -/
structure StatusEntry where
  (index worktree : UInt8)
  path : Bytes
  oldPath : Option Bytes
  letters : index ≠ 0 ∧ worktree ≠ 0
  path_ok : path ≠ [] ∧ 0 ∉ path
  oldPath_ok : ∀ old ∈ oldPath, old ≠ [] ∧ 0 ∉ old

namespace StatusEntry

/-- The fields that Git prints for an entry. -/
def fields (entry : StatusEntry) : List Bytes :=
  (entry.index :: entry.worktree :: 0x20 :: entry.path) :: entry.oldPath.toList

/-- What the parser reports for an entry. -/
def reported (entry : StatusEntry) : List Bytes :=
  (afterArrow entry.path).getD entry.path :: entry.oldPath.toList.filterMap fieldPath

/-- What is reported in place of a path: the rest of a new path after its arrow, and the rest of an
old path. -/
def strays (entry : StatusEntry) : List Bytes :=
  (afterArrow entry.path).toList ++ entry.oldPath.toList.filterMap fieldPath

theorem zero_not_mem_fields {entry : StatusEntry} : ∀ field ∈ entry.fields, 0 ∉ field := by
  intro field hfield
  rcases mem_cons.1 hfield with rfl | hold
  · simpa [eq_comm] using ⟨entry.letters.1, entry.letters.2, entry.path_ok.2⟩
  · exact (entry.oldPath_ok field (Option.mem_toList.1 hold)).2

theorem filterMap_fields (entry : StatusEntry) :
    entry.fields.filterMap fieldPath = entry.reported := by
  have hlength := length_pos_of_ne_nil entry.path_ok.1
  have hfield : ¬(entry.path.length + 1 + 1 + 1 < 4) := by omega
  simp [fields, reported, fieldPath, hfield]

theorem mem_reported_iff {entry : StatusEntry} {s : Bytes} :
    s ∈ entry.reported ↔ s ∈ entry.strays ∨ afterArrow entry.path = none ∧ s = entry.path := by
  unfold reported strays
  cases afterArrow entry.path <;> simp [or_comm]

end StatusEntry

/-- The output of `git status`: every field is ended by a zero byte. -/
def printStatus (entries : List StatusEntry) : Bytes :=
  (entries.flatMap StatusEntry.fields).flatMap (· ++ [0])

theorem splitOn_terminated {fields : List Bytes} (h : ∀ field ∈ fields, 0 ∉ field) :
    (fields.flatMap (· ++ [0])).splitOn 0 = fields ++ [[]] := by
  induction fields with
  | nil => rfl
  | cons field fields ih =>
    rw [forall_mem_cons] at h
    rw [flatMap_cons, append_assoc, singleton_append,
      splitOn_append_cons_self, splitOn_eq_singleton h.1, ih h.2]
    rfl

/-- **What the parser reports, entry by entry.** -/
theorem parsePorcelainPaths_printStatus (entries : List StatusEntry) :
    parsePorcelainPaths (printStatus entries) = entries.flatMap StatusEntry.reported := by
  have hzero : ∀ field ∈ entries.flatMap StatusEntry.fields, 0 ∉ field := fun field hfield => by
    obtain ⟨entry, _, hmem⟩ := mem_flatMap.1 hfield
    exact StatusEntry.zero_not_mem_fields field hmem
  rw [parsePorcelainPaths, printStatus, splitOn_terminated hzero, filterMap_append,
    filterMap_flatMap]
  simp [StatusEntry.filterMap_fields, fieldPath]

/-- The new path of every entry is reported, and nothing but new and old paths. -/
structure Faithful (entries : List StatusEntry) : Prop where
  complete : ∀ entry ∈ entries, entry.path ∈ parsePorcelainPaths (printStatus entries)
  sound : ∀ s ∈ parsePorcelainPaths (printStatus entries),
    ∃ entry ∈ entries, s = entry.path ∨ entry.oldPath = some s

/-- **When a status is read faithfully.** Every new path with an arrow is reported by chance, in
place of another path, and whatever is reported in place of a path is one. So it is when no new
path holds an arrow and no old path is longer than three bytes. -/
theorem porcelain_faithful_iff (entries : List StatusEntry) :
    Faithful entries ↔
      (∀ entry ∈ entries, afterArrow entry.path ≠ none →
        entry.path ∈ entries.flatMap StatusEntry.strays) ∧
      ∀ s ∈ entries.flatMap StatusEntry.strays,
        ∃ entry ∈ entries, s = entry.path ∨ entry.oldPath = some s := by
  have hmem : ∀ s, s ∈ parsePorcelainPaths (printStatus entries) ↔
      s ∈ entries.flatMap StatusEntry.strays ∨
        ∃ entry ∈ entries, afterArrow entry.path = none ∧ s = entry.path := by
    intro s
    simp only [parsePorcelainPaths_printStatus, mem_flatMap, StatusEntry.mem_reported_iff,
      and_or_left, exists_or]
  constructor
  · rintro ⟨hcomplete, hsound⟩
    refine ⟨fun entry hentry harrow => ?_, fun s hs => hsound s ((hmem s).2 (.inl hs))⟩
    refine ((hmem _).1 (hcomplete entry hentry)).resolve_right ?_
    rintro ⟨other, _, hnone, hpath⟩
    exact harrow (hpath ▸ hnone)
  · rintro ⟨hcut, hstray⟩
    refine ⟨fun entry hentry => (hmem _).2 ?_, fun s hs => ?_⟩
    · by_cases harrow : afterArrow entry.path = none
      · exact .inr ⟨entry, hentry, harrow, rfl⟩
      · exact .inl (hcut entry hentry harrow)
    · rcases (hmem s).1 hs with hs | ⟨entry, hentry, _, rfl⟩
      · exact hstray s hs
      · exact ⟨entry, hentry, .inl rfl⟩

/-- The rename of `a.go` to `b.go`: the parser also reports `o`. -/
def renamedEntry : StatusEntry where
  index := 0x52
  worktree := 0x20
  path := [0x62, 0x2E, 0x67, 0x6F]
  oldPath := some [0x61, 0x2E, 0x67, 0x6F]
  letters := by decide
  path_ok := by decide
  oldPath_ok := by decide

theorem renamed_path_misread :
    parsePorcelainPaths (printStatus [renamedEntry]) = [renamedEntry.path, [0x6F]] ∧
      ¬Faithful [renamedEntry] := by
  have hparse : parsePorcelainPaths (printStatus [renamedEntry]) = [renamedEntry.path, [0x6F]] := by
    decide
  refine ⟨hparse, fun h => ?_⟩
  have hstray := h.sound [0x6F] (by rw [hparse]; simp)
  simp [renamedEntry] at hstray

end Codeflux.Gitwork
