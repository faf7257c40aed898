import Codeflux.Domain.Failure
import Codeflux.Go.Bytes
import Codeflux.Go.Path
import Codeflux.Library.Effect

/-!
# A task worktree under interference

The service works on a map from paths to files in atomic steps, each of which takes effect or fails
without effect. Before every step an external writer may change any paths. What the writer does and
which steps fail is a schedule that the code does not see.
-/

namespace Codeflux.Gitwork

open Library Go

/-- A regular file: its bytes and its permission bits. -/
structure File where
  content : Bytes
  mode : Nat
deriving DecidableEq

/-- The files of a worktree by their relative path. -/
abbrev Tree := String → Option File

/-- What happens around one atomic step: the writes of the external writer before it, and the error
it fails with, if it does. -/
structure Moment where
  writes : List (String × Option File)
  fault : Option Failure

/-- The moment of a step. A schedule that ended has no interference and no faults left. -/
def momentAt (schedule : List Moment) (step : Nat) : Moment := schedule.getD step ⟨[], none⟩

/-- What writes make of a worktree. -/
def interfere (tree : Tree) (writes : List (String × Option File)) : Tree :=
  writes.foldl (fun tree write => Function.update tree write.1 write.2) tree

/-- What the external writer alone makes of a worktree from step `first` on, before step `last`. -/
def written (schedule : List Moment) (first : Nat) (tree : Tree) : Nat → Tree
  | 0 => tree
  | last + 1 =>
    if first ≤ last then
      interfere (written schedule first tree last) (momentAt schedule last).writes
    else tree

/-- The external writer writes a path from step `first` on, before step `last`. -/
def Writes (schedule : List Moment) (path : String) (first last : Nat) : Prop :=
  ∃ step < last, first ≤ step ∧ path ∈ (momentAt schedule step).writes.map Prod.fst

instance (schedule : List Moment) (path : String) (first last : Nat) :
    Decidable (Writes schedule path first last) :=
  inferInstanceAs (Decidable (∃ step < last, _))

section Written

variable {schedule : List Moment} {path : String} {first middle last : Nat} {tree other : Tree}

theorem interfere_eq_iff (writes : List (String × Option File)) :
    interfere tree writes path = interfere other writes path ↔
      path ∈ writes.map Prod.fst ∨ tree path = other path := by
  induction writes generalizing tree other with
  | nil => simp [interfere]
  | cons write writes ih =>
    refine ih.trans ?_
    by_cases hpath : path = write.1
    · simp [hpath]
    · simp [hpath]

theorem interfere_of_notMem {writes : List (String × Option File)}
    (h : path ∉ writes.map Prod.fst) : interfere tree writes path = tree path := by
  induction writes generalizing tree with
  | nil => rfl
  | cons write writes ih =>
    rw [List.map_cons, List.mem_cons, not_or] at h
    exact (ih h.2).trans (Function.update_of_ne h.1 _ _)

theorem written_eq_iff :
    written schedule first tree last path = written schedule first other last path ↔
      Writes schedule path first last ∨ tree path = other path := by
  induction last with
  | zero => simp [written, Writes]
  | succ last ih =>
    unfold written
    split_ifs with hfirst
    · rw [interfere_eq_iff, ih, ← or_assoc]
      refine or_congr_left ⟨?_, ?_⟩
      · rintro (hpath | ⟨step, hstep, hwrites⟩)
        · exact ⟨last, last.lt_succ_self, hfirst, hpath⟩
        · exact ⟨step, hstep.trans last.lt_succ_self, hwrites⟩
      · rintro ⟨step, hstep, hle, hpath⟩
        rcases (Nat.lt_succ_iff.1 hstep).eq_or_lt with rfl | hlt
        · exact .inl hpath
        · exact .inr ⟨step, hlt, hle, hpath⟩
    · refine (or_iff_right ?_).symm
      rintro ⟨step, hstep, hle, -⟩
      omega

theorem written_congr (h : tree path = other path) :
    written schedule first tree last path = written schedule first other last path :=
  written_eq_iff.2 (.inr h)

theorem written_self : written schedule first tree first = tree := by
  cases first with
  | zero => rfl
  | succ first => exact if_neg first.not_succ_le_self

theorem written_of_not_writes (h : ¬Writes schedule path first last) :
    written schedule first tree last path = tree path := by
  induction last with
  | zero => rfl
  | succ last ih =>
    unfold written
    split_ifs with hfirst
    · have hrest : ¬Writes schedule path first last := by
        rintro ⟨step, hstep, hwrites⟩
        exact h ⟨step, hstep.trans last.lt_succ_self, hwrites⟩
      have hpath : path ∉ (momentAt schedule last).writes.map Prod.fst := fun hpath =>
        h ⟨last, last.lt_succ_self, hfirst, hpath⟩
      rw [← ih hrest]
      exact interfere_of_notMem hpath
    · rfl

theorem written_written (hfirst : first ≤ middle) (hmiddle : middle ≤ last) :
    written schedule middle (written schedule first tree middle) last =
      written schedule first tree last := by
  induction last, hmiddle using Nat.le_induction with
  | base => exact written_self
  | succ last hmiddle ih => rw [written, written, if_pos hmiddle, if_pos (hfirst.trans hmiddle), ih]

end Written

/-- The worktree, the moments of all steps and the number of steps taken. -/
structure World where
  tree : Tree
  schedule : List Moment
  clock : Nat

namespace World

/-- A worktree before the first step. -/
def start (tree : Tree) (schedule : List Moment) : World := ⟨tree, schedule, 0⟩

/-- Puts a file at a path, or none. -/
def put (path : String) (file : Option File) (w : World) : World :=
  { w with tree := Function.update w.tree path file }

/-- The moment of the next step. -/
def moment (w : World) : Moment := momentAt w.schedule w.clock

/-- The world the next step finds. -/
def advance (w : World) : World :=
  { w with tree := interfere w.tree w.moment.writes, clock := w.clock + 1 }

end World

/-- One atomic step of the service: after the external writer it fails, or takes effect. -/
def fileStep {α : Type} (body : World → Result α × World) : Effect World Failure α := fun w =>
  match w.moment.fault with
  | some e => (.error e, w.advance)
  | none => body w.advance

theorem fileStep_triple {α : Type} {P : World → Prop} {Q : α → World → Prop}
    {E : Failure → World → Prop} {body : World → Result α × World}
    (hfault : ∀ e w, P w → E e w.advance) (hbody : ∀ w, P w → Ends Q E (body w.advance)) :
    Triple P (fileStep body) Q E := by
  intro w hw
  unfold fileStep
  cases w.moment.fault with
  | none => exact hbody w hw
  | some e => exact hfault e w hw

/-- `ErrUnsafeTaskPath`. -/
def errUnsafeTaskPath : Failure := .new "unsafe task path"

/-- `ErrUnsupportedBinary`. -/
def errUnsupportedBinary : Failure := .new "unsupported binary edit"

/-- `ErrEditConflict`. -/
def errEditConflict : Failure := .new "file changed since it was read"

/-- `ErrApprovalRequired`. -/
def errApprovalRequired : Failure := .new "edit requires higher-risk approval"

/-- `os.ErrNotExist`. -/
def errNotExist : Failure := .new "file does not exist"

/-- The largest file an edit may touch. -/
def maximumEditableFileBytes : Nat := 2 * 2 ^ 20

/-- The states of a worktree binding. -/
inductive WorktreeBindingState
  | active | released | recoveryRequired
deriving DecidableEq

/-- `ResolveTaskPath` in a worktree that is a map from paths to files: its check of the text. Such
a worktree has no links, so the walk over the directories finds none; a link that is made while it
goes on is outside this model. -/
def resolveTaskPath (binding : WorktreeBindingState) (relativePath : String) : Result String := do
  ensure (binding = .active) (.new "task worktree is not active")
  ensure (relativePath ≠ "" ∧ relativePath = trimSpace relativePath ∧
    '\\' ∉ relativePath.toList ∧ ¬isAbs relativePath ∧
    (bytes relativePath)[1]? ≠ some 0x3A) errUnsafeTaskPath
  ensure (clean relativePath = relativePath ∧ clean relativePath ≠ "." ∧
    clean relativePath ≠ ".." ∧ ¬hasPrefix (clean relativePath) "../") errUnsafeTaskPath
  pure (clean relativePath)

theorem resolveTaskPath_ok {binding : WorktreeBindingState} {path resolved : String}
    (h : resolveTaskPath binding path = .ok resolved) : resolved = path := by
  simp only [resolveTaskPath, run_ok_iff] at h
  obtain ⟨_, _, _, _, _, hclean, rfl⟩ := h
  exact hclean.1

/-- The newline style of a content. -/
inductive NewlineStyle
  | lf | crlf
deriving DecidableEq

/-- A content with one CRLF counts as CRLF. -/
def newlineStyle (content : Bytes) : NewlineStyle :=
  if contains content [0x0D, 0x0A] then .crlf else .lf

/-- The expected-content precondition for one path. A path without a file has no digest and no
newline style. -/
structure FileSnapshot where
  path : String
  present : Bool
  content : Bytes
  sha256 : String
  mode : Nat
  newlines : Option NewlineStyle
deriving DecidableEq

/-- The snapshot of a path without a file. -/
def FileSnapshot.absent (path : String) : FileSnapshot := ⟨path, false, [], "", 0, none⟩

/-- The file a snapshot was taken of. -/
def FileSnapshot.file (snapshot : FileSnapshot) : Option File :=
  if snapshot.present then some ⟨snapshot.content, snapshot.mode⟩ else none

/-- Whether a content can be edited: bounded, valid UTF-8 and without NUL. -/
def Editable (content : Bytes) : Prop :=
  content.length ≤ maximumEditableFileBytes ∧ validUTF8 content = true ∧ 0 ∉ content

instance (content : Bytes) : Decidable (Editable content) :=
  inferInstanceAs (Decidable (_ ∧ _))

section Digest

variable (sha256 : Bytes → String)

/-- The snapshot of what is at a path. -/
def snapshotOf (path : String) : Option File → Result FileSnapshot
  | none => .ok (.absent path)
  | some file =>
    if Editable file.content then
      .ok ⟨path, true, file.content, sha256 file.content, file.mode,
        some (newlineStyle file.content)⟩
    else .error errUnsupportedBinary

theorem snapshotOf_file {path : String} {file : Option File} {snapshot : FileSnapshot}
    (h : snapshotOf sha256 path file = .ok snapshot) : snapshot.file = file := by
  cases file with
  | none =>
    obtain rfl : FileSnapshot.absent path = snapshot := by simpa [snapshotOf] using h
    rfl
  | some file =>
    simp only [snapshotOf] at h
    split_ifs at h
    obtain rfl := Except.ok.inj h
    rfl

/-- `ReadFileAtRevision`: one bounded snapshot. -/
def readFileAtRevision (binding : WorktreeBindingState) (path : String) :
    Effect World Failure FileSnapshot :=
  fileStep fun w => (do snapshotOf sha256 (← resolveTaskPath binding path) (w.tree path), w)

end Digest

/-- `DetectConcurrentUserChanges`: a different path, existence or digest. -/
def detectConcurrentUserChanges (before current : FileSnapshot) : Bool :=
  before.path != current.path || before.present != current.present ||
    before.sha256 != current.sha256

end Codeflux.Gitwork
