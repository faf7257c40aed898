import Codeflux.Domain.Failure

/-!
# Textual patches

A patch names a file and lists hunks. The parser reads it line by line, and first asks whether the
line without its surrounding spaces looks like a line of the envelope, only then whether it is one
of the current hunk. Texts are lists of runes, and lines are texts without newlines.
-/

namespace Codeflux.Executor

open Library Go

/-- The runes of a text. -/
abbrev Chars := List Char

/-- One contiguous change with the context that locates it. -/
structure PatchHunk where
  /-- Context lines and removed lines, in order. -/
  before : Chars
  /-- Context lines and added lines, in order. -/
  after : Chars
  (added removed : Nat)
  /-- The number of context lines that are not blank. -/
  context : Nat
  /-- Text of the file this hunk is inside. -/
  anchor : Chars

/-- One textual patch against one file. -/
structure PatchRequest where
  path : Chars
  hunks : List PatchHunk

/-- Does `s` start with the text `p`? -/
def startsWith (p : String) (s : Chars) : Bool := p.toList.isPrefixOf s

/-- `strings.TrimPrefix`. -/
def trimPrefix (p : String) (s : Chars) : Chars :=
  if startsWith p s then s.drop p.toList.length else s

/-- `strings.TrimRight(s, " \\t")`. -/
def trimRightBlanks (s : Chars) : Chars :=
  (s.reverse.dropWhile fun c => c = ' ' ∨ c = '\t').reverse

/-- The text after the first occurrence of `p`, if there is one. -/
def afterFirst (p : String) : Chars → Option Chars
  | [] => if p = "" then some [] else none
  | s@(_ :: rest) => if startsWith p s then some (s.drop p.toList.length) else afterFirst p rest

/-- `strings.ReplaceAll(raw, "\\r\\n", "\\n")`. -/
def replaceCRLF : Chars → Chars
  | '\r' :: '\n' :: rest => '\n' :: replaceCRLF rest
  | c :: rest => c :: replaceCRLF rest
  | [] => []

/-- `strings.Join(lines, "\\n")`. -/
def joinLines (lines : List Chars) : Chars := ['\n'].intercalate lines

/-! ### Lines of the envelope -/

/-- The lines that name a file. -/
def fileHeaders : List String := ["*** Update File:", "*** Add File:", "--- ", "+++ "]

/-- `patchHeaderPath`: the file a header line names. -/
def patchHeaderPath (line : Chars) : Chars :=
  match ["*** Update File:", "*** Add File:", "+++ ", "--- "].find? (startsWith · line) with
  | none => []
  | some header =>
    let named := trimPrefix "b/" (trimPrefix "a/" (trimChars (trimPrefix header line)))
    if named = "/dev/null".toList then [] else named

/-- `hunkHeaderAnchor`: the text of the file that a hunk marker names. -/
def hunkHeaderAnchor (line : Chars) : Chars :=
  let rest := trimChars (trimPrefix "@@" (trimChars line))
  match afterFirst "@@" rest with
  | some heading => trimRightBlanks (trimPrefix " " heading)
  | none => if startsWith "-" rest || startsWith "+" rest then [] else trimRightBlanks rest

/-! ### The parser -/

/-- The state of the parser. -/
structure PatchState where
  path : Chars
  alsoNamed : List Chars
  hunks : List PatchHunk
  current : Option PatchHunk
  (before after : List Chars)
  ended : Bool

namespace PatchState

/-- The parser before the first line. -/
def initial : PatchState := ⟨[], [], [], none, [], [], false⟩

/-- The current hunk is complete. -/
def closeHunk (st : PatchState) : PatchState :=
  match st.current with
  | none => st
  | some hunk =>
    { st with
      hunks := st.hunks ++
        [{ hunk with before := joinLines st.before, after := joinLines st.after }]
      current := none
      before := []
      after := [] }

/-- A line that names a file. The first one names the file of the patch. -/
def nameFile (st : PatchState) (named : Chars) : PatchState :=
  if named = [] then st
  else if st.path = [] then { st with path := named }
  else if named = st.path then st
  else { st with alsoNamed := st.alsoNamed ++ [named] }

/-- A line is context if it is not blank. -/
def countContext (hunk : PatchHunk) (line : Chars) : PatchHunk :=
  if trimChars line = [] then hunk else { hunk with context := hunk.context + 1 }

/-- A line of the current hunk. A line without a prefix is context written without its space. -/
def hunkLine (st : PatchState) (hunk : PatchHunk) : Chars → PatchState
  | '-' :: text =>
    { st with
      before := st.before ++ [text]
      current := some { hunk with removed := hunk.removed + 1 } }
  | '+' :: text =>
    { st with
      after := st.after ++ [text]
      current := some { hunk with added := hunk.added + 1 } }
  | ' ' :: text =>
    { st with
      before := st.before ++ [text]
      after := st.after ++ [text]
      current := some (countContext hunk text) }
  | line =>
    { st with
      before := st.before ++ [line]
      after := st.after ++ [line]
      current := some (countContext hunk line) }

/-- One line of the patch. -/
def parseLine (st : PatchState) (line : Chars) : PatchState :=
  let trimmed := trimChars line
  if fileHeaders.any (startsWith · trimmed) then
    nameFile { st.closeHunk with ended := false } (patchHeaderPath trimmed)
  else if startsWith "*** Begin Patch" trimmed then { st.closeHunk with ended := false }
  else if startsWith "*** End Patch" trimmed then { st.closeHunk with ended := true }
  else if startsWith "diff --git" trimmed || startsWith "index " trimmed then st
  else if st.ended then st
  else if startsWith "@@" trimmed then
    { st.closeHunk with current := some ⟨[], [], 0, 0, 0, hunkHeaderAnchor trimmed⟩ }
  else match st.current with
    | none => st
    | some hunk => hunkLine st hunk line

end PatchState

/-- Drops hunks without a change. The last such hunk before a change anchors it, unless the change
has an anchor of its own. -/
def changingHunks : Chars → List PatchHunk → List PatchHunk
  | _, [] => []
  | pending, hunk :: rest =>
    if hunk.added = 0 ∧ hunk.removed = 0 then
      changingHunks (if trimChars hunk.before = [] then pending else hunk.before) rest
    else
      { hunk with anchor := if hunk.anchor = [] then pending else hunk.anchor } ::
        changingHunks [] rest

/-- Does the hunk add lines without saying where? -/
def PatchHunk.Unplaced (hunk : PatchHunk) : Prop := trimChars hunk.before = [] ∧ hunk.removed = 0

instance (hunk : PatchHunk) : Decidable hunk.Unplaced := inferInstanceAs (Decidable (_ ∧ _))

/-- The checks on the whole request. -/
def checkPatch (st : PatchState) : Result PatchRequest := do
  ensure (st.alsoNamed = [])
    (.new ("this patch changes more than one file: " ++ String.ofList st.path ++ " and " ++
      ", ".intercalate (st.alsoNamed.map String.ofList) ++ ". Send one apply-patch call per file" ++
      ", each with its own \"*** Update File: <path>\" header and only that file's hunks"))
  ensure (trimChars st.path ≠ [])
    (.new ("the patch names no file: begin it with \"*** Update File: <path>\""))
  ensure (st.hunks ≠ [])
    (.new ("the patch has no hunks in it: mark each change with a line reading \"@@\", then the " ++
      "lines to remove prefixed \"-\", the lines to add prefixed \"+\", and enough unprefixed " ++
      "lines around them to say where the change goes"))
  let changing := changingHunks [] st.hunks
  ensure (changing ≠ [])
    (.new ("every hunk in this patch is context: none of them has a line prefixed \"+\" or \"-\"" ++
      ", so it describes the file without changing it"))
  match changing.findIdx? (fun hunk => hunk.Unplaced) with
  | some index =>
    .error (.new ("hunk " ++ toString (index + 1) ++ " adds lines with no context, so it does " ++
      "not say where they go. Include the unprefixed lines it belongs after"))
  | none => pure ⟨st.path, changing⟩

/-- `ParsePatch`. -/
def parsePatch (raw : Chars) : Result PatchRequest :=
  checkPatch
    (((replaceCRLF raw).splitOn '\n').foldl PatchState.parseLine PatchState.initial).closeHunk

end Codeflux.Executor
