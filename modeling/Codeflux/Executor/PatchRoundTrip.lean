import Codeflux.Executor.Patch
import Mathlib.Algebra.Order.BigOperators.Group.List

/-!
# What the patch parser reads back

A patch is written from a path and a list of hunks of tagged lines, and parsed again. A line of a
hunk that looks like a line of the envelope once its surrounding spaces are gone is captured, and
adds nothing to the hunks that are read.
-/

namespace Codeflux.Executor

open Library Go PatchHunk List

/-! ### Written patches -/

/-- What a hunk does with a line. -/
inductive LineTag
  | context
  | removed
  | added
deriving DecidableEq

/-- A line of a hunk. -/
structure PatchLine where
  tag : LineTag
  text : Chars

namespace PatchLine

/-- The line as it is written. -/
def render : PatchLine → Chars
  | ⟨.context, text⟩ => ' ' :: text
  | ⟨.removed, text⟩ => '-' :: text
  | ⟨.added, text⟩ => '+' :: text

end PatchLine

variable (hunk : List PatchLine)

/-- The lines of a hunk that the file has before the change. -/
def beforeLines : List Chars :=
  (hunk.filter (·.tag ≠ .added)).map (·.text)

/-- The lines of a hunk that the file has after the change. -/
def afterLines : List Chars :=
  (hunk.filter (·.tag ≠ .removed)).map (·.text)

/-- The number of lines with a tag. -/
def countTag (tag : LineTag) (hunk : List PatchLine) : Nat := hunk.countP (·.tag = tag)

/-- The context lines of a hunk that are not blank. -/
def contextLines : Nat :=
  hunk.countP fun line => line.tag = .context ∧ trimChars line.text ≠ []

/-- The hunk as the parser should read it. -/
def PatchHunk.ofLines : PatchHunk :=
  ⟨joinLines (beforeLines hunk), joinLines (afterLines hunk), countTag .added hunk,
    countTag .removed hunk, contextLines hunk, []⟩

/-- The lines of a patch after the one that names the file. -/
def hunkLines (hunks : List (List PatchLine)) : List Chars :=
  hunks.flatMap fun hunk => "@@".toList :: hunk.map PatchLine.render

/-- The line that names the file. -/
def headerLine (path : Chars) : Chars := "*** Update File: ".toList ++ path

/-- A patch of one file. -/
def renderPatch (path : Chars) (hunks : List (List PatchLine)) : Chars :=
  joinLines (headerLine path :: (hunkLines hunks ++ ["*** End Patch".toList]))

/-- A hunk that changes something and says where. -/
structure WellTagged (hunk : List PatchLine) : Prop where
  newline : ∀ line ∈ hunk, '\n' ∉ line.text
  carriage : ∀ line ∈ hunk, '\r' ∉ line.text
  changes : ∃ line ∈ hunk, line.tag ≠ .context
  placed : ∃ line ∈ hunk, line.tag ≠ .added ∧ trimChars line.text ≠ []

/-- The parsed hunk has the text and the counts of the written one. -/
structure Represents (parsed : PatchHunk) (hunk : List PatchLine) : Prop where
  before : parsed.before = joinLines (beforeLines hunk)
  after : parsed.after = joinLines (afterLines hunk)
  added : parsed.added = countTag .added hunk
  removed : parsed.removed = countTag .removed hunk

/-- The beginnings of the lines of the envelope. -/
def envelope : List String :=
  fileHeaders ++ ["*** Begin Patch", "*** End Patch", "diff --git", "index ", "@@"]

/-- The parser takes the line for one of the envelope. -/
def captured (line : Chars) : Bool := envelope.any (startsWith · (trimChars line))

/-- The path a header line is read as naming. -/
def headerPath (path : Chars) : Chars :=
  let named := trimPrefix "b/" (trimPrefix "a/" (trimChars path))
  if named = "/dev/null".toList then [] else named

/-- The path is left alone by the normalisation of header lines. -/
structure PathKept (path : Chars) : Prop where
  nonempty : path ≠ []
  trimmed : trimChars path = path
  old : startsWith "a/" path = false
  new : startsWith "b/" path = false
  device : path ≠ "/dev/null".toList

theorem beforeLines_length : (beforeLines hunk).length + countTag .added hunk = hunk.length := by
  induction hunk with
  | nil => rfl
  | cons line hunk ih =>
    by_cases h : line.tag = .added <;> simp [beforeLines, countTag, h] at ih ⊢ <;> omega

/-! ### The lines of a written patch -/

/-- A line without the carriage return at its end. -/
def chopCR : Chars → Chars
  | [] => []
  | ['\r'] => []
  | c :: rest => c :: chopCR rest

theorem chopCR_cons_cons (c d : Char) (s : Chars) :
    chopCR (c :: d :: s) = c :: chopCR (d :: s) := by
  simp [chopCR]

theorem chopCR_concat (s : Chars) (c : Char) :
    chopCR (s ++ [c]) = if c = '\r' then s else s ++ [c] := by
  induction s with
  | nil => by_cases hc : c = '\r' <;> simp [chopCR, hc]
  | cons d s ih =>
    obtain ⟨e, t, hs⟩ := exists_cons_of_ne_nil (concat_ne_nil c s : s ++ [c] ≠ [])
    rw [cons_append, hs, chopCR_cons_cons, ← hs, ih]
    split_ifs <;> rfl

theorem trimChars_chopCR (s : Chars) : trimChars (chopCR s) = trimChars s := by
  cases s using List.reverseRecOn with
  | nil => rfl
  | append_singleton s c =>
    rw [chopCR_concat]
    split_ifs with hc
    · rw [hc, trimChars_concat_space (by decide)]
    · rfl

variable {s line path : Chars} {c : Char} {lines : List Chars} {hunks : List (List PatchLine)}
  {hunk : List PatchLine} {p : String} {request : PatchRequest}

theorem mem_of_mem_chopCR (h : c ∈ chopCR s) : c ∈ s := by
  cases s using List.reverseRecOn with
  | nil => exact h
  | append_singleton s d =>
    rw [chopCR_concat] at h
    split_ifs at h with hd
    · exact mem_append_left _ h
    · exact h

theorem replaceCRLF_line (h : '\n' ∉ line) (rest : Chars) :
    replaceCRLF (line ++ '\n' :: rest) = chopCR line ++ '\n' :: replaceCRLF rest := by
  induction line with
  | nil => simp [replaceCRLF, chopCR]
  | cons c line ih =>
    have ih := ih (fun hmem => h (mem_cons_of_mem _ hmem))
    cases line with
    | nil =>
      by_cases hc : c = '\r'
      all_goals simp [replaceCRLF, chopCR, hc]
    | cons d line =>
      have hd : d ≠ '\n' := fun heq => h (by simp [heq])
      have hcons : ∀ tail, replaceCRLF (c :: d :: tail) = c :: replaceCRLF (d :: tail) := by
        intro tail
        rw [replaceCRLF]
        intro rest _ heq
        exact hd (List.cons.inj heq).1
      rw [cons_append, cons_append, hcons, ← cons_append, ih, chopCR_cons_cons,
        cons_append]

theorem replaceCRLF_of_not_mem (h : '\r' ∉ s) : replaceCRLF s = s := by
  induction s with
  | nil => rfl
  | cons c s ih =>
    rw [replaceCRLF, ih (fun hmem => h (mem_cons_of_mem _ hmem))]
    intro rest heq
    exact absurd (heq ▸ mem_cons_self) h

theorem joinLines_cons_cons (line next : Chars) (lines : List Chars) :
    joinLines (line :: next :: lines) = line ++ '\n' :: joinLines (next :: lines) := by
  rfl

theorem mem_joinLines_iff (hc : c ≠ '\n') : c ∈ joinLines lines ↔ ∃ line ∈ lines, c ∈ line := by
  induction lines with
  | nil => simp [joinLines]
  | cons line lines ih =>
    cases lines with
    | nil => simp [joinLines]
    | cons next lines =>
      rw [joinLines_cons_cons, exists_mem_cons_iff, ← ih]
      simp [hc]

/-- Splitting gives the written lines back, but for a carriage return at the end of the first. -/
theorem splitOn_replaceCRLF (hne : lines ≠ []) (hline : '\n' ∉ line)
    (hnewline : ∀ l ∈ lines, '\n' ∉ l) (hcarriage : ∀ l ∈ lines, '\r' ∉ l) :
    (replaceCRLF (joinLines (line :: lines))).splitOn '\n' = chopCR line :: lines := by
  obtain ⟨next, rest, rfl⟩ := exists_cons_of_ne_nil hne
  have hchop : replaceCRLF (joinLines (line :: next :: rest)) =
      joinLines (chopCR line :: next :: rest) := by
    rw [joinLines_cons_cons, replaceCRLF_line hline,
      replaceCRLF_of_not_mem (by simpa [mem_joinLines_iff] using hcarriage), joinLines_cons_cons]
  rw [hchop, joinLines, splitOn_intercalate]
  · intro l hl
    rcases mem_cons.1 hl with rfl | hl
    · exact fun h => hline (mem_of_mem_chopCR h)
    · exact hnewline l hl
  · simp

/-! ### Patches without captured lines -/

namespace PatchState

/-- The parser between two hunks. -/
def between (path : Chars) (hunks : List PatchHunk) (ended : Bool) : PatchState :=
  ⟨path, [], hunks, none, [], [], ended⟩

/-- The parser after these lines of a hunk. -/
def inHunk (st : PatchState) (hunk : List PatchLine) : PatchState :=
  { st with
    current := some ⟨[], [], countTag .added hunk, countTag .removed hunk, contextLines hunk, []⟩
    before := beforeLines hunk
    after := afterLines hunk }

theorem parseLine_of_not_captured (h : captured line = false) (st : PatchState) :
    st.parseLine line =
      if st.ended then st else st.current.elim st fun hunk => hunkLine st hunk line := by
  simp only [captured, envelope, any_append, Bool.or_eq_false_iff, any_cons,
    any_nil, Bool.or_false] at h
  obtain ⟨hfile, hbegin, hend, hdiff, hindex, hhunk⟩ := h
  simp only [parseLine, hfile, hbegin, hend, hdiff, hindex, hhunk, Bool.or_false,
    Bool.false_eq_true, if_false]
  cases st.current <;> rfl

variable {st : PatchState} {hunks : List PatchHunk}

theorem parseLine_inHunk {line : PatchLine} (hst : st.ended = false)
    (h : captured line.render = false) (hunk : List PatchLine) :
    (st.inHunk hunk).parseLine line.render = st.inHunk (hunk ++ [line]) := by
  have hended : (st.inHunk hunk).ended = false := hst
  rw [parseLine_of_not_captured h, hended]
  obtain ⟨tag, text⟩ := line
  cases tag with
  | context =>
    by_cases hblank : trimChars text = [] <;>
      simp [PatchLine.render, inHunk, hunkLine, countContext, hblank, countTag, contextLines,
        beforeLines, afterLines]
  | removed | added =>
    simp [PatchLine.render, inHunk, hunkLine, countTag, contextLines, beforeLines, afterLines]

theorem closeHunk_ended (st : PatchState) : st.closeHunk.ended = st.ended := by
  unfold closeHunk
  split <;> rfl

theorem ended_of_closeHunk {ended : Bool} (h : st.closeHunk = between path hunks ended) :
    st.ended = ended := by
  rw [← closeHunk_ended, h]
  rfl

theorem parseLine_marker (h : st.closeHunk = between path hunks false) :
    st.parseLine "@@".toList = (between path hunks false).inHunk [] := by
  have hmarker : st.parseLine "@@".toList =
      if st.ended then st
      else { st.closeHunk with current := some ⟨[], [], 0, 0, 0, []⟩ } := rfl
  rw [hmarker, ended_of_closeHunk h, h]
  rfl

theorem foldl_render (hst : st.ended = false) {lines : List PatchLine}
    (h : ∀ line ∈ lines, captured line.render = false) (hunk : List PatchLine) :
    (lines.map PatchLine.render).foldl parseLine (st.inHunk hunk) = st.inHunk (hunk ++ lines) := by
  induction lines generalizing hunk with
  | nil => simp
  | cons line lines ih =>
    rw [map_cons, foldl_cons, parseLine_inHunk hst (h line mem_cons_self),
      ih fun l hl => h l (mem_cons_of_mem _ hl), append_assoc]
    rfl

theorem foldl_hunks {written : List (List PatchLine)}
    (h : ∀ hunk ∈ written, ∀ line ∈ hunk, captured line.render = false)
    (hst : st.closeHunk = between path hunks false) :
    ((hunkLines written).foldl parseLine st).closeHunk =
      between path (hunks ++ written.map ofLines) false := by
  induction written generalizing st hunks with
  | nil => simpa [hunkLines] using hst
  | cons hunk written ih =>
    rw [hunkLines, flatMap_cons, ← hunkLines, foldl_append, foldl_cons,
      parseLine_marker hst, foldl_render rfl (h hunk mem_cons_self),
      nil_append, ih (fun hunk' hmem => h hunk' (mem_cons_of_mem _ hmem))
        (show _ = between path (hunks ++ [ofLines hunk]) false from rfl),
      append_assoc]
    rfl

end PatchState

theorem trimChars_headerLine (path : Chars) :
    trimChars (headerLine path) =
      "*** Update File:".toList ++ (' ' :: path).rdropWhile isSpace := by
  have hsplit : headerLine path = "*** Update File:".toList ++ ' ' :: path := rfl
  have hfirst : "*** Update File:".toList.head? = some '*' := rfl
  have hlast : "*** Update File:".toList.getLast? = some ':' := rfl
  rw [hsplit, trimChars_append hfirst hlast (by decide) (by decide)]

theorem parseLine_headerLine (h : trimChars line = trimChars (headerLine path)) :
    PatchState.initial.parseLine line = PatchState.between (headerPath path) [] false := by
  rw [trimChars_headerLine] at h
  have hstart : startsWith "*** Update File:" (trimChars line) = true := by
    rw [h, startsWith]
    exact isPrefixOf_iff_prefix.2 (prefix_append _ _)
  have hrest : trimPrefix "*** Update File:" (trimChars line) =
      (' ' :: path).rdropWhile isSpace := by
    rw [trimPrefix, if_pos hstart, h, drop_left]
  have hnamed : patchHeaderPath (trimChars line) = headerPath path := by
    rw [patchHeaderPath, find?_cons, hstart]
    simp only
    rw [hrest, trimChars_rdropWhile, trimChars_cons_space (by decide)]
    rfl
  have hfile : (fileHeaders.any fun header => startsWith header (trimChars line)) = true := by
    rw [fileHeaders, any_cons, hstart, Bool.true_or]
  rw [PatchState.parseLine]
  simp only [hfile, if_true, hnamed]
  by_cases hempty : headerPath path = []
  all_goals
    simp [PatchState.nameFile, hempty, PatchState.closeHunk, PatchState.initial,
      PatchState.between]

theorem not_mem_render {line : PatchLine} (hc : c ∉ [' ', '-', '+']) (h : c ∉ line.text) :
    c ∉ line.render := by
  simp only [mem_cons, not_mem_nil, not_or] at hc
  obtain ⟨tag, text⟩ := line
  cases tag <;> simp [PatchLine.render, hc, h]

theorem not_mem_hunkLines (hc : c ∉ [' ', '-', '+', '@'])
    (h : ∀ hunk ∈ hunks, ∀ line ∈ hunk, c ∉ line.text) : ∀ l ∈ hunkLines hunks, c ∉ l := by
  intro l hl
  simp only [hunkLines, mem_flatMap, mem_cons, mem_map] at hl
  obtain ⟨hunk, hhunk, rfl | ⟨line, hline, rfl⟩⟩ := hl
  · simp_all
  · exact not_mem_render (fun hmem => hc (mem_append_left ['@'] hmem))
      (h hunk hhunk line hline)

/-- The lines the parser reads, one after the other. -/
theorem parsePatch_renderPatch (hpath : '\n' ∉ path) (h : ∀ hunk ∈ hunks, WellTagged hunk) :
    parsePatch (renderPatch path hunks) =
      checkPatch (((hunkLines hunks).foldl PatchState.parseLine
        (.between (headerPath path) [] false)).parseLine "*** End Patch".toList).closeHunk := by
  have hlines : ∀ c, c ∉ [' ', '-', '+', '@'] → c ∉ "*** End Patch".toList →
      (∀ hunk ∈ hunks, ∀ line ∈ hunk, c ∉ line.text) →
      ∀ l ∈ hunkLines hunks ++ ["*** End Patch".toList], c ∉ l :=
    fun c hc hend h => forall_mem_append.2
      ⟨not_mem_hunkLines hc h, forall_mem_singleton.2 hend⟩
  have hlabel : '\n' ∉ "*** Update File: ".toList := by decide
  have hheader : '\n' ∉ headerLine path := fun hmem => (mem_append.1 hmem).elim hlabel hpath
  have hfirst := parseLine_headerLine (trimChars_chopCR (headerLine path))
  rw [parsePatch, renderPatch, splitOn_replaceCRLF (by simp) hheader
    (hlines '\n' (by decide) (by decide) fun hunk hm => (h hunk hm).newline)
    (hlines '\r' (by decide) (by decide) fun hunk hm => (h hunk hm).carriage),
    foldl_cons, hfirst, foldl_append, foldl_cons, foldl_nil]

/-! ### The checks on a patch without captured lines -/

theorem ofLines_changes (h : WellTagged hunk) :
    ¬((ofLines hunk).added = 0 ∧ (ofLines hunk).removed = 0) := by
  rintro ⟨hadded, hremoved⟩
  obtain ⟨line, hline, htag⟩ := h.changes
  simp only [ofLines, countTag, countP_eq_zero, decide_eq_true_eq] at hadded hremoved
  cases hl : line.tag with
  | context => exact htag hl
  | removed => exact hremoved line hline hl
  | added => exact hadded line hline hl

theorem before_not_blank (h : WellTagged hunk) : trimChars (joinLines (beforeLines hunk)) ≠ [] := by
  obtain ⟨line, hline, htag, hblank⟩ := h.placed
  intro hjoin
  rw [trimChars_eq_nil_iff] at hjoin
  have hmem : line.text ∈ beforeLines hunk :=
    mem_map_of_mem (mem_filter.2 ⟨hline, by simpa using htag⟩)
  refine hblank (trimChars_eq_nil_iff.2 fun c hc => hjoin c ?_)
  have hnewline : c ≠ '\n' := fun heq => h.newline line hline (heq ▸ hc)
  exact (mem_joinLines_iff hnewline).2 ⟨line.text, hmem, hc⟩

theorem changingHunks_ofLines (h : ∀ hunk ∈ hunks, WellTagged hunk) :
    changingHunks [] (hunks.map ofLines) = hunks.map ofLines := by
  induction hunks with
  | nil => rfl
  | cons hunk hunks ih =>
    rw [map_cons, changingHunks, if_neg (ofLines_changes (h hunk mem_cons_self)),
      ih fun hunk' hm => h hunk' (mem_cons_of_mem _ hm)]
    rfl

theorem findIdx?_unplaced (h : ∀ hunk ∈ hunks, WellTagged hunk) :
    (hunks.map ofLines).findIdx? (fun hunk => hunk.Unplaced) = none := by
  rw [findIdx?_eq_none_iff]
  intro parsed hparsed
  obtain ⟨hunk, hhunk, rfl⟩ := mem_map.1 hparsed
  rw [decide_eq_false_iff_not]
  exact fun hunplaced => before_not_blank (h hunk hhunk) hunplaced.1

theorem checkPatch_between_iff (hne : hunks ≠ []) (h : ∀ hunk ∈ hunks, WellTagged hunk)
    (path : Chars) (request : PatchRequest) :
    checkPatch (.between path (hunks.map ofLines) true) = .ok request ↔
      trimChars path ≠ [] ∧ request = ⟨path, hunks.map ofLines⟩ := by
  simp only [checkPatch, run_ok_iff, Unique.exists_iff]
  simp only [PatchState.between, changingHunks_ofLines h, findIdx?_unplaced h, pure_ok_iff, ne_eq,
    map_eq_nil_iff, hne, not_false_eq_true, true_and]
  exact and_congr_right fun _ => eq_comm

theorem represents_ofLines (hunks : List (List PatchLine)) :
    List.Forall₂ Represents (hunks.map ofLines) hunks := by
  rw [forall₂_map_left_iff, forall₂_same]
  exact fun hunk _ => ⟨rfl, rfl, rfl, rfl⟩

theorem trimPrefix_length_le (p : String) (s : Chars) : (trimPrefix p s).length ≤ s.length := by
  rw [trimPrefix]
  split_ifs
  · simp
  · exact le_rfl

theorem trimPrefix_of_not (h : startsWith p s = false) : trimPrefix p s = s := by
  rw [trimPrefix, h]
  rfl

theorem startsWith_of_trimPrefix (hp : p.toList ≠ []) (h : s.length ≤ (trimPrefix p s).length) :
    startsWith p s = false := by
  by_contra hstart
  rw [Bool.not_eq_false] at hstart
  have hle : p.toList.length ≤ s.length := (List.isPrefixOf_iff_prefix.1 hstart).length_le
  have hpos : 0 < p.toList.length := length_pos_of_ne_nil hp
  rw [trimPrefix, if_pos hstart, length_drop] at h
  omega

theorem pathKept_iff (path : Chars) :
    trimChars path ≠ [] ∧ headerPath path = path ↔ PathKept path := by
  constructor
  · rintro ⟨hblank, hpath⟩
    have hne : path ≠ [] := fun h => hblank (by rw [h]; rfl)
    rw [headerPath] at hpath
    split_ifs at hpath with hdevice
    · exact absurd hpath.symm hne
    · -- no step of the normalisation may shorten the path
      have hold := trimPrefix_length_le "a/" (trimChars path)
      have hnew := trimPrefix_length_le "b/" (trimPrefix "a/" (trimChars path))
      rw [hpath] at hnew hdevice
      have hkept : trimChars path = path :=
        (trimChars_sublist path).eq_of_length_le (hnew.trans hold)
      rw [hkept] at hnew hpath
      have hfirst := startsWith_of_trimPrefix (by decide) hnew
      rw [trimPrefix_of_not hfirst] at hpath
      have hsecond := startsWith_of_trimPrefix (by decide) (congrArg List.length hpath).ge
      exact ⟨hne, hkept, hfirst, hsecond, hdevice⟩
  · rintro ⟨hne, htrim, hold, hnew, hdevice⟩
    refine ⟨htrim.symm ▸ hne, ?_⟩
    rw [headerPath, htrim, trimPrefix_of_not hold, trimPrefix_of_not hnew, if_neg hdevice]

/-! ### Captured lines -/

/-- The number of lines a hunk was read from, as far as its text shows them. -/
def PatchHunk.weight (hunk : PatchHunk) : Nat :=
  (if hunk.before = [] then 0 else hunk.before.count '\n' + 1) + hunk.added

theorem count_joinLines (hne : lines ≠ []) (h : ∀ line ∈ lines, '\n' ∉ line) :
    (joinLines lines).count '\n' + 1 = lines.length := by
  induction lines with
  | nil => exact absurd rfl hne
  | cons line lines ih =>
    have hline : line.count '\n' = 0 := count_eq_zero.2 (h line mem_cons_self)
    cases lines with
    | nil => simpa [joinLines] using hline
    | cons next lines =>
      have ih := ih (by simp) fun l hl => h l (mem_cons_of_mem _ hl)
      rw [joinLines_cons_cons, count_append, count_cons_self, hline, length_cons,
        ← ih]
      omega

namespace PatchState

/-- The lines read into hunks so far. -/
def weight (st : PatchState) : Nat :=
  (st.hunks.map PatchHunk.weight).sum +
    match st.current with
    | none => 0
    | some hunk => st.before.length + hunk.added

/-- The lines of the current hunk are lines, and there are none outside hunks. -/
structure Lines (st : PatchState) : Prop where
  newline : ∀ line ∈ st.before, '\n' ∉ line
  outside : st.current = none → st.before = []

variable {st : PatchState}

theorem Lines.closeHunk (h : st.Lines) : st.closeHunk.Lines := by
  unfold PatchState.closeHunk
  split
  · exact h
  · exact ⟨fun line hline => absurd hline not_mem_nil, fun _ => rfl⟩

theorem Lines.before_closeHunk (h : st.Lines) : st.closeHunk.before = [] := by
  unfold PatchState.closeHunk
  split
  · exact h.outside ‹_›
  · rfl

theorem weight_closeHunk_le (h : st.Lines) : st.closeHunk.weight ≤ st.weight := by
  unfold closeHunk
  cases hcurrent : st.current with
  | none => exact le_rfl
  | some hunk =>
    have hclosed : (if joinLines st.before = [] then 0
        else (joinLines st.before).count '\n' + 1) ≤ st.before.length := by
      split_ifs with hempty
      · exact Nat.zero_le _
      · exact (count_joinLines (fun hnil => hempty (by rw [hnil]; rfl)) h.newline).le
    simp only [weight, hcurrent, map_append, map_cons, map_nil, sum_append,
      sum_cons, sum_nil, PatchHunk.weight]
    omega

theorem weight_nameFile (st : PatchState) (named : Chars) :
    (st.nameFile named).weight = st.weight := by
  unfold nameFile
  split_ifs <;> rfl

theorem Lines.nameFile (h : st.Lines) (named : Chars) : (st.nameFile named).Lines := by
  unfold PatchState.nameFile
  split_ifs <;> exact ⟨h.newline, h.outside⟩

theorem Lines.hunkLine (h : st.Lines) (hunk : PatchHunk) (hline : '\n' ∉ line) :
    (st.hunkLine hunk line).Lines := by
  have hadd : ∀ text : Chars, '\n' ∉ text → ∀ l ∈ st.before ++ [text], '\n' ∉ l :=
    fun text htext => forall_mem_append.2 ⟨h.newline, forall_mem_singleton.2 htext⟩
  have htail : ∀ (c : Char) (text : Chars), '\n' ∉ c :: text → '\n' ∉ text :=
    fun _ _ hcons hmem => hcons (mem_cons_of_mem _ hmem)
  unfold PatchState.hunkLine
  split
  · exact ⟨hadd _ (htail _ _ hline), nofun⟩
  · exact ⟨h.newline, nofun⟩
  · exact ⟨hadd _ (htail _ _ hline), nofun⟩
  · exact ⟨hadd _ hline, nofun⟩

theorem weight_hunkLine_le {hunk : PatchHunk} (h : st.current = some hunk) (line : Chars) :
    (st.hunkLine hunk line).weight ≤ st.weight + 1 := by
  have hcontext : ∀ text, (countContext hunk text).added = hunk.added := by
    intro text
    unfold countContext
    split_ifs <;> rfl
  unfold hunkLine
  split <;> simp only [weight, h, length_append, length_singleton, hcontext] <;> omega

theorem Lines.parseLine (h : st.Lines) (hline : '\n' ∉ line) : (st.parseLine line).Lines := by
  have hclosed : ∀ ended, ({ st.closeHunk with ended } : PatchState).Lines :=
    fun _ => ⟨h.closeHunk.newline, h.closeHunk.outside⟩
  unfold PatchState.parseLine
  simp only
  split_ifs
  · exact (hclosed false).nameFile _
  · exact hclosed false
  · exact hclosed true
  · exact h
  · exact h
  · exact ⟨h.closeHunk.newline, nofun⟩
  · split
    · exact h
    · exact h.hunkLine _ hline

theorem weight_parseLine_le (h : st.Lines) (line : Chars) :
    (st.parseLine line).weight ≤ st.weight + if captured line then 0 else 1 := by
  by_cases hc : captured line = true
  · have hclose := weight_closeHunk_le h
    unfold parseLine
    simp only
    split_ifs with hfile hbegin hend hskip hended hmarker
    · exact (weight_nameFile _ _).trans_le hclose
    · exact hclose
    · exact hclose
    · exact le_rfl
    · exact le_rfl
    · calc
        _ = (st.closeHunk.hunks.map PatchHunk.weight).sum := by simp [weight, h.before_closeHunk]
        _ ≤ st.closeHunk.weight := Nat.le_add_right _ _
        _ ≤ st.weight := hclose
    · simp_all [captured, envelope]
  · rw [if_neg hc, parseLine_of_not_captured (by simpa using hc)]
    split_ifs
    · omega
    · cases hcurrent : st.current with
      | none => exact Nat.le_succ _
      | some hunk => exact weight_hunkLine_le hcurrent line

theorem foldl_weight_le (hlines : ∀ line ∈ lines, '\n' ∉ line) (h : st.Lines) :
    (lines.foldl parseLine st).Lines ∧
      (lines.foldl parseLine st).weight ≤ st.weight + lines.countP (!captured ·) := by
  induction lines generalizing st with
  | nil => exact ⟨h, le_rfl⟩
  | cons line lines ih =>
    have hrest : ∀ l ∈ lines, '\n' ∉ l := fun l hl => hlines l (mem_cons_of_mem _ hl)
    have hstep := weight_parseLine_le h line
    obtain ⟨hend, hweight⟩ := ih hrest (h.parseLine (hlines line mem_cons_self))
    refine ⟨hend, hweight.trans ?_⟩
    cases hc : captured line <;> simp [hc] at hstep ⊢ <;> omega

end PatchState

theorem changingHunks_weight_le (pending : Chars) (hunks : List PatchHunk) :
    ((changingHunks pending hunks).map PatchHunk.weight).sum ≤
      (hunks.map PatchHunk.weight).sum := by
  induction hunks generalizing pending with
  | nil => exact le_rfl
  | cons hunk hunks ih =>
    rw [changingHunks]
    by_cases hsame : hunk.added = 0 ∧ hunk.removed = 0
    · rw [if_pos hsame]
      exact (ih _).trans (Nat.le_add_left _ _)
    · rw [if_neg hsame]
      exact Nat.add_le_add_left (ih _) _

theorem checkPatch_hunks {st : PatchState} (h : checkPatch st = .ok request) :
    request.hunks = changingHunks [] st.hunks := by
  simp only [checkPatch, run_ok_iff, Unique.exists_iff] at h
  obtain ⟨-, -, -, -, h⟩ := h
  split at h
  · exact nomatch h
  · rw [← pure_ok_iff.1 h]

/-- A parsed hunk that represents a written one accounts for each of its lines. -/
theorem Represents.weight {parsed : PatchHunk} (h : Represents parsed hunk)
    (hunk_ok : WellTagged hunk) : parsed.weight = hunk.length := by
  have hblank := before_not_blank hunk_ok
  have hjoin : joinLines (beforeLines hunk) ≠ [] := fun heq => hblank (by rw [heq]; rfl)
  have hlines : ∀ line ∈ beforeLines hunk, '\n' ∉ line := by
    intro line hline
    obtain ⟨l, hl, rfl⟩ := mem_map.1 hline
    exact hunk_ok.newline l (mem_of_mem_filter hl)
  rw [PatchHunk.weight, h.before, if_neg hjoin, h.added,
    count_joinLines (fun hnil => hjoin (by rw [hnil]; rfl)) hlines, beforeLines_length]

theorem sum_weight_of_represents {parsed : List PatchHunk}
    (h : List.Forall₂ Represents parsed hunks) (hunks_ok : ∀ hunk ∈ hunks, WellTagged hunk) :
    (parsed.map PatchHunk.weight).sum = hunks.flatten.length := by
  induction h with
  | nil => rfl
  | cons hhead _ ih =>
    rw [map_cons, sum_cons, flatten_cons, length_append,
      hhead.weight (hunks_ok _ mem_cons_self),
      ih fun hunk hm => hunks_ok hunk (mem_cons_of_mem _ hm)]

theorem countP_hunkLines (hunks : List (List PatchLine)) :
    (hunkLines hunks).countP (!captured ·) = hunks.flatten.countP (!captured ·.render) := by
  have hmarker : captured "@@".toList = true := by decide
  induction hunks with
  | nil => rfl
  | cons hunk hunks ih =>
    rw [hunkLines, flatMap_cons, ← hunkLines, countP_append, ih, flatten_cons,
      countP_append, countP_cons, hmarker, countP_map]
    rfl

/-- If the parsed hunks represent the written ones, no line was captured. -/
theorem not_captured_of_represents (hpath : '\n' ∉ path) (h : ∀ hunk ∈ hunks, WellTagged hunk)
    (hparse : parsePatch (renderPatch path hunks) = .ok request)
    (hread : List.Forall₂ Represents request.hunks hunks) :
    ∀ hunk ∈ hunks, ∀ line ∈ hunk, captured line.render = false := by
  have hlines : ∀ line ∈ hunkLines hunks, '\n' ∉ line :=
    not_mem_hunkLines (by decide) fun hunk hhunk => (h hunk hhunk).newline
  rw [parsePatch_renderPatch hpath h] at hparse
  have hstart : (PatchState.between (headerPath path) [] false).Lines := ⟨nofun, fun _ => rfl⟩
  obtain ⟨hst, hweight⟩ := PatchState.foldl_weight_le hlines hstart
  generalize (hunkLines hunks).foldl PatchState.parseLine (.between (headerPath path) [] false) = st
    at hparse hst hweight
  have hlast := PatchState.weight_parseLine_le hst "*** End Patch".toList
  have htotal : hunks.flatten.length ≤ hunks.flatten.countP (!captured ·.render) :=
    calc hunks.flatten.length = (request.hunks.map PatchHunk.weight).sum :=
          (sum_weight_of_represents hread h).symm
      _ ≤ (((st.parseLine "*** End Patch".toList).closeHunk).hunks.map PatchHunk.weight).sum := by
          rw [checkPatch_hunks hparse]
          exact changingHunks_weight_le _ _
      _ ≤ (st.parseLine "*** End Patch".toList).closeHunk.weight := Nat.le_add_right _ _
      _ ≤ (st.parseLine "*** End Patch".toList).weight :=
          PatchState.weight_closeHunk_le (hst.parseLine (by decide))
      _ ≤ st.weight := hlast
      _ ≤ (hunkLines hunks).countP (!captured ·) := by
          simpa [PatchState.weight, PatchState.between] using hweight
      _ = hunks.flatten.countP (!captured ·.render) := countP_hunkLines hunks
  have hall := countP_eq_length.1 (le_antisymm countP_le_length htotal)
  intro hunk hhunk line hline
  simpa using hall line (mem_flatten.2 ⟨hunk, hhunk, hline⟩)

theorem parsePatch_of_not_captured (hpath : '\n' ∉ path) (h : ∀ hunk ∈ hunks, WellTagged hunk)
    (hfree : ∀ hunk ∈ hunks, ∀ line ∈ hunk, captured line.render = false) :
    parsePatch (renderPatch path hunks) =
      checkPatch (.between (headerPath path) (hunks.map ofLines) true) := by
  have hend : ∀ st : PatchState, st.parseLine "*** End Patch".toList =
      { st.closeHunk with ended := true } := fun _ => rfl
  have hhunks := PatchState.foldl_hunks hfree
    (rfl : (PatchState.between (headerPath path) [] false).closeHunk = .between _ [] false)
  rw [parsePatch_renderPatch hpath h, hend, hhunks]
  rfl

/-- **A written patch is read back exactly when its path is kept and no line is captured.** -/
theorem parsePatch_faithful_iff (path : Chars) (hunks : List (List PatchLine))
    (hpath : '\n' ∉ path) (hne : hunks ≠ []) (h : ∀ hunk ∈ hunks, WellTagged hunk) :
    (∃ request, parsePatch (renderPatch path hunks) = .ok request ∧ request.path = path ∧
        List.Forall₂ Represents request.hunks hunks) ↔
      PathKept path ∧ ∀ hunk ∈ hunks, ∀ line ∈ hunk, captured line.render = false := by
  constructor
  · rintro ⟨request, hparse, hnamed, hread⟩
    have hfree := not_captured_of_represents hpath h hparse hread
    rw [parsePatch_of_not_captured hpath h hfree, checkPatch_between_iff hne h] at hparse
    obtain ⟨hblank, rfl⟩ := hparse
    have hkept : headerPath path = path := hnamed
    rw [hkept] at hblank
    exact ⟨(pathKept_iff path).1 ⟨hblank, hkept⟩, hfree⟩
  · rintro ⟨hkept, hfree⟩
    obtain ⟨hblank, hheader⟩ := (pathKept_iff path).2 hkept
    refine ⟨⟨path, hunks.map ofLines⟩, ?_, rfl, represents_ofLines hunks⟩
    rw [parsePatch_of_not_captured hpath h hfree, hheader, checkPatch_between_iff hne h]
    exact ⟨hblank, rfl⟩

/-- A hunk that replaces one line after a line of context. -/
def sampleHunk : List PatchLine :=
  [⟨.context, "package main".toList⟩, ⟨.removed, "old".toList⟩, ⟨.added, "new".toList⟩]

/-- The same change after a line of context that begins like one of the envelope. -/
def indexHunk : List PatchLine :=
  [⟨.context, "index of pages".toList⟩, ⟨.removed, "old".toList⟩, ⟨.added, "new".toList⟩]

theorem parsePatch_sampleHunk :
    ∃ request, parsePatch (renderPatch "main.go".toList [sampleHunk]) = .ok request ∧
      request.path = "main.go".toList ∧ List.Forall₂ Represents request.hunks [sampleHunk] :=
  (parsePatch_faithful_iff "main.go".toList [sampleHunk] (by decide) (by decide)
    (forall_mem_singleton.2 ⟨by decide, by decide, by decide, by decide⟩)).2
    ⟨⟨by decide, by decide, by decide, by decide, by decide⟩, by decide⟩

/-- A context line that begins with `index ` is dropped. -/
theorem parsePatch_loses_index_line :
    WellTagged indexHunk ∧
      ¬∃ request, parsePatch (renderPatch "main.go".toList [indexHunk]) = .ok request ∧
        request.path = "main.go".toList ∧ List.Forall₂ Represents request.hunks [indexHunk] := by
  have hunk_ok : WellTagged indexHunk := ⟨by decide, by decide, by decide, by decide⟩
  refine ⟨hunk_ok, ?_⟩
  rintro ⟨request, hparse, -, hread⟩
  have hfree := not_captured_of_represents (by decide) (forall_mem_singleton.2 hunk_ok) hparse
    hread indexHunk mem_cons_self ⟨.context, "index of pages".toList⟩ mem_cons_self
  exact absurd hfree (by decide)

end Codeflux.Executor
