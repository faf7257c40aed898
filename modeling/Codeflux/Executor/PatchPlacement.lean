import Codeflux.Executor.Patch
import Mathlib.Data.List.Infix

/-!
# Where the hunks of a patch are placed

The search for the context of a hunk accepts an occurrence when there is no other one after its end,
so one that overlaps it is not seen, and it looks for text, so an occurrence may begin or end inside
a line.
-/

namespace Codeflux.Executor

open Library Go List

/-! ### The search -/

/-- `strings.Index`. -/
def index (body text : Chars) : Option Nat := body.tails.findIdx? (text.isPrefixOf ·)

/-- `uniqueIndexIn`. -/
def uniqueIndexIn (body text : Chars) : Option Nat :=
  if text = [] then none
  else (index body text).filter fun first => index (body.drop (first + text.length)) text = none

variable {body text : Chars} {first : Nat}

theorem index_eq_some_iff : index body text = some first ↔
    text <+: body.drop first ∧ first ≤ body.length ∧ ∀ i < first, ¬text <+: body.drop i := by
  simp [index, findIdx?_eq_some_iff_getElem, Nat.lt_succ_iff]

theorem not_prefix_of_index_eq_none (htext : text ≠ []) (h : index body text = none) (i : Nat) :
    ¬text <+: body.drop i := by
  intro hprefix
  by_cases hi : i ≤ body.length
  · simp only [index, findIdx?_eq_none_iff, mem_tails] at h
    have hfalse := h (body.drop i) (drop_suffix i body)
    rw [List.isPrefixOf_iff_prefix.2 hprefix] at hfalse
    cases hfalse
  · rw [drop_eq_nil_of_le (by omega), prefix_nil] at hprefix
    exact htext hprefix

/-- `strings.Count`. -/
def count (body text : Chars) : Nat :=
  if text = [] then body.length + 1
  else match hindex : index body text with
    | none => 0
    | some first => count (body.drop (first + text.length)) text + 1
termination_by body.length
decreasing_by
  have hlength := (index_eq_some_iff.1 hindex).1.length_le
  have hpos : 0 < text.length := length_pos_iff.2 ‹_›
  rw [length_drop] at hlength ⊢
  omega

/-- The search accepts the first occurrence when no other one begins after its end. -/
theorem uniqueIndexIn_spec (h : uniqueIndexIn body text = some first) :
    text <+: body.drop first ∧
      ∀ i, text <+: body.drop i → i = first ∨ first < i ∧ i < first + text.length := by
  unfold uniqueIndexIn at h
  split_ifs at h with htext
  rw [Option.filter_eq_some_iff, index_eq_some_iff, decide_eq_true_eq] at h
  obtain ⟨⟨hfirst, -, hbefore⟩, hafter⟩ := h
  refine ⟨hfirst, fun i hi => ?_⟩
  have hle : first ≤ i := Nat.le_of_not_lt fun hlt => hbefore i hlt hi
  have hend : i < first + text.length := by
    by_contra hge
    have hnot := not_prefix_of_index_eq_none htext hafter (i - (first + text.length))
    rw [drop_drop, Nat.add_sub_cancel' (Nat.le_of_not_lt hge)] at hnot
    exact hnot hi
  omega

theorem uniqueIndexIn_of_count (htext : text ≠ []) (h : count body text = 1) :
    uniqueIndexIn body text = index body text := by
  rw [count, if_neg htext] at h
  split at h
  · cases h
  · next first hindex =>
    rw [uniqueIndexIn, if_neg htext, hindex, Option.filter_some, if_pos]
    rw [count, if_neg htext] at h
    split at h
    · next hnone => simpa using hnone
    · cases h

/-! ### Patches -/

/-- A hunk, the text at the time, where the searched part of it begins, and where the hunk goes. -/
structure Placement where
  hunk : PatchHunk
  text : Chars
  (start position : Nat)

/-- The place of a hunk: after its anchor, after the hunk before it, or in the whole text. An anchor
that is not found is ignored. -/
def PatchHunk.locate (hunk : PatchHunk) (text : Chars) (cursor : Nat) : Option Placement :=
  let search (start : Nat) := (uniqueIndexIn (text.drop start) hunk.before).map fun first =>
    (⟨hunk, text, start, start + first⟩ : Placement)
  let scope := ((uniqueIndexIn (text.drop cursor) hunk.anchor).map fun first =>
    cursor + first + hunk.anchor.length).getD cursor
  (search scope).or <| (search cursor).or <|
    if count text hunk.before = 1 then (index text hunk.before).map (⟨hunk, text, 0, ·⟩) else none

/-- `indentForMessage`. -/
def indentForMessage (text : Chars) : Chars :=
  let lines := text.splitOn '\n'
  let lines := if 12 < lines.length then lines.take 12 ++ ["  … and more".toList] else lines
  joinLines (lines.map ("  | ".toList ++ ·))

/-- The refusal of a hunk without a place. -/
def PatchHunk.refusal (hunk : PatchHunk) (path : Chars) (number : Nat) (text : Chars) : Failure :=
  let name := "hunk " ++ toString number
  let file := String.ofList path
  let wanted := String.ofList (indentForMessage hunk.before)
  if count text hunk.before ≠ 0 then
    .new (name ++ " matches " ++ toString (count text hunk.before) ++ " places in " ++ file ++
      ", so it does not say which is meant. Add more unprefixed context lines around it until " ++
      "it matches once")
  else if hunk.context = 0 then
    .new (name ++ " carries no context, so there is nothing to locate it by, and the line it " ++
      "names is not in " ++ file ++ " as written. Put at least two unprefixed lines above and " ++
      "below the change, copied exactly from the file.\n\nIt was looking for:\n" ++ wanted)
  else
    .new (name ++ " does not match anything in " ++ file ++ ". Its context and the lines it " ++
      "removes must appear exactly as they are in the file, indentation included — read the " ++
      "file and copy them rather than retyping them.\n\nIt was looking for:\n" ++ wanted)

/-- The text with the hunk in its place. -/
def Placement.patched (place : Placement) : Chars :=
  place.text.take place.position ++ place.hunk.after ++
    place.text.drop (place.position + place.hunk.before.length)

/-- Apply the hunks in turn: their places, and the text in the end. -/
def applyHunks (path : Chars) : Nat → Chars → Nat → List PatchHunk → Result (List Placement × Chars)
  | _, text, _, [] => pure ([], text)
  | number, text, cursor, hunk :: rest =>
    match hunk.locate text cursor with
    | none => .error (hunk.refusal path number text)
    | some place => do
      let (places, final) ← applyHunks path (number + 1) place.patched
        (place.position + hunk.after.length) rest
      return (place :: places, final)

/-- What an applied patch reports. -/
structure PatchOutcome where
  path : Chars
  (beforeSHA afterSHA : String)
  (linesAdded linesRemove hunks : Nat)

/-- `ApplyPatch`. -/
def applyPatch (hashOfContent : Chars → String) (existing : Chars) (request : PatchRequest) :
    Result (Chars × PatchOutcome) := do
  let (_, patched) ← applyHunks request.path 1 existing 0 request.hunks
  return (patched, {
    path := request.path
    beforeSHA := hashOfContent existing
    afterSHA := hashOfContent patched
    linesAdded := (request.hunks.map (·.added)).sum
    linesRemove := (request.hunks.map (·.removed)).sum
    hunks := request.hunks.length })

/-- A text that occurs at a position begins where a line begins, and ends where one ends. -/
structure AlignedAt (body text : Chars) (position : Nat) : Prop where
  starts : (body.take position).getLast?.all (· = '\n')
  ends : text.getLast? = some '\n' ∨
    (body.drop (position + text.length)).head?.all (· = '\n')

/-- From `start` on, a text occurs at the boundaries of lines only, and no two of its occurrences
overlap. -/
structure Sharp (body text : Chars) (start : Nat) : Prop where
  aligned : ∀ i < body.length, start ≤ i → text <+: body.drop i → AlignedAt body text i
  apart : ∀ j < body.length, ∀ i < j, start ≤ i → text <+: body.drop i → text <+: body.drop j →
    i + text.length ≤ j

namespace Placement

variable (place : Placement)

/-- Does the text that is replaced occur there? -/
def OccursAt (i : Nat) : Prop := place.hunk.before <+: place.text.drop i

/-- The place begins where a line begins, and ends where one ends. -/
def Aligned : Prop := AlignedAt place.text place.hunk.before place.position

/-- The text that is replaced occurs there, and nowhere else in the searched part. -/
structure Unique : Prop where
  occurs : place.OccursAt place.position
  only : ∀ i, place.start ≤ i → place.OccursAt i → i = place.position

end Placement

theorem lt_length_of_prefix_drop (htext : text ≠ []) {i : Nat} (h : text <+: body.drop i) :
    i < body.length := by
  have hlength := h.length_le
  have hpos := length_pos_of_ne_nil htext
  rw [length_drop] at hlength
  omega

/-- **The step.** What the search finds is placed as it should exactly when the searched part is
sharp. -/
theorem placed_iff_of_search {place : Placement} {start first : Nat}
    (hbefore : place.hunk.before ≠ [])
    (h : uniqueIndexIn (place.text.drop start) place.hunk.before = some first)
    (hstart : place.start = start) (hposition : place.position = start + first) :
    place.Aligned ∧ place.Unique ↔ Sharp place.text place.hunk.before place.start := by
  obtain ⟨hfirst, honly⟩ := uniqueIndexIn_spec h
  rw [drop_drop, ← hposition] at hfirst
  have hle : place.start ≤ place.position := by omega
  constructor
  · rintro ⟨haligned, hunique⟩
    refine ⟨fun i _ hi hoccurs => ?_, fun j _ i hij hi hoccurs hoccurs' => ?_⟩
    · rw [hunique.only i hi hoccurs]
      exact haligned
    · have hfirst := hunique.only i hi hoccurs
      have hsecond := hunique.only j (hi.trans hij.le) hoccurs'
      omega
  · intro hsharp
    refine ⟨hsharp.aligned _ (lt_length_of_prefix_drop hbefore hfirst) hle hfirst, hfirst,
      fun i hi hoccurs => ?_⟩
    have hi' : place.hunk.before <+: (place.text.drop start).drop (i - start) := by
      rwa [drop_drop, Nat.add_sub_cancel' (hstart ▸ hi)]
    rcases honly (i - start) hi' with heq | ⟨hlt, hend⟩
    · omega
    · have hapart := hsharp.apart i (lt_length_of_prefix_drop hbefore hoccurs) place.position
        (by omega) hle hfirst hoccurs
      omega

theorem PatchHunk.locate_placed_iff {hunk : PatchHunk} {cursor : Nat} {place : Placement}
    (hbefore : hunk.before ≠ []) (h : hunk.locate text cursor = some place) :
    place.Aligned ∧ place.Unique ↔ Sharp place.text place.hunk.before place.start := by
  have hsearch : ∀ start, ((uniqueIndexIn (text.drop start) hunk.before).map fun first =>
      (⟨hunk, text, start, start + first⟩ : Placement)) = some place →
      (place.Aligned ∧ place.Unique ↔ Sharp place.text place.hunk.before place.start) := by
    intro start hfound
    obtain ⟨first, hfirst, rfl⟩ := Option.map_eq_some_iff.1 hfound
    exact placed_iff_of_search hbefore hfirst rfl rfl
  simp only [PatchHunk.locate, Option.or_eq_some_iff] at h
  rcases h with hscope | ⟨-, hcursor | ⟨-, hwhole⟩⟩
  · exact hsearch _ hscope
  · exact hsearch _ hcursor
  · split_ifs at hwhole with hcount
    obtain ⟨first, hfirst, rfl⟩ := Option.map_eq_some_iff.1 hwhole
    rw [← uniqueIndexIn_of_count hbefore hcount] at hfirst
    exact @placed_iff_of_search _ 0 first hbefore hfirst rfl (Nat.zero_add first).symm

theorem applyHunks_placed_iff {path : Chars} {number cursor : Nat} {hunks : List PatchHunk}
    {places : List Placement} {patched : Chars} (hbefore : ∀ hunk ∈ hunks, hunk.before ≠ [])
    (h : applyHunks path number text cursor hunks = .ok (places, patched)) :
    ∀ place ∈ places,
      place.Aligned ∧ place.Unique ↔ Sharp place.text place.hunk.before place.start := by
  induction hunks generalizing number text cursor places with
  | nil =>
    obtain ⟨rfl, -⟩ := Prod.mk.inj (pure_ok_iff.1 h)
    exact fun _ hplace => absurd hplace not_mem_nil
  | cons hunk rest ih =>
    obtain ⟨hhunk, hrest⟩ := forall_mem_cons.1 hbefore
    rw [applyHunks] at h
    split at h
    · cases h
    · next place hlocate =>
      simp only [run_ok_iff, Prod.exists, Prod.mk.injEq] at h
      obtain ⟨after, final, hafter, rfl, rfl⟩ := h
      exact forall_mem_cons.2 ⟨hunk.locate_placed_iff hhunk hlocate, ih hrest hafter⟩

/-- **When the hunks of a patch are placed as they should.** Each hunk of an applied patch with
text to look for replaces it at the boundaries of lines and at its only occurrence exactly when,
in the text at that point, it occurs in the searched part at the boundaries of lines only and
without overlaps. So it does if that holds of the whole text. -/
theorem placed_uniquely_iff {hashOfContent : Chars → String} {existing patched : Chars}
    {request : PatchRequest} {outcome : PatchOutcome}
    (hbefore : ∀ hunk ∈ request.hunks, hunk.before ≠ [])
    (h : applyPatch hashOfContent existing request = .ok (patched, outcome)) :
    ∃ places, applyHunks request.path 1 existing 0 request.hunks = .ok (places, patched) ∧
      ((∀ place ∈ places, place.Aligned ∧ place.Unique) ↔
        ∀ place ∈ places, Sharp place.text place.hunk.before place.start) ∧
      ((∀ place ∈ places, Sharp place.text place.hunk.before 0) →
        ∀ place ∈ places, place.Aligned ∧ place.Unique) := by
  simp only [applyPatch, run_ok_iff, Prod.exists, Prod.mk.injEq] at h
  obtain ⟨places, final, happly, rfl, -⟩ := h
  have hiff := applyHunks_placed_iff hbefore happly
  refine ⟨places, happly, forall₂_congr hiff, fun hsharp place hplace => ?_⟩
  have hwhole := hsharp place hplace
  exact (hiff place hplace).2 ⟨fun i hi _ => hwhole.aligned i hi i.zero_le,
    fun j hj i hij _ => hwhole.apart j hj i hij i.zero_le⟩

/-- A patch with one hunk. -/
def sampleRequest (before after : String) : PatchRequest :=
  ⟨"main.go".toList, [⟨before.toList, after.toList, 1, 1, 0, []⟩]⟩

theorem sharp_sample : Sharp "a\nb\nc".toList "b".toList 0 := by
  have honly : ∀ i < 5, "b".toList <+: "a\nb\nc".toList.drop i → i = 2 := by decide
  refine ⟨fun i hi _ hoccurs => ?_, fun j hj i hij _ hoccurs hoccurs' => ?_⟩
  · obtain rfl := honly i hi hoccurs
    exact ⟨by decide, by decide⟩
  · have hfirst := honly i (hij.trans hj) hoccurs
    have hsecond := honly j hj hoccurs'
    omega

theorem placed_uniquely_sample :
    ∃ places, applyHunks "main.go".toList 1 "a\nb\nc".toList 0
        (sampleRequest "b" "d").hunks = .ok (places, "a\nd\nc".toList) ∧
      ∀ place ∈ places, place.Aligned ∧ place.Unique := by
  obtain ⟨places, happly, -, hplaced⟩ :=
    @placed_uniquely_iff (fun _ => "") "a\nb\nc".toList "a\nd\nc".toList (sampleRequest "b" "d") _
      (by decide) rfl
  refine ⟨places, happly, hplaced ?_⟩
  obtain ⟨rfl, -⟩ := Prod.mk.inj (Except.ok.inj happly)
  exact forall_mem_singleton.2 sharp_sample

/-- A hunk is placed inside a line, and one on the first of two overlapping occurrences. -/
theorem misplaced_hunks :
    (∃ place, applyHunks "main.go".toList 1 "total = 10".toList 0
        (sampleRequest "total = 1" "total = 2").hunks = .ok ([place], "total = 20".toList) ∧
      ¬place.Aligned) ∧
    ∃ place, applyHunks "main.go".toList 1 "\x7d\n\x7d\n\x7d".toList 0
        (sampleRequest "\x7d\n\x7d" "\x7d").hunks = .ok ([place], "\x7d\n\x7d".toList) ∧
      ¬place.Unique := by
  refine ⟨⟨_, rfl, ?_⟩, ⟨_, rfl, ?_⟩⟩
  · intro h
    exact absurd h.ends (by decide)
  · intro h
    have hsecond := h.only 2 (Nat.zero_le 2) (List.isPrefixOf_iff_prefix.1 rfl)
    exact absurd hsecond (by decide)

/-! ### Patches without ambiguity -/

/-- The text begins at the position, and nowhere else. -/
def OccursOnce (body text : Chars) (position : Nat) : Prop :=
  text <+: body.drop position ∧ ∀ i ≤ body.length, text <+: body.drop i → i = position

/-- The hunks of a patch in turn, each replacing the only occurrence of its text, and the text in
the end. -/
inductive Replaces : Chars → List PatchHunk → Chars → Prop
  | nil (text : Chars) : Replaces text [] text
  | cons {text final : Chars} {hunk : PatchHunk} {rest : List PatchHunk} (left right : Chars)
      (htext : text = left ++ hunk.before ++ right)
      (honce : OccursOnce text hunk.before left.length)
      (hrest : Replaces (left ++ hunk.after ++ right) rest final) :
      Replaces text (hunk :: rest) final

section Once

variable {position : Nat} (honce : OccursOnce body text position) (htext : text ≠ [])

include honce htext

theorem OccursOnce.index_drop (start : Nat) :
    index (body.drop start) text = if start ≤ position then some (position - start) else none := by
  have hlength := honce.1.length_le
  have hpos := length_pos_of_ne_nil htext
  have hoccurs : ∀ i, text <+: (body.drop start).drop i → start + i = position := by
    intro i hi
    rw [drop_drop] at hi
    have hlength := hi.length_le
    rw [length_drop] at hlength
    exact honce.2 _ (by omega) hi
  rw [length_drop] at hlength
  split_ifs with hstart
  · refine index_eq_some_iff.2 ⟨?_, ?_, fun i hi hprefix => ?_⟩
    · rw [drop_drop, Nat.add_sub_cancel' hstart]
      exact honce.1
    · rw [length_drop]
      omega
    · have := hoccurs i hprefix
      omega
  · refine Option.eq_none_iff_forall_ne_some.2 fun i hi => hstart ?_
    have := hoccurs i (index_eq_some_iff.1 hi).1
    omega

theorem OccursOnce.uniqueIndexIn_drop (start : Nat) :
    uniqueIndexIn (body.drop start) text =
      if start ≤ position then some (position - start) else none := by
  have hpos := length_pos_of_ne_nil htext
  rw [uniqueIndexIn, if_neg htext, honce.index_drop htext]
  split_ifs with hstart
  · rw [Option.filter_some, if_pos]
    rw [drop_drop, honce.index_drop htext, if_neg (by omega)]
    rfl
  · rfl

theorem OccursOnce.count_eq_one : count body text = 1 := by
  have hpos := length_pos_of_ne_nil htext
  have hindex := honce.index_drop htext 0
  rw [drop_zero, if_pos (Nat.zero_le _)] at hindex
  rw [count, if_neg htext]
  split
  · next hnone => cases hindex.symm.trans hnone
  · next first hfirst =>
    cases hindex.symm.trans hfirst
    rw [count, if_neg htext]
    split
    · rfl
    · next later hlater =>
      rw [honce.index_drop htext, if_neg (by omega)] at hlater
      cases hlater

end Once

/-- A hunk whose text occurs once is placed there, wherever the search begins. -/
theorem PatchHunk.locate_of_once {hunk : PatchHunk} {position : Nat}
    (honce : OccursOnce text hunk.before position) (cursor : Nat) :
    ∃ start, hunk.locate text cursor = some ⟨hunk, text, start, position⟩ := by
  by_cases hbefore : hunk.before = []
  · -- no text to look for occurs at every position, so the text is empty
    have hbegins : ∀ i, hunk.before <+: text.drop i := fun i => hbefore ▸ nil_prefix
    have hzero := honce.2 0 (Nat.zero_le _) (hbegins 0)
    have htext : text = [] :=
      length_eq_zero_iff.1 ((honce.2 _ le_rfl (hbegins _)).trans hzero.symm)
    subst hzero htext
    exact ⟨0, by simp [PatchHunk.locate, uniqueIndexIn, index, count, hbefore]⟩
  · have hindex := honce.index_drop hbefore 0
    rw [drop_zero, if_pos (Nat.zero_le _)] at hindex
    simp only [PatchHunk.locate, honce.uniqueIndexIn_drop hbefore, honce.count_eq_one hbefore,
      hindex, if_true]
    generalize Option.getD _ cursor = scope
    by_cases hscope : scope ≤ position
    · exact ⟨scope, by simp [hscope]⟩
    · by_cases hcursor : cursor ≤ position
      · exact ⟨cursor, by simp [hscope, hcursor]⟩
      · exact ⟨0, by simp [hscope, hcursor]⟩

theorem applyHunks_of_replaces {path : Chars} {hunks : List PatchHunk} {final : Chars}
    (h : Replaces text hunks final) (number cursor : Nat) :
    ∃ places, applyHunks path number text cursor hunks = .ok (places, final) := by
  induction h generalizing number cursor with
  | nil text => exact ⟨[], rfl⟩
  | @cons text final hunk rest left right htext honce _ ih =>
    obtain ⟨start, hlocate⟩ := hunk.locate_of_once honce cursor
    obtain ⟨places, hplaces⟩ := ih (number + 1) (left.length + hunk.after.length)
    have hpatched : (⟨hunk, text, start, left.length⟩ : Placement).patched =
        left ++ hunk.after ++ right := by
      simp [Placement.patched, htext]
    refine ⟨⟨hunk, text, start, left.length⟩ :: places, ?_⟩
    rw [applyHunks, hlocate]
    simp only [hpatched, hplaces]
    rfl

/-- **Patches without ambiguity apply as written.** For every text and every patch such that the
text of each hunk occurs at one position when its turn comes: the patch applies, and leaves what
replacing these occurrences one after the other does. -/
theorem applyPatch_of_replaces (hashOfContent : Chars → String) {existing final : Chars}
    {request : PatchRequest} (h : Replaces existing request.hunks final) :
    ∃ outcome, applyPatch hashOfContent existing request = .ok (final, outcome) := by
  obtain ⟨places, happly⟩ := applyHunks_of_replaces h 1 0
  exact ⟨_, by rw [applyPatch, happly]; rfl⟩

/-- The second hunk lies before the first, and its anchor before its place. -/
theorem applyPatch_out_of_order :
    ∃ outcome, applyPatch (fun _ => "") "func\na\nb".toList
      ⟨"main.go".toList, [⟨"b".toList, "c".toList, 1, 1, 0, []⟩,
        ⟨"a".toList, "d".toList, 1, 1, 0, "func".toList⟩]⟩ = .ok ("func\nd\nc".toList, outcome) :=
  applyPatch_of_replaces (fun _ => "")
    (.cons "func\na\n".toList [] rfl ⟨List.isPrefixOf_iff_prefix.1 rfl, by decide⟩
      (.cons "func\n".toList "\nc".toList rfl ⟨List.isPrefixOf_iff_prefix.1 rfl, by decide⟩
        (.nil _)))

end Codeflux.Executor
