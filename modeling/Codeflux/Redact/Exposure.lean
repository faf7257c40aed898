import Codeflux.Redact.Model

/-!
# What redaction leaves

The pipeline is run on bytes that carry their place in the input: the output is what is left of the
input, with markers in the holes. It exposes a secret through what is left, which may hold a part of
an occurrence that was cut by the bound of the input or by another occurrence, and through the
markers themselves.
-/

namespace Codeflux.Redact

open Library Go Redact.Pipeline List

/-! ### Bytes with their origin -/

/-- A byte, with its place in the input if it is copied from there. -/
structure Cell where
  byte : UInt8
  origin : Option Nat
deriving DecidableEq

open Cell

/-- Bytes that are not copied from the input. -/
def literal (text : Bytes) : List Cell := text.map fun b => ⟨b, none⟩

/-- The input, with its places. -/
def label (input : Bytes) : List Cell := input.zipIdx.map fun entry => ⟨entry.1, some entry.2⟩

@[simp] theorem map_byte_literal (text : Bytes) : (literal text).map byte = text := by
  rw [literal, map_map]
  exact map_id' text

@[simp] theorem map_byte_label (input : Bytes) : (label input).map byte = input := by
  rw [label, map_map]
  exact zipIdx_map_fst 0 input

/-- `boundInput` and `boundOutput` on cells, with the bytes that are kept. -/
def boundCells (cells : List Cell) (maximum keep : Nat) : List Cell :=
  if cells.length ≤ maximum then cells else cells.take keep ++ literal truncatedMarker

/-- `toValidFrom` on cells. -/
def sanitizeFrom : Nat → Bool → List Cell → List Cell
  | _, _, [] => []
  | pending + 1, _, cell :: rest => cell :: sanitizeFrom pending false rest
  | 0, invalid, cell :: rest =>
    match runeWidth ((cell :: rest).map byte) with
    | 0 => (if invalid then [] else literal replacementRune) ++ sanitizeFrom 0 true rest
    | width + 1 => cell :: sanitizeFrom width false rest

/-- `toValidUTF8` on cells. -/
def sanitize (cells : List Cell) : List Cell := sanitizeFrom 0 false cells

theorem map_byte_sanitizeFrom (pending : Nat) (invalid : Bool) (cells : List Cell) :
    (sanitizeFrom pending invalid cells).map byte =
      toValidFrom replacementRune pending invalid (cells.map byte) := by
  induction cells generalizing pending invalid with
  | nil => cases pending <;> rfl
  | cons cell rest ih =>
    cases pending with
    | succ pending => simp only [sanitizeFrom, map_cons, toValidFrom, ih]
    | zero =>
      rw [sanitizeFrom, map_cons, toValidFrom, ← map_cons]
      cases runeWidth ((cell :: rest).map byte) with
      | zero =>
        simp only [map_append, ih]
        cases invalid <;> simp
      | succ width => simp only [map_cons, ih]

namespace Pipeline

variable (pipeline : Pipeline) (input : Bytes)

/-- The sanitized input, with its origins. -/
def source : List Cell :=
  sanitize (boundCells (label input) pipeline.limits.maximumInputBytes (validUTF8Prefix input
    (pipeline.limits.maximumInputBytes - maxSecretBytes - truncatedMarker.length)))

/-- The text after the secrets are replaced, with its origins. -/
def replaced : List Cell :=
  pipeline.exact.foldl (fun cells secret => substitute byte secret (literal marker) cells)
    (pipeline.source input)

/-- The number of bytes of that text that the bound of the output keeps. -/
def keptBytes : Nat :=
  let text := (pipeline.replaced input).map byte
  if text.length ≤ pipeline.limits.maximumOutputBytes then text.length
  else validUTF8Prefix text (pipeline.limits.maximumOutputBytes - truncatedMarker.length)

/-- The output, with its origins. -/
def trace : List Cell :=
  boundCells (pipeline.replaced input) pipeline.limits.maximumOutputBytes
    (pipeline.keptBytes input)

end Pipeline

/-! ### The trace is the output -/

theorem replaceFrom_eq_substituteFrom (old new : Bytes) (pending : Nat) (s : Bytes) :
    replaceFrom old new pending s = substituteFrom id old new pending s := by
  induction s generalizing pending with
  | nil => cases pending <;> rfl
  | cons b rest ih =>
    cases pending with
    | succ pending => exact ih pending
    | zero => simp only [replaceFrom, substituteFrom, map_id, ih]

theorem replaceAll_eq_substitute (s old new : Bytes) :
    replaceAll s old new = substitute id old new s :=
  replaceFrom_eq_substituteFrom old new 0 s

theorem replaceFrom_of_countFrom {old new s : Bytes} (h : countFrom old 0 s = 0) :
    replaceFrom old new 0 s = s := by
  induction s with
  | nil => rfl
  | cons b rest ih =>
    rw [countFrom] at h
    rw [replaceFrom]
    by_cases hstart : old.isPrefixOf (b :: rest) = true
    · rw [if_pos hstart] at h
      exact absurd h (Nat.succ_ne_zero _)
    · rw [if_neg hstart] at h ⊢
      rw [ih h]

theorem replaceSecret_fst (state : Bytes × UInt64) (secret : Bytes) :
    (replaceSecret state secret).1 = replaceAll state.1 secret marker := by
  rw [replaceSecret]
  split_ifs with hcount
  · exact (replaceFrom_of_countFrom hcount).symm
  · rfl

theorem map_byte_foldl (secrets : List Bytes) (hsecrets : ∀ secret ∈ secrets, secret ≠ [])
    (cells : List Cell) (count : UInt64) :
    (secrets.foldl (fun cells secret => substitute byte secret (literal marker) cells)
      cells).map byte =
      (secrets.foldl replaceSecret (cells.map byte, count)).1 := by
  induction secrets generalizing cells count with
  | nil => rfl
  | cons secret secrets ih =>
    rw [forall_mem_cons] at hsecrets
    have hstep : (substitute byte secret (literal marker) cells).map byte =
        (replaceSecret (cells.map byte, count) secret).1 := by
      have hmap : (substitute byte secret (literal marker) cells).map byte =
          substitute id secret ((literal marker).map byte) (cells.map byte) :=
        map_substitute byte id (fun _ => rfl) hsecrets.1 cells
      rw [replaceSecret_fst, replaceAll_eq_substitute, hmap, map_byte_literal]
    rw [foldl_cons, foldl_cons, ih hsecrets.2 _
      (replaceSecret (cells.map byte, count) secret).2, hstep]

theorem length_label (input : Bytes) : (label input).length = input.length := by
  rw [label, length_map, length_zipIdx]

theorem Pipeline.map_byte_source (pipeline : Pipeline) (input : Bytes) :
    (pipeline.source input).map byte =
      toValidUTF8 (boundInput input pipeline.limits.maximumInputBytes).1 replacementRune := by
  rw [source, sanitize, map_byte_sanitizeFrom, toValidUTF8, boundCells, boundInput,
    length_label]
  split_ifs
  · rw [map_byte_label]
  · rw [map_append, map_take, map_byte_label, map_byte_literal]

variable {pipeline : Pipeline}

/-- **The trace is the output.** -/
theorem Pipeline.map_byte_trace (hsecrets : ∀ secret ∈ pipeline.exact,
    secret ≠ []) {boundary : OpenEnum Boundary} {input : Bytes} {result : Redacted}
    (h : pipeline.redact noPatterns boundary input = .ok result) :
    (pipeline.trace input).map byte = result.text := by
  simp only [redact, run_ok_iff] at h
  obtain ⟨_, -, _, -, rfl⟩ := h
  have htext : (pipeline.replaced input).map byte = (replaceSecrets pipeline.exact
      (toValidUTF8 (boundInput input pipeline.limits.maximumInputBytes).1
        replacementRune)).1 := by
    rw [replaced, map_byte_foldl _ hsecrets _ 0, pipeline.map_byte_source, replaceSecrets]
  have hout : (redactBounded pipeline noPatterns boundary
      (boundInput input pipeline.limits.maximumInputBytes).1
      (boundInput input pipeline.limits.maximumInputBytes).2).text =
      (boundOutput ((pipeline.replaced input).map byte)
        pipeline.limits.maximumOutputBytes).1 := by
    rw [htext]
    rfl
  rw [hout, trace, keptBytes, boundCells, boundOutput]
  simp only [length_map]
  split_ifs
  · rfl
  · rw [map_append, map_take, map_byte_literal]

/-! ### The input with the secrets cut out -/

/-- The input with the secrets cut out, one after the other. -/
def Pipeline.pieces (pipeline : Pipeline) (input : Bytes) : List (Piece Cell) :=
  pipeline.exact.foldl (fun pieces secret => cut byte secret (literal marker) pieces)
    ((pipeline.source input).map .kept)

/-- What a loaded secret is assumed to be: long enough and without brackets. -/
structure Eligible (secret : Bytes) : Prop where
  long : 8 ≤ secret.length
  no_open : (0x5B : UInt8) ∉ secret
  no_close : (0x5D : UInt8) ∉ secret

variable {secret : Bytes} {filling : List Cell} {pieces : List (Piece Cell)} {loaded : List Secret}
  {secretSort : SecretSort} {limits : Limits}

theorem Eligible.ne_nil (h : Eligible secret) : secret ≠ [] := by
  rintro rfl
  exact absurd h.long (by decide)

/-- The bytes of `REDACTED`. -/
def redactedWord : Bytes := [0x52, 0x45, 0x44, 0x41, 0x43, 0x54, 0x45, 0x44]

/-- The bytes of `TRUNCATED`. -/
def truncatedWord : Bytes := [0x54, 0x52, 0x55, 0x4E, 0x43, 0x41, 0x54, 0x45, 0x44]

/-- What fills a hole: the marker, between brackets once more for each later replacement in it. -/
inductive Filling : List Cell → Prop
  | plain : Filling (literal marker)
  | nested {filling : List Cell} (h : Filling filling) :
      Filling (⟨0x5B, none⟩ :: (filling ++ [⟨0x5D, none⟩]))

theorem Eligible.infix_brackets_iff (h : Eligible secret) {text : Bytes} :
    secret <:+: 0x5B :: (text ++ [0x5D]) ↔ secret <:+: text := by
  have hsplit : 0x5B :: (text ++ [0x5D]) = [] ++ 0x5B :: (text ++ 0x5D :: []) := rfl
  rw [hsplit, infix_split h.no_open, infix_split h.no_close, infix_nil,
    or_iff_right h.ne_nil, or_iff_left h.ne_nil]

theorem Filling.eq_of_within (h : Filling filling) (hsecret : Eligible secret)
    (hwithin : secret <:+: filling.map byte) : secret = redactedWord := by
  induction h with
  | plain =>
    rw [map_byte_literal] at hwithin
    have hin : secret <:+: redactedWord := hsecret.infix_brackets_iff.1 hwithin
    exact hin.eq_of_length (Nat.le_antisymm hin.length_le hsecret.long)
  | nested _ ih =>
    rw [map_cons, map_append] at hwithin
    exact ih (hsecret.infix_brackets_iff.1 hwithin)

theorem Filling.ends (h : Filling filling) :
    (∃ rest, filling = ⟨0x5B, none⟩ :: rest) ∧ ∃ front, filling = front ++ [⟨0x5D, none⟩] := by
  cases h with
  | plain => exact ⟨⟨_, rfl⟩, literal (0x5B :: redactedWord), rfl⟩
  | nested h => exact ⟨⟨_, rfl⟩, _, (cons_append).symm⟩

theorem Filling.no_origin (h : Filling filling) : ∀ cell ∈ filling, cell.origin = none := by
  induction h with
  | plain => exact forall_mem_map.2 fun _ _ => rfl
  | nested _ ih =>
    rw [forall_mem_cons, forall_mem_append, forall_mem_singleton]
    exact ⟨rfl, ih, rfl⟩

theorem Filling.substitute (h : Filling filling) (hsecret : Eligible secret) :
    Filling (substitute byte secret (literal marker) filling) := by
  have hne := hsecret.ne_nil
  by_cases hwithin : secret <:+: filling.map byte
  · obtain rfl := h.eq_of_within hsecret hwithin
    clear hwithin
    induction h with
    | plain => exact .nested .plain
    | @nested filling _ ih =>
      have hopen : byte ⟨0x5B, none⟩ ∉ redactedWord := hsecret.no_open
      have hclose : byte ⟨0x5D, none⟩ ∉ redactedWord := hsecret.no_close
      have hsplit : Library.substitute byte redactedWord (literal marker)
          ([] ++ ⟨0x5B, none⟩ :: (filling ++ ⟨0x5D, none⟩ :: [])) = ⟨0x5B, none⟩ ::
          (Library.substitute byte redactedWord (literal marker) filling ++
            [⟨0x5D, none⟩]) := by
        rw [substitute_split hne hopen, substitute_split hne hclose]
        rfl
      rw [nil_append] at hsplit
      rw [hsplit]
      exact .nested ih
  · rwa [substitute_of_absent hwithin]

/-- Every hole is filled with markers. -/
def Filled (pieces : List (Piece Cell)) : Prop :=
  ∀ filling, .hole filling ∈ pieces → Filling filling

theorem Filled.enclosed (h : Filled pieces) (hsecret : Eligible secret) :
    Enclosed byte secret pieces := by
  intro filling hfilling
  obtain ⟨⟨rest, hfirst⟩, front, hlast⟩ := (h filling hfilling).ends
  exact ⟨⟨_, rest, hfirst, hsecret.no_open⟩, front, _, hlast, hsecret.no_close⟩

theorem Filled.cut (h : Filled pieces) (hsecret : Eligible secret) :
    Filled (cut byte secret (literal marker) pieces) := by
  intro filling hfilling
  rcases hole_of_cut hsecret.ne_nil hfilling with rfl | ⟨prior, hprior, rfl⟩
  · exact .plain
  · exact (h prior hprior).substitute hsecret

theorem foldl_cut {secrets : List Bytes} (hsecrets : ∀ secret ∈ secrets, Eligible secret)
    (h : Filled pieces) :
    let cutOut := secrets.foldl (fun pieces secret => cut byte secret (literal marker) pieces)
      pieces
    Filled cutOut ∧
      render cutOut = secrets.foldl
        (fun cells secret => substitute byte secret (literal marker) cells) (render pieces) ∧
      (∀ word : Bytes, word.map some <:+: cutOut.map (Piece.see byte) →
        word.map some <:+: pieces.map (Piece.see byte)) ∧
      ∀ secret ∈ secrets, ¬ secret.map some <:+: cutOut.map (Piece.see byte) := by
  induction secrets generalizing pieces with
  | nil => exact ⟨h, rfl, fun _ hword => hword, fun _ hs => absurd hs not_mem_nil⟩
  | cons secret secrets ih =>
    rw [forall_mem_cons] at hsecrets
    obtain ⟨hfilled, hrender, hwithin, hgone⟩ := ih hsecrets.2 (h.cut hsecrets.1)
    simp only [foldl_cons]
    refine ⟨hfilled, ?_, ?_, forall_mem_cons.2 ⟨?_, hgone⟩⟩
    · rw [hrender, render_cut hsecrets.1.ne_nil (h.enclosed hsecrets.1)]
    · exact fun word hword => infix_of_cut hsecrets.1.ne_nil (hwithin word hword)
    · exact fun hword => not_infix_cut hsecrets.1.ne_nil pieces (hwithin secret hword)

section Pieces

variable (input : Bytes)

theorem Pipeline.pieces_spec (hsecrets : ∀ secret ∈ pipeline.exact, Eligible secret) :
    Filled (pipeline.pieces input) ∧ render (pipeline.pieces input) = pipeline.replaced input ∧
      ∀ secret ∈ pipeline.exact,
        ¬ secret.map some <:+: (pipeline.pieces input).map (Piece.see byte) := by
  have hstart : Filled ((pipeline.source input).map Piece.kept) := by
    intro filling hfilling
    obtain ⟨_, -, heq⟩ := mem_map.1 hfilling
    cases heq
  obtain ⟨hfilled, hrender, -, hgone⟩ := foldl_cut hsecrets hstart
  rw [render_map_kept] at hrender
  exact ⟨hfilled, hrender, hgone⟩

variable {input}

/-- The only secret that the text can still hold is the word of the marker. -/
theorem Pipeline.eq_redactedWord (hsecrets : ∀ secret ∈ pipeline.exact, Eligible secret)
    (hsecret : secret ∈ pipeline.exact)
    (h : secret <:+: (pipeline.replaced input).map byte) : secret = redactedWord := by
  obtain ⟨hfilled, hrender, hgone⟩ := pieces_spec input hsecrets
  have heligible := hsecrets secret hsecret
  rw [← hrender] at h
  rcases infix_of_render (hfilled.enclosed heligible) h with hread | ⟨filling, hfilling, hin⟩
  · exact absurd hread (hgone secret hsecret)
  · exact (hfilled filling hfilling).eq_of_within heligible hin

/-! ### When the output is safe -/

/-- The secret occurs in the input at this place. -/
def OccursAt (secret input : Bytes) (start : Nat) : Prop := secret <+: input.drop start

/-- Every cell is copied from inside an occurrence of the secret. -/
def CopiedFrom (secret : Bytes) (start : Nat) (cells : List Cell) : Prop :=
  ∀ cell ∈ cells, ∃ place, cell.origin = some place ∧ start ≤ place ∧
    place < start + secret.length

/-- No secret is in the output, and no eight consecutive bytes of it are copied from inside an
occurrence of one. -/
structure Safe (secrets : List Bytes) (input : Bytes) (output : List Cell) : Prop where
  absent : ∀ secret ∈ secrets, ¬ secret <:+: output.map byte
  uncopied : ∀ secret ∈ secrets, ∀ start, OccursAt secret input start →
    ∀ cells, cells <:+: output → 8 ≤ cells.length → ¬ CopiedFrom secret start cells

/-- No marker of the output holds a secret. A marker is there only if something was replaced or cut,
so that the secrets alone do not decide it. -/
structure Unmarked (pipeline : Pipeline) (secrets : List Bytes) (input : Bytes) : Prop where
  /-- The marker at the end of a bounded output holds no secret. -/
  bound : pipeline.limits.maximumOutputBytes < (pipeline.replaced input).length →
    ∀ secret ∈ secrets, ¬ secret <:+: truncatedWord
  /-- No marker is kept, when its word is a secret. -/
  markers : redactedWord ∈ secrets →
    ¬ redactedWord <:+: ((pipeline.replaced input).map byte).take (pipeline.keptBytes input)

/-- The output is what is kept of the text, and a marker when something is not. -/
theorem Pipeline.trace_eq (pipeline : Pipeline) (input : Bytes) :
    pipeline.trace input = (pipeline.replaced input).take (pipeline.keptBytes input) ++
      if pipeline.limits.maximumOutputBytes < (pipeline.replaced input).length
      then literal truncatedMarker else [] := by
  rw [trace, boundCells]
  split_ifs with hfits hlong hlong
  · omega
  · have hkept : pipeline.keptBytes input = (pipeline.replaced input).length := by
      rw [keptBytes]
      simp only [length_map]
      rw [if_pos hfits]
    rw [hkept, take_length, append_nil]
  · rfl
  · omega

variable (hsecrets : ∀ secret ∈ pipeline.exact, Eligible secret)

include hsecrets

variable (input) {secrets : List Bytes}

theorem absent_iff (hmem : ∀ {secret}, secret ∈ pipeline.exact ↔ secret ∈ secrets) :
    (∀ secret ∈ secrets, ¬ secret <:+: (pipeline.trace input).map byte) ↔
      Unmarked pipeline secrets input := by
  -- a secret in the output is in the text that is kept, or in the marker at its end
  have hin : ∀ secret ∈ secrets, secret <:+: (pipeline.trace input).map byte ↔
      secret <:+: ((pipeline.replaced input).map byte).take (pipeline.keptBytes input) ∨
        pipeline.limits.maximumOutputBytes < (pipeline.replaced input).length ∧
          secret <:+: truncatedWord := by
    intro secret hsecret
    have heligible := hsecrets secret (hmem.2 hsecret)
    rw [pipeline.trace_eq, map_append, map_take]
    split_ifs with hlong
    · have hword : (literal truncatedMarker).map byte =
          0x5B :: (truncatedWord ++ 0x5D :: []) := rfl
      rw [hword, infix_split heligible.no_open, infix_split heligible.no_close, infix_nil,
        or_iff_left heligible.ne_nil]
      simp [hlong]
    · simp [hlong]
  constructor
  · intro h
    refine ⟨fun hlong secret hsecret hword => ?_, fun hword hkept => ?_⟩
    · exact h secret hsecret ((hin secret hsecret).2 (.inr ⟨hlong, hword⟩))
    · exact h redactedWord hword ((hin redactedWord hword).2 (.inl hkept))
  · rintro ⟨hbound, hmarkers⟩ secret hsecret htrace
    rcases (hin secret hsecret).1 htrace with hkept | ⟨hlong, hword⟩
    · have htake := take_prefix (pipeline.keptBytes input) ((pipeline.replaced input).map byte)
      have hreplaced := hkept.trans htake.isInfix
      obtain rfl := eq_redactedWord hsecrets (hmem.2 hsecret) hreplaced
      exact hmarkers hsecret hkept
    · exact hbound hlong secret hsecret hword

end Pieces

/-- The bytes of the secrets that were loaded. -/
def loadedBytes (loaded : List Secret) : List Bytes := loaded.map Secret.value

theorem mapM_use_ok {values : List Bytes} (h : loaded.mapM Secret.use = .ok values) :
    values = loadedBytes loaded := by
  induction loaded generalizing values with
  | nil =>
    rw [mapM_nil, pure_ok_iff] at h
    exact h.symm
  | cons secret loaded ih =>
    simp only [mapM_cons, Secret.use, run_ok_iff] at h
    obtain ⟨_, ⟨_, -, rfl⟩, rest, hrest, rfl⟩ := h
    rw [ih hrest]
    rfl

theorem newPipeline_exact (h : newPipeline secretSort loaded limits = .ok pipeline) :
    pipeline.exact = secretSort.sort (loadedBytes loaded) ∧ pipeline.limits = limits := by
  simp only [newPipeline, run_ok_iff] at h
  obtain ⟨_, -, values, hvalues, rfl⟩ := h
  rw [← mapM_use_ok hvalues]
  exact ⟨rfl, rfl⟩

theorem mem_exact_iff (h : newPipeline secretSort loaded limits = .ok pipeline) :
    secret ∈ pipeline.exact ↔ secret ∈ loadedBytes loaded := by
  rw [(newPipeline_exact h).1]
  exact (secretSort.perm _).mem_iff

/-! ### When nothing of a secret is left -/

/-- The number of bytes of the input that its bound keeps. -/
def Limits.keptInput (limits : Limits) (input : Bytes) : Nat :=
  if input.length ≤ limits.maximumInputBytes then input.length
  else validUTF8Prefix input (limits.maximumInputBytes - maxSecretBytes - truncatedMarker.length)

/-- Occurrences that overlap are one inside the other. -/
def Nested (secrets : List Bytes) (input : Bytes) : Prop :=
  ∀ secret ∈ secrets, ∀ other ∈ secrets, ∀ start place, OccursAt secret input start →
    OccursAt other input place → start ≤ place → start + secret.length ≤ place ∨
      place + other.length ≤ start + secret.length ∨ start = place

/-- Nothing in the input, the limits and the secrets leads to an exposure. -/
structure Separable (limits : Limits) (secrets : List Bytes) (input : Bytes) : Prop where
  /-- An input that is not cut is valid UTF-8. -/
  valid : input.length ≤ limits.maximumInputBytes → validUTF8 input = true
  /-- The cut of the input falls inside no occurrence. -/
  uncut : ∀ secret ∈ secrets, ∀ start, OccursAt secret input start →
    start < limits.keptInput input → start + secret.length ≤ limits.keptInput input
  nested : Nested secrets input
  /-- No secret is part of a marker. -/
  markers : ∀ secret ∈ secrets, ¬ secret <:+: redactedWord ∧ ¬ secret <:+: truncatedWord

section Cleared

variable {secrets : List Bytes} {input : Bytes} {kept : Nat} {done : List Bytes}
  {cells : List (Option Cell)} {start count : Nat}

theorem sanitizeFrom_of_valid {cells : List Cell} {pending : Nat}
    (h : validRunes pending (cells.map byte) = true) (invalid : Bool) :
    sanitizeFrom pending invalid cells = cells := by
  induction cells generalizing pending invalid with
  | nil => cases pending <;> rfl
  | cons cell rest ih =>
    cases pending with
    | succ pending => exact congrArg (cell :: ·) (ih h false)
    | zero =>
      rw [map_cons, validRunes] at h
      rw [sanitizeFrom]
      cases hwidth : runeWidth ((cell :: rest).map byte) with
      | zero =>
        rw [map_cons] at hwidth
        rw [hwidth] at h
        cases h
      | succ width =>
        rw [map_cons] at hwidth
        rw [hwidth] at h
        simp only [ih h]

theorem runes_validUTF8Prefix (text : Bytes) (maximum : Nat) :
    Runes (text.take (validUTF8Prefix text maximum)) := by
  rw [validUTF8Prefix]
  induction min maximum text.length with
  | zero => exact .nil
  | succ n ih =>
    rw [validPrefixFrom]
    split_ifs with hvalid
    · exact validUTF8_iff.1 hvalid
    · exact ih

/-- The cells of the input at these places. -/
def span (input : Bytes) (start count : Nat) : List Cell := ((label input).drop start).take count

theorem source_eq (hvalid : input.length ≤ pipeline.limits.maximumInputBytes →
      validUTF8 input = true) :
    pipeline.source input = span input 0 (pipeline.limits.keptInput input) ++
      if input.length ≤ pipeline.limits.maximumInputBytes then []
      else literal truncatedMarker := by
  rw [source, boundCells, length_label, Limits.keptInput, span, drop_zero]
  split_ifs with hfits
  · rw [sanitize, sanitizeFrom_of_valid, ← length_label, take_length, append_nil]
    rw [map_byte_label]
    exact hvalid hfits
  · refine sanitizeFrom_of_valid ?_ _
    have htext := (runes_validUTF8Prefix input (pipeline.limits.maximumInputBytes - maxSecretBytes -
      truncatedMarker.length)).append (runes_of_ascii (s := truncatedMarker) (by decide))
    rw [← validUTF8_iff, validUTF8] at htext
    rwa [map_append, map_take, map_byte_label, map_byte_literal]

theorem nodup_label : (label input).Nodup := by
  refine .of_map origin ?_
  have horigins : (label input).map origin = (input.zipIdx.map Prod.snd).map some := by
    rw [label, map_map, map_map]
    rfl
  rw [horigins, zipIdx_map_snd]
  exact Nodup.map (Option.some_injective _) nodup_range'

theorem mem_span_iff {c : Cell} : c ∈ span input start count ↔
    c ∈ label input ∧ ∃ place, c.origin = some place ∧ start ≤ place ∧ place < start + count := by
  have hplace : ∀ place, (label input)[place]? = some c →
      c.origin = some place := by
    intro place hc
    rw [label, getElem?_map, getElem?_zipIdx, Option.map_map, Option.map_eq_some_iff] at hc
    obtain ⟨b, -, rfl⟩ := hc
    rw [Function.comp_apply, Nat.zero_add]
  rw [span, mem_iff_getElem?, mem_iff_getElem?]
  simp only [getElem?_take, getElem?_drop]
  constructor
  · rintro ⟨i, hi⟩
    split_ifs at hi with hlt
    exact ⟨⟨_, hi⟩, _, hplace _ hi, by omega, by omega⟩
  · rintro ⟨⟨i, hi⟩, place, horigin, hstart, hend⟩
    obtain rfl : i = place := Option.some.inj ((hplace i hi).symm.trans horigin)
    refine ⟨i - start, ?_⟩
    rw [if_pos (by omega), Nat.add_sub_cancel' hstart, hi]

theorem isInfix_span (h : start + count ≤ kept) :
    span input start count <:+: span input 0 kept := by
  have hcells : span input start count = ((span input 0 kept).drop start).take count := by
    rw [span, span, drop_zero, drop_take, take_take, Nat.min_eq_left (by omega)]
  rw [hcells]
  have htake := take_prefix count ((span input 0 kept).drop start)
  exact htake.isInfix.trans (drop_suffix _ _).isInfix

theorem OccursAt.end_le (h : OccursAt secret input start) (hsecret : secret ≠ []) :
    start + secret.length ≤ input.length := by
  have hlength := h.length_le
  rw [length_drop] at hlength
  have hpos := length_pos_iff.2 hsecret
  omega

theorem OccursAt.map_byte_span (h : OccursAt secret input start) :
    (span input start secret.length).map byte = secret := by
  rw [span, map_take, map_drop, map_byte_label]
  exact (prefix_iff_eq_take.1 h).symm

/-- The secret occurs in what is kept of the input. -/
def OccursIn (input : Bytes) (kept : Nat) (secret : Bytes) (start : Nat) : Prop :=
  OccursAt secret input start ∧ start + secret.length ≤ kept

theorem occursIn_of_infix {block : List Cell} (h : block <:+: span input 0 kept) :
    ∃ start, OccursIn input kept (block.map byte) start ∧
      block = span input start block.length := by
  obtain ⟨front, back, hsplit⟩ := h
  obtain ⟨tail, hlabel⟩ : ∃ tail, label input = front ++ (block ++ tail) := by
    refine ⟨back ++ (label input).drop kept, ?_⟩
    rw [← append_assoc, ← append_assoc, hsplit, span, drop_zero, take_append_drop]
  have hblock : block = span input front.length block.length := by
    rw [span, hlabel, drop_left, take_left]
  refine ⟨front.length, ⟨?_, ?_⟩, hblock⟩
  · have hbytes : input.drop front.length = (block ++ tail).map byte := by
      rw [← @drop_left _ front (block ++ tail), ← hlabel, map_drop, map_byte_label]
    rw [OccursAt, hbytes, map_append]
    exact prefix_append _ _
  · have hlength := congrArg List.length hsplit
    rw [length_append, length_append, span, length_take] at hlength
    rw [length_map]
    omega

/-- The cells with the secrets cut out, one after the other. -/
def cutOut (secrets : List Bytes) (cells : List (Option Cell)) : List (Option Cell) :=
  secrets.foldl (fun cells secret => substitute (Option.map byte) (secret.map some) [none] cells)
    cells

/-- Nothing of the occurrence is left. -/
def Gone (input secret : Bytes) (start : Nat) (cells : List (Option Cell)) : Prop :=
  ∀ c ∈ span input start secret.length, some c ∉ cells

/-- The occurrences on the way: each is still together, or nothing of it is left, as it is for the
secrets that are done. -/
structure Clearing (secrets : List Bytes) (input : Bytes) (kept : Nat) (done : List Bytes)
    (cells : List (Option Cell)) : Prop where
  joined : ∀ block : List Cell, block.map some <:+: cells → block <:+: span input 0 kept
  distinct : cells.Pairwise fun a b => a = b → a = none
  whole : ∀ secret ∈ secrets, ∀ start, OccursIn input kept secret start →
    (span input start secret.length).map some <:+: cells ∨ Gone input secret start cells
  gone : ∀ secret ∈ done, ∀ start, OccursIn input kept secret start → Gone input secret start cells

theorem clearing_start : Clearing secrets input kept [] ((span input 0 kept).map some) where
  joined block h := by simpa using h.filterMap id
  distinct := by
    rw [pairwise_map]
    refine Pairwise.imp (fun hne heq => absurd (Option.some.inj heq) hne) ?_
    exact nodup_label.sublist (((take_sublist _ _).trans (drop_sublist _ _)))
  whole secret _ start hin := .inl ((isInfix_span hin.2).map some)
  gone _ h := absurd h not_mem_nil

theorem Gone.substitute (h : Gone input secret start cells) {other : Bytes} (hother : other ≠ []) :
    Gone input secret start
      (substitute (Option.map byte) (other.map some) [none] cells) := by
  intro c hc hmem
  rcases mem_of_mem_substitute (mt map_eq_nil_iff.1 hother) hmem with hcells | hnone
  · exact h c hc hcells
  · cases mem_singleton.1 hnone

theorem Nested.within (h : Nested secrets input) {other : Bytes} {place shared : Nat}
    (hsecret : secret ∈ secrets) (hother : other ∈ secrets) (hoccurs : OccursAt secret input start)
    (hoccurs' : OccursAt other input place)
    (hshared : start ≤ shared ∧ shared < start + secret.length)
    (hshared' : place ≤ shared ∧ shared < place + other.length) :
    start ≤ place ∧ place + other.length ≤ start + secret.length ∨
      secret.length < other.length := by
  rcases Nat.le_total start place with hle | hle
  · have hcases := h secret hsecret other hother start place hoccurs hoccurs' hle
    omega
  · have hcases := h other hother secret hsecret place start hoccurs' hoccurs hle
    omega

/-- Cells that are read as a word were not cut out. -/
theorem cells_of_map {found : List (Option Cell)}
    (h : found.map (Option.map byte) = secret.map some) :
    ∃ block : List Cell, found = block.map some ∧ block.map byte = secret := by
  induction secret generalizing found with
  | nil => exact ⟨[], map_eq_nil_iff.1 h, rfl⟩
  | cons b secret ih =>
    obtain ⟨c, rest, rfl, hc, hrest⟩ := map_eq_cons_iff.1 h
    obtain ⟨c, rfl, rfl⟩ := Option.map_eq_some_iff.1 hc
    obtain ⟨block, rfl, rfl⟩ := ih hrest
    exact ⟨c :: block, rfl, rfl⟩

section

variable (h : Clearing secrets input kept done cells)

include h

/-- An occurrence that loses something to one of a secret that is no shorter is inside it. -/
theorem Clearing.gone_of_broken {other : Bytes}
    (hnested : Nested secrets input) (hsecret : secret ∈ secrets) (hother : other ∈ secrets)
    (hlong : ∀ other ∈ secrets, secret.length < other.length → other ∈ done)
    (hin : OccursIn input kept other start)
    (hbroken : Broken (Option.map byte) (secret.map some) [none] cells
      ((span input start other.length).map some)) :
    Gone input other start
      (substitute (Option.map byte) (secret.map some) [none] cells) := by
  obtain ⟨found, hfound, hread, ⟨_, hcell, hshared⟩, hgone⟩ := hbroken
  obtain ⟨block, rfl, rfl⟩ := cells_of_map hread
  obtain ⟨c, hc, rfl⟩ := mem_map.1 hcell
  obtain ⟨place, hplace, hblock⟩ := occursIn_of_infix (h.joined block hfound)
  have hcblock : c ∈ block := (mem_map_of_injective (Option.some_injective _)).1 hshared
  rw [hblock] at hcblock
  obtain ⟨-, i, hi, hrange⟩ := mem_span_iff.1 hc
  obtain ⟨-, i', hi', hrange'⟩ := mem_span_iff.1 hcblock
  obtain rfl := Option.some.inj (hi.symm.trans hi')
  rw [← length_map byte] at hrange'
  rcases hnested.within hsecret hother hplace.1 hin.1 hrange' hrange with ⟨hle, hend⟩ | hlt
  · intro c' hc'
    obtain ⟨hlabel, i', hi', hrange⟩ := mem_span_iff.1 hc'
    refine hgone _ (mem_map_of_mem ?_)
    rw [length_map] at hend
    rw [hblock]
    exact mem_span_iff.2 ⟨hlabel, i', hi', by omega, by omega⟩
  · exact absurd (hfound.subset hshared) (h.gone other (hlong other hother hlt) start hin c hc)

/-- A secret that is no shorter than those to come is cut out. -/
theorem Clearing.step
    (hnested : Nested secrets input) (hsecret : secret ∈ secrets) (hne : secret ≠ [])
    (hlong : ∀ other ∈ secrets, secret.length < other.length → other ∈ done) :
    Clearing secrets input kept (secret :: done)
      (substitute (Option.map byte) (secret.map some) [none] cells) := by
  have hold : secret.map some ≠ [] := mt map_eq_nil_iff.1 hne
  have hnone : Option.map byte none ∉ secret.map some := by simp
  have hwhole : ∀ other ∈ secrets, ∀ start, OccursIn input kept other start →
      (span input start other.length).map some <:+:
        substitute (Option.map byte) (secret.map some) [none] cells ∨
      Gone input other start (substitute (Option.map byte) (secret.map some) [none] cells) := by
    intro other hother start hin
    rcases h.whole other hother start hin with hwhole | hgone
    · refine (infix_or_broken hold ?_ ?_ hwhole).imp_right fun hbroken => ?_
      · exact forall_mem_singleton.2 hnone
      · refine h.distinct.imp fun {a b} heq hab hmem => hnone ?_
        rwa [heq hab] at hmem
      · exact h.gone_of_broken hnested hsecret hother hlong hin hbroken
    · exact .inr (hgone.substitute hne)
  refine ⟨?_, ?_, hwhole, forall_mem_cons.2 ⟨?_, ?_⟩⟩
  · intro block hblock
    refine h.joined block ?_
    rw [← map_id (substitute _ _ _ _)] at hblock
    have hbefore := infix_of_substitute id hold (by simp) hblock
    rwa [map_id] at hbefore
  · exact pairwise_substitute hold h.distinct (fun _ heq => heq) (fun _ _ => rfl)
  · intro start hin
    refine (hwhole secret hsecret start hin).resolve_left fun hwhole => ?_
    have hread := hwhole.map (Option.map byte)
    rw [map_map, Option.map_comp_some, ← map_map, hin.1.map_byte_span] at hread
    exact not_infix_substitute hold hnone hread
  · exact fun other hother start hin => (h.gone other hother start hin).substitute hne

/-- Nothing is left of an occurrence once the secrets are cut out, the longest first. -/
theorem Clearing.cutOut {exact : List Bytes}
    (hnested : Nested secrets input) (hexact : ∀ secret ∈ exact, secret ∈ secrets ∧ secret ≠ [])
    (hsorted : exact.Pairwise fun a b => b.length ≤ a.length)
    (hall : ∀ secret ∈ secrets, secret ∈ done ∨ secret ∈ exact) (hsecret : secret ∈ secrets)
    (hin : OccursIn input kept secret start) :
    Gone input secret start (cutOut exact cells) := by
  induction exact generalizing done cells with
  | nil => exact h.gone secret ((hall secret hsecret).resolve_right not_mem_nil) start hin
  | cons next exact ih =>
    rw [forall_mem_cons] at hexact
    rw [pairwise_cons] at hsorted
    refine ih (h.step hnested hexact.1.1 hexact.1.2 ?_) hexact.2 hsorted.2 ?_
    · intro other hother hlong
      refine (hall other hother).resolve_right fun hmem => ?_
      rcases mem_cons.1 hmem with rfl | hmem
      · exact absurd hlong (Nat.lt_irrefl _)
      · exact absurd (hsorted.1 other hmem) (Nat.not_le.2 hlong)
    · intro other hother
      rcases hall other hother with hdone | hmem
      · exact .inl (mem_cons_of_mem _ hdone)
      · exact (mem_cons.1 hmem).imp_left fun heq => mem_cons.2 (.inl heq)

end

/-- What is kept of the pieces is what is left of the source. -/
theorem map_see_foldl_cut (pieces : List (Piece Cell))
    (hsecrets : ∀ secret ∈ secrets, secret ≠ []) :
    (secrets.foldl (fun pieces secret => cut byte secret (literal marker) pieces) pieces).map
      (Piece.see id) = cutOut secrets (pieces.map (Piece.see id)) := by
  induction secrets generalizing pieces with
  | nil => rfl
  | cons secret secrets ih =>
    rw [forall_mem_cons] at hsecrets
    rw [foldl_cons, ih _ hsecrets.2, map_see_id_cut hsecrets.1]
    rfl

theorem cutOut_append {a b : List (Option Cell)} {c : Cell}
    (hsecrets : ∀ secret ∈ secrets, secret ≠ [] ∧ c.byte ∉ secret) :
    cutOut secrets (a ++ some c :: b) = cutOut secrets a ++ some c :: cutOut secrets b := by
  induction secrets generalizing a b with
  | nil => rfl
  | cons secret secrets ih =>
    rw [forall_mem_cons] at hsecrets
    rw [cutOut, foldl_cons, substitute_split (mt map_eq_nil_iff.1 hsecrets.1.1) (by
      simpa using hsecrets.1.2)]
    exact ih hsecrets.2

theorem mem_of_mem_cutOut {c : Cell} (hsecrets : ∀ secret ∈ secrets, secret ≠ [])
    (h : some c ∈ cutOut secrets cells) : some c ∈ cells := by
  induction secrets generalizing cells with
  | nil => exact h
  | cons secret secrets ih =>
    rw [forall_mem_cons] at hsecrets
    rcases mem_of_mem_substitute (mt map_eq_nil_iff.1 hsecrets.1) (ih hsecrets.2 h) with h | h
    · exact h
    · cases mem_singleton.1 h

section Copied

variable {c : Cell} {place : Nat} (horigin : c.origin = some place)

include horigin

theorem not_mem_literal (text : Bytes) : c ∉ literal text := by
  intro h
  obtain ⟨b, -, rfl⟩ := mem_map.1 h
  cases horigin

theorem kept_of_trace (hexact : ∀ secret ∈ pipeline.exact, Eligible secret)
    (h : c ∈ pipeline.trace input) :
    some c ∈ cutOut pipeline.exact ((pipeline.source input).map some) := by
  obtain ⟨hfilled, hrender, -⟩ := pieces_spec input hexact
  have hreplaced : c ∈ pipeline.replaced input := by
    rw [pipeline.trace_eq, mem_append] at h
    refine h.elim mem_of_mem_take fun h => ?_
    split_ifs at h
    · exact absurd h (not_mem_literal horigin _)
    · cases h
  have hpieces := map_see_foldl_cut ((pipeline.source input).map .kept)
    fun secret hs => (hexact secret hs).ne_nil
  rw [map_map] at hpieces
  rw [← hrender, render, mem_flatMap] at hreplaced
  obtain ⟨piece, hpiece, hc⟩ := hreplaced
  have hsee := mem_map_of_mem (f := Piece.see id) hpiece
  rw [Pipeline.pieces, hpieces] at hsee
  cases piece with
  | kept a =>
    rw [mem_singleton.1 hc]
    exact hsee
  | hole filling =>
    rw [(hfilled filling hpiece).no_origin c hc] at horigin
    cases horigin

/-- A copied byte of the output is left of what the bound keeps. -/
theorem left_of_trace (hexact : ∀ secret ∈ pipeline.exact, Eligible secret)
    (hvalid : input.length ≤ pipeline.limits.maximumInputBytes → validUTF8 input = true)
    (h : c ∈ pipeline.trace input) :
    some c ∈ cutOut pipeline.exact
      ((span input 0 (pipeline.limits.keptInput input)).map some) := by
  have hkept := kept_of_trace horigin hexact h
  rw [source_eq hvalid, map_append] at hkept
  split_ifs at hkept
  · rwa [map_nil, append_nil] at hkept
  · have hmarker : (literal truncatedMarker).map some =
        some ⟨0x5B, none⟩ :: (literal (truncatedMarker.drop 1)).map some := rfl
    rw [hmarker, cutOut_append fun secret hs => ⟨(hexact secret hs).ne_nil,
      (hexact secret hs).no_open⟩, mem_append, mem_cons] at hkept
    rcases hkept with hkept | heq | hkept
    · exact hkept
    · rw [Option.some.inj heq] at horigin
      cases horigin
    · have hmem := mem_of_mem_cutOut (fun secret hs => (hexact secret hs).ne_nil) hkept
      rw [mem_map_of_injective (Option.some_injective _)] at hmem
      exact absurd hmem (not_mem_literal horigin _)

end Copied

end Cleared

/-- Sort secrets of one length as they come. -/
def byLength : SecretSort where
  sort := List.insertionSort fun a b => b.length ≤ a.length
  perm := perm_insertionSort _
  sorted := pairwise_insertionSort _

/-- The bytes of `correct-horse`. -/
def sampleSecret : Secret :=
  ⟨[0x63, 0x6F, 0x72, 0x72, 0x65, 0x63, 0x74, 0x2D, 0x68, 0x6F, 0x72, 0x73, 0x65], by decide⟩

/-- A pipeline with one secret. -/
def samplePipeline : Pipeline := ⟨[sampleSecret.value], ⟨4096, 4096⟩, false, by decide⟩

theorem newPipeline_sample :
    newPipeline byLength [sampleSecret] ⟨4096, 4096⟩ = .ok samplePipeline := rfl

/-- Text, a secret that the bound of the input cuts after eight bytes, and more text. -/
def straddling : Bytes :=
  List.replicate 1517 0x61 ++ sampleSecret.value ++ List.replicate 2600 0x61

theorem trace_straddling : ((samplePipeline.trace straddling).drop 1517).take 8 =
    ((label straddling).drop 1517).take 8 := by
  decide +kernel

theorem sampleSecret_eligible : ∀ secret ∈ loadedBytes [sampleSecret], Eligible secret := by
  intro secret hsecret
  rw [mem_singleton.1 hsecret]
  exact ⟨by decide, by decide, by decide⟩

theorem sampleSecret_separable :
    Separable ⟨4096, 4096⟩ (loadedBytes [sampleSecret]) sampleSecret.value where
  valid _ := by decide
  uncut secret hsecret start hoccurs _ :=
    hoccurs.end_le (sampleSecret_eligible secret hsecret).ne_nil
  nested secret hsecret other hother start place hoccurs hoccurs' hle := by
    obtain rfl := mem_singleton.1 hsecret
    obtain rfl := mem_singleton.1 hother
    have hend := hoccurs.end_le (by decide)
    have hend' := hoccurs'.end_le (by decide)
    omega
  markers := by decide

end Codeflux.Redact
