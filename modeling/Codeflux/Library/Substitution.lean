import Mathlib.Data.List.Infix

/-!
# Replacing the occurrences of a word

A text is scanned from left to right for a word, and each occurrence that is found is replaced. The
text is a list of cells, of which only a part is compared, so that a cell can carry where it comes
from. Seen from outside, the scan leaves holes: a text with holes is a list of pieces.
-/

namespace Codeflux.Library

open List

universe u v

variable {α : Type u} {β : Type v} [DecidableEq β] (read : α → β) (old : List β) (new : List α)

/-- Replaces from left to right; the first argument counts the cells of the current occurrence that
are still to pass. -/
def substituteFrom : Nat → List α → List α
  | _, [] => []
  | pending + 1, _ :: rest => substituteFrom pending rest
  | 0, a :: rest =>
    if old.isPrefixOf ((a :: rest).map read) then new ++ substituteFrom (old.length - 1) rest
    else a :: substituteFrom 0 rest

/-- Replace the occurrences of a word that are found from left to right. -/
def substitute (text : List α) : List α := substituteFrom read old new 0 text

variable {old new}

/-- **The induction of the scan.** -/
theorem scan_induction {motive : List α → Prop} (hold : old ≠ []) (nil : motive [])
    (hit : ∀ block rest, block.map read = old → motive rest → motive (block ++ rest))
    (miss : ∀ a rest, ¬ old <+: (a :: rest).map read → motive rest → motive (a :: rest))
    (text : List α) : motive text := by
  induction hlen : text.length using Nat.strong_induction_on generalizing text with
  | _ length ih =>
    cases text with
    | nil => exact nil
    | cons a rest =>
      by_cases h : old <+: (a :: rest).map read
      · obtain ⟨block, tail, hsplit, hblock, -⟩ :=
          map_eq_append_iff.1 (prefix_iff_eq_append.1 h).symm
        rw [hsplit]
        refine hit block tail hblock (ih tail.length ?_ tail rfl)
        have hpos : 0 < block.length := by
          have hlength := length_pos_iff.2 hold
          rwa [← hblock, length_map] at hlength
        rw [hsplit, length_append] at hlen
        omega
      · refine miss a rest h (ih rest.length ?_ rest rfl)
        rw [← hlen, length_cons]
        exact Nat.lt_succ_self _

variable {read}

theorem substituteFrom_eq (pending : Nat) (text : List α) :
    substituteFrom read old new pending text = substitute read old new (text.drop pending) := by
  induction pending generalizing text with
  | zero => rfl
  | succ pending ih =>
    cases text with
    | nil => rfl
    | cons a rest => exact ih rest

@[simp] theorem substitute_nil : substitute read old new [] = [] := rfl

theorem substitute_hit {block rest : List α} (hold : old ≠ []) (hblock : block.map read = old) :
    substitute read old new (block ++ rest) = new ++ substitute read old new rest := by
  cases block with
  | nil => exact absurd hblock.symm hold
  | cons a block =>
    have hstart : old.isPrefixOf ((a :: (block ++ rest)).map read) = true := by
      refine isPrefixOf_iff_prefix.2 ?_
      rw [← hblock, ← cons_append, map_append]
      exact prefix_append _ _
    have hlength : old.length - 1 = block.length := by
      rw [← hblock, length_map, length_cons, Nat.add_sub_cancel]
    rw [cons_append, substitute, substituteFrom, if_pos hstart, hlength, substituteFrom_eq,
      drop_left]

theorem substitute_miss {a : α} {rest : List α} (h : ¬ old <+: (a :: rest).map read) :
    substitute read old new (a :: rest) = a :: substitute read old new rest := by
  have hstart : ¬ old.isPrefixOf ((a :: rest).map read) = true := mt isPrefixOf_iff_prefix.1 h
  rw [substitute, substituteFrom, if_neg hstart]
  rfl

/-! ### Symbols that are not in the word -/

omit [DecidableEq β] in
theorem prefix_of_prefix_append {word a b : List β} {c : β} (hc : c ∉ word)
    (h : word <+: a ++ c :: b) : word <+: a := by
  induction word generalizing a with
  | nil => exact nil_prefix
  | cons x word ih =>
    rw [mem_cons, not_or] at hc
    cases a with
    | nil => exact absurd (cons_prefix_cons.1 h).1.symm hc.1
    | cons y a =>
      obtain ⟨rfl, htail⟩ := cons_prefix_cons.1 h
      exact cons_prefix_cons.2 ⟨rfl, ih hc.2 htail⟩

omit [DecidableEq β] in
theorem infix_split {word a b : List β} {c : β} (hc : c ∉ word) :
    word <:+: a ++ c :: b ↔ word <:+: a ∨ word <:+: b := by
  constructor
  · intro h
    induction a with
    | nil =>
      rw [nil_append, infix_cons_iff] at h
      refine h.imp (fun hstart => ?_) id
      exact (prefix_of_prefix_append (a := []) hc hstart).isInfix
    | cons x a ih =>
      rw [cons_append, infix_cons_iff] at h
      rcases h with h | h
      · exact .inl (prefix_of_prefix_append (a := x :: a) hc h).isInfix
      · exact (ih h).imp_left fun hin => infix_cons_iff.2 (.inr hin)
  · rintro (h | h)
    · exact h.trans (infix_append' [] a (c :: b))
    · exact h.trans ((suffix_cons c b).isInfix.trans (suffix_append a (c :: b)).isInfix)

/-- **A scan does not reach across a symbol that is not in the word.** -/
theorem substitute_split (hold : old ≠ []) {c : α} (hc : read c ∉ old) (a b : List α) :
    substitute read old new (a ++ c :: b) =
      substitute read old new a ++ c :: substitute read old new b := by
  induction a using scan_induction read hold with
  | nil =>
    refine substitute_miss fun hstart => ?_
    exact hold (prefix_nil.1 (prefix_of_prefix_append (a := []) hc hstart))
  | hit block rest hblock ih =>
    rw [append_assoc, substitute_hit hold hblock, ih, substitute_hit hold hblock,
      append_assoc]
  | miss x rest hmiss ih =>
    have hmiss' : ¬ old <+: (x :: (rest ++ c :: b)).map read := by
      intro hstart
      rw [← cons_append, map_append, map_cons] at hstart
      exact hmiss (prefix_of_prefix_append hc hstart)
    rw [cons_append, substitute_miss hmiss', ih, substitute_miss hmiss, cons_append]

theorem substitute_of_absent {text : List α} (h : ¬ old <:+: text.map read) :
    substitute read old new text = text := by
  induction text with
  | nil => rfl
  | cons a rest ih =>
    rw [map_cons, infix_cons_iff, not_or] at h
    rw [substitute_miss h.1, ih h.2]

theorem mem_of_mem_substitute (hold : old ≠ []) {text : List α} {a : α}
    (h : a ∈ substitute read old new text) : a ∈ text ∨ a ∈ new := by
  induction text using scan_induction read hold with
  | nil => exact .inl h
  | hit block rest hblock ih =>
    rw [substitute_hit hold hblock, mem_append] at h
    rcases h with h | h
    · exact .inr h
    · exact (ih h).imp_left (mem_append_right block)
  | miss x rest hmiss ih =>
    rw [substitute_miss hmiss, mem_cons] at h
    rcases h with rfl | h
    · exact .inl mem_cons_self
    · exact (ih h).imp_left (mem_cons_of_mem x)

theorem map_substitute {γ : Type*} (f : α → γ) (g : γ → β) (hread : ∀ a, g (f a) = read a)
    (hold : old ≠ []) (text : List α) :
    (substitute read old new text).map f = substitute g old (new.map f) (text.map f) := by
  have hmap : ∀ l : List α, (l.map f).map g = l.map read := by
    intro l
    rw [map_map]
    exact map_congr_left fun a _ => hread a
  induction text using scan_induction read hold with
  | nil => rfl
  | hit block rest hblock ih =>
    rw [substitute_hit hold hblock, map_append, map_append, ih,
      substitute_hit hold (by rw [hmap, hblock])]
  | miss a rest hmiss ih =>
    rw [substitute_miss hmiss, map_cons, map_cons, ih, substitute_miss]
    rwa [← map_cons, hmap]

/-! ### What a replacement by one cell keeps -/

section Observed

variable {γ : Type*} (look : α → γ) {c : α} {text : List α}

/-- A word that avoids the cell that is put in, and stands at the start after a replacement, stood
there before. -/
theorem prefix_of_substitute (hold : old ≠ []) {word : List γ} (hword : look c ∉ word)
    (h : word <+: (substitute read old [c] text).map look) : word <+: text.map look := by
  induction text using scan_induction read hold generalizing word with
  | nil => exact h
  | hit block rest hblock ih =>
    rw [substitute_hit hold hblock, map_append] at h
    cases word with
    | nil => exact nil_prefix
    | cons b word => exact absurd (mem_cons.2 (.inl (cons_prefix_cons.1 h).1.symm)) hword
  | miss a rest hmiss ih =>
    rw [substitute_miss hmiss, map_cons] at h
    cases word with
    | nil => exact nil_prefix
    | cons b word =>
      obtain ⟨rfl, htail⟩ := cons_prefix_cons.1 h
      exact cons_prefix_cons.2 ⟨rfl, ih (fun hc => hword (mem_cons_of_mem _ hc)) htail⟩

/-- **A replacement by one cell brings no new word that avoids the cell.** -/
theorem infix_of_substitute (hold : old ≠ []) {word : List γ} (hword : look c ∉ word)
    (h : word <:+: (substitute read old [c] text).map look) : word <:+: text.map look := by
  induction text using scan_induction read hold with
  | nil => exact h
  | hit block rest hblock ih =>
    rw [substitute_hit hold hblock, map_append] at h
    rw [map_append]
    rcases (infix_split (a := []) hword).1 h with h | h
    · exact h.trans (infix_append' [] [] _)
    · exact (ih h).trans (suffix_append _ _).isInfix
  | miss a rest hmiss ih =>
    have hcons : substitute read old [c] (a :: rest) = a :: substitute read old [c] rest :=
      substitute_miss hmiss
    rw [hcons, map_cons, infix_cons_iff] at h
    rcases h with h | h
    · rw [← map_cons, ← hcons] at h
      exact (prefix_of_substitute look hold hword h).isInfix
    · exact (ih h).trans (suffix_cons _ _).isInfix

/-- **The word that is replaced is gone.** -/
theorem not_infix_substitute (hold : old ≠ []) (hc : read c ∉ old) :
    ¬ old <:+: (substitute read old [c] text).map read := by
  induction text using scan_induction read hold with
  | nil => exact fun h => hold (infix_nil.1 h)
  | hit block rest hblock ih =>
    rw [substitute_hit hold hblock, map_append]
    exact fun h => ((infix_split (a := []) hc).1 h).elim (fun h => hold (infix_nil.1 h)) ih
  | miss a rest hmiss ih =>
    have hcons : substitute read old [c] (a :: rest) = a :: substitute read old [c] rest :=
      substitute_miss hmiss
    intro h
    rw [hcons, map_cons, infix_cons_iff] at h
    rcases h with h | h
    · rw [← map_cons, ← hcons] at h
      exact hmiss (prefix_of_substitute read hold hc h)
    · exact ih h

theorem pairwise_substitute (hold : old ≠ []) {R : α → α → Prop} (h : text.Pairwise R)
    (hleft : ∀ a, R a c) (hright : ∀ a, R c a) : (substitute read old [c] text).Pairwise R := by
  induction text using scan_induction read hold with
  | nil => exact .nil
  | hit block rest hblock ih =>
    rw [substitute_hit hold hblock]
    exact pairwise_cons.2 ⟨fun a _ => hright a, ih (pairwise_append.1 h).2.1⟩
  | miss a rest hmiss ih =>
    rw [pairwise_cons] at h
    rw [substitute_miss hmiss, pairwise_cons]
    refine ⟨fun b hb => ?_, ih h.2⟩
    rcases mem_of_mem_substitute hold hb with hb | hb
    · exact h.1 b hb
    · exact mem_singleton.1 hb ▸ hleft a

end Observed

/-! ### What becomes of a block -/

section Block

variable {text block front rest : List α}

/-- Something of the block is in an occurrence that a replacement removes. -/
def Broken (read : α → β) (old : List β) (new text block : List α) : Prop :=
  ∃ found, found <:+: text ∧ found.map read = old ∧ (∃ a ∈ block, a ∈ found) ∧
    ∀ a ∈ found, a ∉ substitute read old new text

/-- No cell of the word is there twice. -/
def Distinct (read : α → β) (old : List β) (text : List α) : Prop :=
  text.Pairwise fun a b => a = b → read a ∉ old

theorem Broken.append (front put : List α) (h : Broken read old new rest block)
    (hdistinct : Distinct read old (front ++ rest)) (hput : ∀ a ∈ put, a ∈ front ∨ read a ∉ old)
    (hscan : substitute read old new (front ++ rest) = put ++ substitute read old new rest) :
    Broken read old new (front ++ rest) block := by
  obtain ⟨found, hin, hfound, hshared, hgone⟩ := h
  refine ⟨found, hin.trans (suffix_append _ _).isInfix, hfound, hshared, fun a ha hmem => ?_⟩
  have hread : read a ∈ old := hfound ▸ mem_map_of_mem ha
  rw [hscan, mem_append] at hmem
  rcases hmem with hmem | hmem
  · rcases hput a hmem with hfront | hnot
    · exact (pairwise_append.1 hdistinct).2.2 a hfront a (hin.subset ha) rfl hread
    · exact hnot hread
  · exact hgone a ha hmem

omit [DecidableEq β] in
theorem infix_of_disjoint (hshared : ¬∃ a ∈ block, a ∈ front) (h : block <:+: front ++ rest) :
    block <:+: rest := by
  induction front with
  | nil => exact h
  | cons x front ih =>
    rw [cons_append, infix_cons_iff] at h
    rcases h with h | h
    · cases block with
      | nil => exact nil_infix
      | cons a block =>
        exact absurd ⟨a, mem_cons_self, (cons_prefix_cons.1 h).1 ▸ mem_cons_self⟩ hshared
    · exact ih (fun ⟨a, ha, hfront⟩ => hshared ⟨a, ha, mem_cons_of_mem x hfront⟩) h

variable (hold : old ≠ []) (hnew : ∀ a ∈ new, read a ∉ old)

include hold hnew

theorem broken_hit (hdistinct : Distinct read old (front ++ rest)) (hfront : front.map read = old)
    (hshared : ∃ a ∈ block, a ∈ front) : Broken read old new (front ++ rest) block := by
  refine ⟨front, (prefix_append _ _).isInfix, hfront, hshared, fun a ha hmem => ?_⟩
  have hread : read a ∈ old := hfront ▸ mem_map_of_mem ha
  rw [substitute_hit hold hfront, mem_append] at hmem
  rcases hmem.imp_right (mem_of_mem_substitute hold) with hmem | hmem | hmem
  · exact hnew a hmem hread
  · exact (pairwise_append.1 hdistinct).2.2 a ha a hmem rfl hread
  · exact hnew a hmem hread

theorem prefix_or_broken (hdistinct : Distinct read old text) (h : block <+: text) :
    block <+: substitute read old new text ∨ Broken read old new text block := by
  induction text using scan_induction read hold generalizing block with
  | nil => exact .inl h
  | hit front rest hfront ih =>
    cases block with
    | nil => exact .inl nil_prefix
    | cons a block =>
      obtain ⟨b, front, rfl⟩ := exists_cons_of_ne_nil (mt map_eq_nil_iff.2 (hfront ▸ hold))
      obtain rfl := (cons_prefix_cons.1 h).1
      exact .inr (broken_hit hold hnew hdistinct hfront ⟨a, mem_cons_self, mem_cons_self⟩)
  | miss a rest hmiss ih =>
    cases block with
    | nil => exact .inl nil_prefix
    | cons b block =>
      obtain ⟨rfl, htail⟩ := cons_prefix_cons.1 h
      have hscan := @substitute_miss _ _ _ read old new _ _ hmiss
      rw [hscan]
      rcases ih (pairwise_cons.1 hdistinct).2 htail with hkept | hbroken
      · exact .inl (cons_prefix_cons.2 ⟨rfl, hkept⟩)
      · obtain ⟨found, hin, hfound, ⟨x, hx, hxf⟩, hgone⟩ := hbroken
        refine .inr (Broken.append [b] [b] ?_ hdistinct ?_ hscan)
        · exact ⟨found, hin, hfound, ⟨x, mem_cons_of_mem _ hx, hxf⟩, hgone⟩
        · exact fun _ => .inl

/-- **A block stays together, unless something of it is in an occurrence that is removed.** -/
theorem infix_or_broken (hdistinct : Distinct read old text) (h : block <:+: text) :
    block <:+: substitute read old new text ∨ Broken read old new text block := by
  induction text using scan_induction read hold with
  | nil => exact .inl h
  | hit front rest hfront ih =>
    by_cases hshared : ∃ a ∈ block, a ∈ front
    · exact .inr (broken_hit hold hnew hdistinct hfront hshared)
    have hscan : substitute read old new (front ++ rest) = new ++ substitute read old new rest :=
      substitute_hit hold hfront
    rcases ih (pairwise_append.1 hdistinct).2.1 (infix_of_disjoint hshared h) with hkept | hbroken
    · rw [hscan]
      exact .inl (hkept.trans (suffix_append _ _).isInfix)
    · exact .inr (hbroken.append front new hdistinct (fun a ha => .inr (hnew a ha)) hscan)
  | miss a rest hmiss ih =>
    rcases infix_cons_iff.1 h with hstart | hin
    · exact (prefix_or_broken hold hnew hdistinct hstart).imp_left IsPrefix.isInfix
    have hscan := @substitute_miss _ _ _ read old new _ _ hmiss
    rcases ih (pairwise_cons.1 hdistinct).2 hin with hkept | hbroken
    · rw [hscan]
      exact .inl (hkept.trans (suffix_cons _ _).isInfix)
    · exact .inr (Broken.append [a] [a] hbroken hdistinct (fun _ => .inl) hscan)

end Block

/-! ### Texts with holes -/

/-- A cell of a text, or a hole with what fills it. -/
inductive Piece (α : Type u)
  | kept (a : α)
  | hole (filling : List α)

namespace Piece

/-- What a piece shows. -/
def text : Piece α → List α
  | kept a => [a]
  | hole filling => filling

/-- What a word is compared with: nothing, for a hole. -/
def see (read : α → β) : Piece α → Option β
  | kept a => some (read a)
  | hole _ => none

/-- Change what fills a hole. -/
def refill (f : List α → List α) : Piece α → Piece α
  | kept a => kept a
  | hole filling => hole (f filling)

omit [DecidableEq β] in
@[simp] theorem see_refill (f : List α → List α) (piece : Piece α) :
    (piece.refill f).see read = piece.see read := by
  cases piece <;> rfl

end Piece

/-- The text with its holes filled. -/
def render (pieces : List (Piece α)) : List α := pieces.flatMap Piece.text

@[simp] theorem render_nil : render ([] : List (Piece α)) = [] := rfl

@[simp] theorem render_cons (piece : Piece α) (pieces : List (Piece α)) :
    render (piece :: pieces) = piece.text ++ render pieces := rfl

@[simp] theorem render_append (a b : List (Piece α)) : render (a ++ b) = render a ++ render b :=
  flatMap_append

@[simp] theorem render_map_kept (cells : List α) : render (cells.map Piece.kept) = cells := by
  induction cells with
  | nil => rfl
  | cons a cells ih => rw [map_cons, render_cons, ih, Piece.text, singleton_append]

variable (read old new) in
/-- Cut the occurrences of a word out: each leaves a hole. The occurrences in the fillings of holes
are replaced in place. -/
def cut (pieces : List (Piece α)) : List (Piece α) :=
  substitute (Piece.see read) (old.map some) [.hole new]
    (pieces.map (Piece.refill (substitute read old new)))

omit [DecidableEq β] in
theorem map_see_refill (f : List α → List α) (pieces : List (Piece α)) :
    (pieces.map (Piece.refill f)).map (Piece.see read) = pieces.map (Piece.see read) := by
  rw [map_map]
  exact map_congr_left fun piece _ => piece.see_refill f

variable {pieces : List (Piece α)}

theorem hole_of_cut (hold : old ≠ []) {filling : List α}
    (h : Piece.hole filling ∈ cut read old new pieces) :
    filling = new ∨
      ∃ prior, Piece.hole prior ∈ pieces ∧ filling = substitute read old new prior := by
  rcases mem_of_mem_substitute (mt map_eq_nil_iff.1 hold) h with h | h
  · obtain ⟨piece, hpiece, heq⟩ := mem_map.1 h
    cases piece with
    | kept a => cases heq
    | hole prior => exact .inr ⟨prior, hpiece, (Piece.hole.inj heq).symm⟩
  · exact .inl (Piece.hole.inj (mem_singleton.1 h))

variable {word : List β}

theorem infix_of_cut (hold : old ≠ [])
    (h : word.map some <:+: (cut read old new pieces).map (Piece.see read)) :
    word.map some <:+: pieces.map (Piece.see read) := by
  have hread := infix_of_substitute _ (mt map_eq_nil_iff.1 hold) (by simp [Piece.see]) h
  rwa [map_see_refill] at hread

theorem not_infix_cut (hold : old ≠ []) (pieces : List (Piece α)) :
    ¬ old.map some <:+: (cut read old new pieces).map (Piece.see read) :=
  not_infix_substitute (mt map_eq_nil_iff.1 hold) (by simp [Piece.see])

theorem map_see_id_cut (hold : old ≠ []) (pieces : List (Piece α)) :
    (cut read old new pieces).map (Piece.see id) =
      substitute (Option.map read) (old.map some) [none] (pieces.map (Piece.see id)) := by
  rw [cut, map_substitute (Piece.see id) (Option.map read) ?_ (mt map_eq_nil_iff.1 hold),
    map_see_refill]
  · rfl
  · intro piece
    cases piece <;> rfl

/-- The ends of the fillings of the holes are not in the word. -/
def Enclosed (read : α → β) (old : List β) (pieces : List (Piece α)) : Prop :=
  ∀ filling, Piece.hole filling ∈ pieces →
    (∃ first rest, filling = first :: rest ∧ read first ∉ old) ∧
      ∃ front last, filling = front ++ [last] ∧ read last ∉ old

omit [DecidableEq β] in
/-- A word at the start of a text with holes is read before the first hole. -/
theorem prefix_of_render (h : Enclosed read word pieces)
    (hstart : word <+: (render pieces).map read) :
    word.map some <+: pieces.map (Piece.see read) := by
  have hopens : ∀ filling, Piece.hole filling ∈ pieces →
      ∃ first rest, filling = first :: rest ∧ read first ∉ word :=
        fun filling hf => (h filling hf).1
  clear h
  induction word generalizing pieces with
  | nil => exact nil_prefix
  | cons b word ih =>
    cases pieces with
    | nil => exact absurd (prefix_nil.1 hstart) (cons_ne_nil _ _)
    | cons piece pieces =>
      cases piece with
      | hole filling =>
        obtain ⟨first, rest, rfl, hfirst⟩ := hopens filling mem_cons_self
        exact absurd (mem_cons.2 (.inl (cons_prefix_cons.1 hstart).1.symm)) hfirst
      | kept a =>
        obtain ⟨rfl, htail⟩ := cons_prefix_cons.1 hstart
        refine cons_prefix_cons.2 ⟨rfl, ih htail fun filling hf => ?_⟩
        obtain ⟨first, rest, heq, hfirst⟩ := hopens filling (mem_cons_of_mem _ hf)
        exact ⟨first, rest, heq, fun hmem => hfirst (mem_cons_of_mem _ hmem)⟩

omit [DecidableEq β] in
theorem kept_of_see {block : List (Piece α)} (h : block.map (Piece.see read) = word.map some) :
    ∃ cells : List α, block = cells.map Piece.kept ∧ cells.map read = word := by
  induction word generalizing block with
  | nil => exact ⟨[], map_eq_nil_iff.1 h, rfl⟩
  | cons b word ih =>
    cases block with
    | nil => cases h
    | cons piece block =>
      obtain ⟨hhead, htail⟩ := cons_eq_cons.1 h
      obtain ⟨cells, rfl, rfl⟩ := ih htail
      cases piece with
      | hole filling => cases hhead
      | kept a => exact ⟨a :: cells, rfl, by rw [map_cons, Option.some.inj hhead]⟩

/-- **Replacing in a text with holes is cutting out.** -/
theorem render_cut (hold : old ≠ []) (h : Enclosed read old pieces) :
    render (cut read old new pieces) = substitute read old new (render pieces) := by
  have hmap : old.map some ≠ [] := mt map_eq_nil_iff.1 hold
  unfold cut
  induction pieces using scan_induction (Piece.see read) hmap with
  | nil => rfl
  | hit block rest hblock ih =>
    obtain ⟨cells, rfl, hcells⟩ := kept_of_see hblock
    rw [map_append, substitute_hit hmap ((map_see_refill _ _).trans hblock), render_append,
      ih fun filling hf => h filling (mem_append_right _ hf), render_append, render_map_kept,
      substitute_hit hold hcells]
    simp [Piece.text]
  | miss piece rest hmiss ih =>
    have hrest := ih fun filling hf => h filling (mem_cons_of_mem _ hf)
    have hmiss' : ¬ old.map some <+:
        (piece.refill (substitute read old new) ::
          rest.map (Piece.refill (substitute read old new))).map (Piece.see read) := by
      rwa [← map_cons, map_see_refill]
    rw [map_cons, substitute_miss hmiss', render_cons, hrest, render_cons]
    cases piece with
    | kept a =>
      rw [Piece.refill, Piece.text, singleton_append, singleton_append, substitute_miss]
      exact fun hstart => hmiss (prefix_of_render h hstart)
    | hole filling =>
      obtain ⟨-, front, last, rfl, hlast⟩ := h filling mem_cons_self
      rw [Piece.refill, Piece.text, Piece.text, append_assoc, singleton_append,
        substitute_split hold hlast, substitute_split hold hlast, substitute_nil,
        append_assoc, singleton_append]

omit [DecidableEq β] in
/-- A word in a text with holes is read between the holes, or is in the filling of one. -/
theorem infix_of_render (h : Enclosed read word pieces)
    (hwithin : word <:+: (render pieces).map read) :
    word.map some <:+: pieces.map (Piece.see read) ∨
      ∃ filling, Piece.hole filling ∈ pieces ∧ word <:+: filling.map read := by
  induction pieces with
  | nil =>
    refine .inl ?_
    rw [infix_nil.1 hwithin]
    exact nil_infix
  | cons piece pieces ih =>
    have hrest : Enclosed read word pieces := fun filling hf => h filling (mem_cons_of_mem _ hf)
    have hlift : ∀ hin : word <:+: (render pieces).map read,
        word.map some <:+: (piece :: pieces).map (Piece.see read) ∨
          ∃ filling, Piece.hole filling ∈ piece :: pieces ∧ word <:+: filling.map read := by
      intro hin
      rcases ih hrest hin with hseen | ⟨filling, hf, hword⟩
      · exact .inl (hseen.trans (suffix_cons _ _).isInfix)
      · exact .inr ⟨filling, mem_cons_of_mem _ hf, hword⟩
    cases piece with
    | kept a =>
      have hcells : (render (.kept a :: pieces)).map read =
          read a :: (render pieces).map read := rfl
      rw [hcells, infix_cons_iff] at hwithin
      rcases hwithin with hstart | hin
      · exact .inl (prefix_of_render h (hcells ▸ hstart)).isInfix
      · exact hlift hin
    | hole filling =>
      obtain ⟨-, front, last, rfl, hlast⟩ := h filling mem_cons_self
      rw [render_cons, Piece.text, append_assoc, singleton_append, map_append,
        map_cons] at hwithin
      rcases (infix_split hlast).1 hwithin with hin | hin
      · refine .inr ⟨_, mem_cons_self, hin.trans ?_⟩
        rw [map_append]
        exact (prefix_append _ _).isInfix
      · exact hlift hin

end Codeflux.Library
