import Codeflux.Go.Bytes
import Codeflux.Library.Substitution

/-!
# Sequences of runes

A rune is told by its bytes alone, whatever follows, and only its first byte is not a continuation.
So a valid word is found in a valid text only between two runes.
-/

namespace Codeflux.Go

open Library List

/-- The encoding of one rune. -/
structure IsRune (rune : Bytes) : Prop where
  starts : ∃ head tail, rune = head :: tail ∧ isContinuation head = false ∧
    ∀ b ∈ tail, isContinuation b = true
  width : ∀ rest, runeWidth (rune ++ rest) = rune.length

variable {b : UInt8} {width : Nat} {s a rune replacement word new : Bytes}

theorem isContinuation_iff : isContinuation b = true ↔ 0x80 ≤ b.toNat ∧ b.toNat ≤ 0xBF := by
  simp [isContinuation, UInt8.le_iff_toNat_le]

theorem not_isContinuation (h : b.toNat < 0x80 ∨ 0xC0 ≤ b.toNat) : isContinuation b = false := by
  rw [← Bool.not_eq_true, isContinuation_iff]
  omega

/-- The second byte of a longer rune is a continuation, whatever the first one narrows it to. -/
theorem isContinuation_of_narrowed {b₀ b₁ x y low high : UInt8} (hlow : 0x80 ≤ low)
    (hhigh : high ≤ 0xBF) (h : (if b₀ = x then decide (low ≤ b₁) && decide (b₁ ≤ 0xBF)
      else if b₀ = y then decide (0x80 ≤ b₁) && decide (b₁ ≤ high) else isContinuation b₁) =
        true) : isContinuation b₁ = true := by
  rw [isContinuation_iff]
  simp only [UInt8.le_iff_toNat_le] at hlow hhigh h
  split_ifs at h
  · simp only [Bool.and_eq_true, decide_eq_true_iff] at h
    exact ⟨hlow.trans h.1, h.2⟩
  · simp only [Bool.and_eq_true, decide_eq_true_iff] at h
    exact ⟨h.1, h.2.trans hhigh⟩
  · exact isContinuation_iff.1 h

theorem not_isContinuation_of_leads {low high : UInt8} (hlow : 0xC0 ≤ low)
    (h : (decide (low ≤ b) && decide (b ≤ high)) = true) : isContinuation b = false := by
  simp only [Bool.and_eq_true, decide_eq_true_iff, UInt8.le_iff_toNat_le] at hlow h
  exact not_isContinuation (.inr (hlow.trans h.1))

theorem exists_rune : runeWidth s = width + 1 →
    ∃ rune rest, s = rune ++ rest ∧ rune.length = width + 1 ∧ IsRune rune := by
  -- one case for each width of the table
  fun_cases runeWidth s with
  | case2 b₀ rest h₀ =>
    have hlead : isContinuation b₀ = false :=
      not_isContinuation (.inl (Nat.lt_succ_of_le (UInt8.le_iff_toNat_le.1 h₀)))
    exact fun h => ⟨[b₀], rest, rfl, h, ⟨b₀, [], rfl, hlead, by simp⟩, by simp [runeWidth, h₀]⟩
  | case4 b₀ h₀ b₁ rest h₁ hc =>
    have hlead := not_isContinuation_of_leads (by decide) h₁
    refine fun h => ⟨[b₀, b₁], rest, rfl, h, ⟨b₀, [b₁], rfl, hlead, ?_⟩, fun _ => ?_⟩
    · simpa using hc
    · simp [runeWidth, h₀, h₁, hc]
  | case7 b₀ h₀ b₁ h₁ b₂ rest h₂ hc =>
    have hlead := not_isContinuation_of_leads (by decide) h₂
    have hc' := Bool.and_eq_true_iff.1 hc
    have hb₁ := isContinuation_of_narrowed (by decide) (by decide) hc'.1
    refine fun h => ⟨[b₀, b₁, b₂], rest, rfl, h, ⟨b₀, [b₁, b₂], rfl, hlead, ?_⟩, fun _ => ?_⟩
    · simpa using ⟨hb₁, hc'.2⟩
    · simp [runeWidth, h₀, h₁, h₂, hc]
  | case10 b₀ h₀ b₁ h₁ b₂ h₂ b₃ rest h₃ hc =>
    have hlead := not_isContinuation_of_leads (by decide) h₃
    have hc' := Bool.and_eq_true_iff.1 hc
    have hc'' := Bool.and_eq_true_iff.1 hc'.1
    have hb₁ := isContinuation_of_narrowed (by decide) (by decide) hc''.1
    refine fun h =>
      ⟨[b₀, b₁, b₂, b₃], rest, rfl, h, ⟨b₀, [b₁, b₂, b₃], rfl, hlead, ?_⟩, fun _ => ?_⟩
    · simpa using ⟨hb₁, hc''.2, hc'.2⟩
    · simp [runeWidth, h₀, h₁, h₂, h₃, hc]
  | _ => exact fun h => nomatch h

/-- A sequence of encoded runes. -/
inductive Runes : Bytes → Prop
  | nil : Runes []
  | cons {rune rest : Bytes} (hrune : IsRune rune) (h : Runes rest) : Runes (rune ++ rest)

theorem Runes.append {b : Bytes} (ha : Runes a) (hb : Runes b) : Runes (a ++ b) := by
  induction ha with
  | nil => exact hb
  | cons hrune _ ih =>
    rw [append_assoc]
    exact .cons hrune ih

/-- Bytes below `0x80` are runes. -/
theorem runes_of_ascii (h : s.all (fun b => decide (b ≤ 0x7F)) = true) : Runes s := by
  induction s with
  | nil => exact .nil
  | cons b rest ih =>
    rw [all_cons, Bool.and_eq_true, decide_eq_true_iff] at h
    have hrune : IsRune [b] := by
      refine ⟨⟨b, [], rfl, not_isContinuation (.inl ?_), by simp⟩, fun rest => ?_⟩
      · exact Nat.lt_succ_of_le (UInt8.le_iff_toNat_le.1 h.1)
      · simp [runeWidth, if_pos h.1]
    exact Runes.cons hrune (ih h.2)

theorem validRunes_drop (pending : Nat) (s : Bytes) :
    validRunes pending s = validRunes 0 (s.drop pending) := by
  induction pending generalizing s with
  | zero => rfl
  | succ pending ih =>
    cases s with
    | nil => rfl
    | cons b rest => exact ih rest

theorem IsRune.validUTF8_append (h : IsRune rune) (rest : Bytes) :
    validUTF8 (rune ++ rest) = validUTF8 rest := by
  obtain ⟨head, tail, rfl, -, -⟩ := h.starts
  have hwidth := h.width rest
  rw [cons_append, length_cons] at hwidth
  rw [validUTF8, cons_append, validRunes]
  simp only [hwidth]
  rw [validRunes_drop, drop_left, validUTF8]

/-- **The valid sequences are the sequences of runes.** -/
theorem validUTF8_iff : validUTF8 s = true ↔ Runes s := by
  constructor
  · intro h
    induction hlen : s.length using Nat.strong_induction_on generalizing s with
    | _ length ih =>
      cases s with
      | nil => exact .nil
      | cons b rest =>
        cases hwidth : runeWidth (b :: rest) with
        | zero =>
          rw [validUTF8, validRunes] at h
          simp only [hwidth] at h
          cases h
        | succ width =>
          obtain ⟨rune, tail, hsplit, hlength, hrune⟩ := exists_rune hwidth
          rw [hsplit] at h hlen ⊢
          rw [hrune.validUTF8_append] at h
          rw [length_append] at hlen
          exact .cons hrune (ih tail.length (by omega) h rfl)
  · intro h
    induction h with
    | nil => rfl
    | cons hrune _ ih => rw [hrune.validUTF8_append, ih]

theorem Runes.of_append {b : Bytes} (ha : Runes a) (h : Runes (a ++ b)) : Runes b := by
  induction ha with
  | nil => exact h
  | cons hrune _ ih =>
    rw [append_assoc, ← validUTF8_iff, hrune.validUTF8_append, validUTF8_iff] at h
    exact ih h

/-! ### Sanitizing -/

theorem runes_toValidFrom (hreplacement : Runes replacement) (invalid : Bool) (s : Bytes) :
    Runes (toValidFrom replacement 0 invalid s) := by
  have hpending : ∀ (tail : Bytes) (invalid : Bool) (rest : Bytes), ∃ invalid',
      toValidFrom replacement tail.length invalid (tail ++ rest) =
        tail ++ toValidFrom replacement 0 invalid' rest := by
    intro tail
    induction tail with
    | nil => exact fun invalid rest => ⟨invalid, rfl⟩
    | cons b tail ih =>
      intro invalid rest
      obtain ⟨invalid', h⟩ := ih false rest
      exact ⟨invalid', by rw [length_cons, cons_append, toValidFrom, h, cons_append]⟩
  induction hlen : s.length using Nat.strong_induction_on generalizing s invalid with
  | _ length ih =>
    cases s with
    | nil => exact .nil
    | cons b rest =>
      cases hwidth : runeWidth (b :: rest) with
      | zero =>
        have hrest := ih rest.length (by rw [← hlen, length_cons]; omega) true rest rfl
        rw [toValidFrom]
        simp only [hwidth]
        split_ifs
        · exact hrest
        · exact hreplacement.append hrest
      | succ width =>
        obtain ⟨rune, tail, hsplit, hlength, hrune⟩ := exists_rune hwidth
        obtain ⟨head, more, rfl, -⟩ := hrune.starts
        rw [cons_append, cons_eq_cons] at hsplit
        obtain ⟨rfl, rfl⟩ := hsplit
        obtain ⟨invalid', hmore⟩ := hpending more false tail
        rw [length_cons, Nat.add_right_cancel_iff] at hlength
        rw [toValidFrom]
        simp only [hwidth]
        rw [← hlength, hmore, ← cons_append]
        refine .cons hrune (ih tail.length ?_ invalid' tail rfl)
        rw [← hlen, length_cons, length_append]
        omega

/-- **Sanitizing gives a valid sequence.** -/
theorem runes_toValidUTF8 (hreplacement : Runes replacement) (s : Bytes) :
    Runes (toValidUTF8 s replacement) :=
  runes_toValidFrom hreplacement false s

/-- The scan for a valid word passes over a rune that does not start the word. -/
theorem substitute_rune {rest : Bytes} (hword : Runes word) (hne : word ≠ []) (hrune : IsRune rune)
    (hmiss : ¬ word <+: rune ++ rest) :
    substitute id word new (rune ++ rest) = rune ++ substitute id word new rest := by
  obtain ⟨head, tail, rfl, -, htail⟩ := hrune.starts
  have hfirst : ∃ b more, word = b :: more ∧ isContinuation b = false := by
    cases hword with
    | nil => exact absurd rfl hne
    | cons hr _ =>
      obtain ⟨b, more, rfl, hb, -⟩ := hr.starts
      exact ⟨b, _, rfl, hb⟩
  obtain ⟨b, more, rfl, hb⟩ := hfirst
  rw [cons_append, substitute_miss (by rwa [map_id]), cons_append]
  congr 1
  clear hmiss hrune
  induction tail with
  | nil => rfl
  | cons c tail ih =>
    rw [forall_mem_cons] at htail
    rw [cons_append, substitute_miss, ih htail.2, cons_append]
    rintro hstart
    rw [map_id] at hstart
    rw [(cons_prefix_cons.1 hstart).1, htail.1] at hb
    cases hb

/-- **Replacing keeps a sequence valid.** -/
theorem Runes.substitute {text : Bytes} (hword : Runes word) (hne : word ≠ []) (hnew : Runes new)
    (htext : Runes text) : Runes (substitute id word new text) := by
  induction hlen : text.length using Nat.strong_induction_on generalizing text with
  | _ length ih =>
    by_cases hhit : word <+: text
    · obtain ⟨rest, rfl⟩ := hhit
      have hpos := length_pos_iff.2 hne
      rw [length_append] at hlen
      rw [substitute_hit hne (map_id word)]
      exact hnew.append (ih rest.length (by omega) (hword.of_append htext) rfl)
    · cases htext with
      | nil => exact .nil
      | @cons rune rest hrune hrest =>
        obtain ⟨head, tail, rfl, -⟩ := hrune.starts
        rw [length_append, length_cons] at hlen
        rw [substitute_rune hword hne hrune hhit]
        exact .cons hrune (ih rest.length (by omega) hrest rfl)

end Codeflux.Go
