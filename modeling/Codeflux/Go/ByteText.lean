import Codeflux.Go.Runes
import Codeflux.Go.Path

/-!
# Strings of the host language as byte sequences

A string need not be valid UTF-8. The functions that look at bytes only are read on the text that
has one character for each byte; those that look at runes are defined on the bytes.
-/

namespace Codeflux.Go

/-- The text with one character for each byte. -/
def latin (s : Bytes) : String := String.ofList (s.map fun b => Char.ofNat b.toNat)

theorem charOfByte_injective : Function.Injective fun b : UInt8 => Char.ofNat b.toNat := by
  intro a b h
  have hvalid : ∀ c : UInt8, c.toNat.isValidChar := fun c => .inl (by have := c.toNat_lt; omega)
  have hnat := congrArg Char.toNat h
  beta_reduce at hnat
  rw [Char.ofNat, dif_pos (hvalid a), Char.ofNat, dif_pos (hvalid b)] at hnat
  exact UInt8.toNat_inj.1 hnat

theorem latin_injective : Function.Injective latin := fun _ _ h =>
  charOfByte_injective.list_map (String.ofList_injective h)

/-- The code points of `unicode.IsSpace`. -/
def spaceCodes : List Nat :=
  [0x09, 0x0A, 0x0B, 0x0C, 0x0D, 0x20, 0x85, 0xA0, 0x1680, 0x2000, 0x2001, 0x2002, 0x2003, 0x2004,
    0x2005, 0x2006, 0x2007, 0x2008, 0x2009, 0x200A, 0x2028, 0x2029, 0x202F, 0x205F, 0x3000]

/-- Their encodings. -/
def spaceRunes : List Bytes := spaceCodes.map fun code => String.utf8EncodeChar (Char.ofNat code)

/-- Is `strings.TrimSpace(s) == s`? A space at an end is read as one whatever stands beside it. -/
def isTrimmed (s : Bytes) : Bool :=
  !spaceRunes.any fun rune => rune.isPrefixOf s || rune.isSuffixOf s

/-- Reads spaces from the sequence; the first argument counts the bytes of the current space that
are still to pass. -/
def blankFrom : Nat → Bytes → Bool
  | _, [] => true
  | pending + 1, _ :: rest => blankFrom pending rest
  | 0, b :: rest =>
    match spaceRunes.find? fun rune => rune.isPrefixOf (b :: rest) with
    | some rune => blankFrom (rune.length - 1) rest
    | none => false

/-- Does the sequence consist of spaces? This is `strings.TrimSpace(s) == ""`. -/
def isBlank (s : Bytes) : Bool := blankFrom 0 s

instance : GoText Bytes := ⟨isBlank⟩

/-- The encoding of the replacement rune `U+FFFD`. -/
def replacementRune : Bytes := [0xEF, 0xBF, 0xBD]

/-- Reads runes as `validRunes` does. -/
def coerceFrom : Nat → Bytes → Bytes
  | _, [] => []
  | pending + 1, b :: rest => b :: coerceFrom pending rest
  | 0, b :: rest =>
    match runeWidth (b :: rest) with
    | 0 => replacementRune ++ coerceFrom 0 rest
    | width + 1 => b :: coerceFrom width rest

/-- Each byte that is part of no rune becomes a replacement rune. -/
def coerceUTF8 (s : Bytes) : Bytes := coerceFrom 0 s

variable {s : Bytes}

/-- A valid sequence is left as it is, and a replacement makes an invalid one longer. -/
theorem coerceFrom_spec (pending : Nat) (s : Bytes) :
    validRunes pending s = true ∧ coerceFrom pending s = s ∨
      validRunes pending s = false ∧ s.length < (coerceFrom pending s).length := by
  induction s generalizing pending with
  | nil => exact .inl (by cases pending <;> exact ⟨rfl, rfl⟩)
  | cons b rest ih =>
    have hkeep (pending : Nat) := (ih pending).imp (And.imp_right (congrArg (b :: ·)))
      (And.imp_right Nat.succ_lt_succ)
    cases pending with
    | succ pending => exact hkeep pending
    | zero =>
      unfold validRunes coerceFrom
      cases runeWidth (b :: rest) with
      | zero =>
        have hrest : rest.length ≤ (coerceFrom 0 rest).length :=
          (ih 0).elim (fun h => (congrArg List.length h.2).ge) fun h => h.2.le
        refine .inr ⟨rfl, ?_⟩
        simp only [replacementRune, List.length_append, List.length_cons, List.length_nil]
        omega
      | succ width => exact hkeep width

theorem length_le_coerceUTF8 (s : Bytes) : s.length ≤ (coerceUTF8 s).length :=
  (coerceFrom_spec 0 s).elim (fun h => (congrArg List.length h.2).ge) fun h => h.2.le

/-- **Exactly the valid sequences are encoded as they are.** -/
theorem coerceUTF8_eq_self_iff : coerceUTF8 s = s ↔ validUTF8 s = true := by
  unfold coerceUTF8 validUTF8
  rcases coerceFrom_spec 0 s with ⟨hvalid, heq⟩ | ⟨hinvalid, hlt⟩
  · simp [hvalid, heq]
  · have hne : coerceFrom 0 s ≠ s := fun h => absurd (h ▸ hlt) (Nat.lt_irrefl _)
    simp [hinvalid, hne]

end Codeflux.Go
