import Mathlib.Algebra.Ring.Nat
import Mathlib.Data.List.DropRight

/-!
# Strings of the host language

Go strings are byte sequences in UTF-8 that `range` reads rune by rune. A Lean string has the same
runes.
-/

namespace Codeflux.Go

open List

/-- The Latin-1 spaces and the characters of category Z beyond them, as `unicode.IsSpace` has
them. -/
def isSpace (c : Char) : Bool :=
  c.toNat ∈ [0x09, 0x0A, 0x0B, 0x0C, 0x0D, 0x20, 0x85, 0xA0, 0x1680, 0x2028, 0x2029, 0x202F,
    0x205F, 0x3000] || (0x2000 ≤ c.toNat && c.toNat ≤ 0x200A)

/-- The characters of category Cc: `unicode.IsControl`. -/
def isControl (c : Char) : Bool :=
  c.toNat < 0x20 || (0x7F ≤ c.toNat && c.toNat ≤ 0x9F)

/-- A text without its leading and trailing spaces: `strings.TrimSpace`. -/
def trimSpace (s : String) : String :=
  String.ofList ((s.toList.dropWhile isSpace).reverse.dropWhile isSpace).reverse

/-- The types of texts. On each of them `isBlank` is `strings.TrimSpace(text) == ""`. -/
class GoText (α : Type) where
  isBlank : α → Bool

instance : GoText String := ⟨fun s => trimSpace s == ""⟩

@[simp] theorem isBlank_eq (s : String) : GoText.isBlank s = (trimSpace s == "") := rfl

/-- `strings.TrimSpace` on the runes of a text. -/
def trimChars (s : List Char) : List Char :=
  ((s.dropWhile isSpace).reverse.dropWhile isSpace).reverse

theorem trimSpace_eq (s : String) : trimSpace s = String.ofList (trimChars s.toList) := rfl

section Trim

variable {c : Char} {s : List Char}

theorem trimChars_eq (s : List Char) : trimChars s = (s.dropWhile isSpace).rdropWhile isSpace := rfl

theorem trimChars_cons_space (h : isSpace c = true) (s : List Char) :
    trimChars (c :: s) = trimChars s := by
  rw [trimChars_eq, dropWhile_cons_of_pos h, trimChars_eq]

theorem trimChars_concat_space (h : isSpace c = true) (s : List Char) :
    trimChars (s ++ [c]) = trimChars s := by
  rw [trimChars_eq, trimChars_eq, dropWhile_append]
  split_ifs with hblank
  · rw [isEmpty_iff.1 hblank, dropWhile_cons_of_pos h, dropWhile_nil]
  · rw [rdropWhile_concat_pos _ _ _ h]

theorem trimChars_rdropWhile (s : List Char) : trimChars (s.rdropWhile isSpace) = trimChars s := by
  induction s using List.reverseRecOn with
  | nil => rfl
  | append_singleton s c ih =>
    by_cases hc : isSpace c = true
    · rw [rdropWhile_concat_pos _ _ _ hc, ih, trimChars_concat_space hc]
    · rw [rdropWhile_concat_neg _ _ _ hc]

theorem trimChars_trimChars (s : List Char) : trimChars (trimChars s) = trimChars s := by
  rw [trimChars_eq s, trimChars_rdropWhile, trimChars_eq, dropWhile_idempotent]

@[simp] theorem trimSpace_trimSpace (s : String) : trimSpace (trimSpace s) = trimSpace s := by
  rw [trimSpace_eq (trimSpace s), trimSpace_eq s, String.toList_ofList, trimChars_trimChars]

theorem rdropWhile_append_of_getLast {t : List Char} {last : Char}
    (hlast : t.getLast? = some last) (hl : isSpace last = false) (s : List Char) :
    (t ++ s).rdropWhile isSpace = t ++ s.rdropWhile isSpace := by
  induction s using List.reverseRecOn with
  | nil =>
    obtain ⟨init, rfl⟩ := getLast?_eq_some_iff.1 hlast
    rw [append_nil, rdropWhile_concat_neg _ _ _ (by simp [hl]), rdropWhile_nil,
      append_nil]
  | append_singleton s c ih =>
    rw [← append_assoc]
    by_cases hc : isSpace c = true
    · rw [rdropWhile_concat_pos _ _ _ hc, rdropWhile_concat_pos _ _ _ hc, ih]
    · rw [rdropWhile_concat_neg _ _ _ hc, rdropWhile_concat_neg _ _ _ hc,
        append_assoc]

theorem trimChars_append {t : List Char} {first last : Char} (hfirst : t.head? = some first)
    (hlast : t.getLast? = some last) (hf : isSpace first = false) (hl : isSpace last = false)
    (s : List Char) : trimChars (t ++ s) = t ++ s.rdropWhile isSpace := by
  obtain ⟨rest, rfl⟩ := head?_eq_some_iff.1 hfirst
  rw [trimChars_eq, cons_append, dropWhile_cons_of_neg (by simp [hf]),
    ← cons_append, rdropWhile_append_of_getLast hlast hl]

theorem trimChars_eq_nil_iff : trimChars s = [] ↔ ∀ c ∈ s, isSpace c = true := by
  rw [trimChars_eq, rdropWhile_eq_nil_iff]
  constructor
  · intro h c hc
    rw [← takeWhile_append_dropWhile (p := isSpace) (l := s), mem_append] at hc
    exact hc.elim mem_takeWhile_imp (h c)
  · intro h c hc
    exact h c ((dropWhile_sublist _).subset hc)

theorem trimChars_sublist (s : List Char) : (trimChars s).Sublist s := by
  rw [trimChars_eq]
  exact (List.rdropWhile_prefix _ _).sublist.trans (dropWhile_sublist _)

end Trim

/-- The number of bytes: `len(s)`. -/
def byteLength (s : String) : Nat :=
  s.utf8ByteSize

/-- The text after the prefix `p`, when `s` starts with it. -/
def trimPrefix? (p s : String) : Option String :=
  (s.toList.dropPrefix? p.toList).map String.ofList

/-- Does `s` start with `p`? This is `strings.HasPrefix`. -/
def hasPrefix (s p : String) : Bool :=
  p.toList.isPrefixOf s.toList

/-- Does `part` occur in `s`? This is `strings.Contains`. -/
def containsText (s part : String) : Bool :=
  s.toList.tails.any part.toList.isPrefixOf

/-- The texts one after the other. -/
def concat (texts : List String) : String := String.ofList (texts.flatMap String.toList)

@[simp] theorem concat_nil : concat [] = "" := rfl

@[simp] theorem concat_cons (text : String) (texts : List String) :
    concat (text :: texts) = text ++ concat texts := by
  simp [concat, String.ofList_append]

@[simp] theorem concat_append (texts more : List String) :
    concat (texts ++ more) = concat texts ++ concat more := by
  simp [concat, String.ofList_append]

/-- The largest value of an `int64`. -/
def maxInt64 : Nat := 2 ^ 63 - 1

/-- The largest value of a `uint64`. -/
def maxUint64 : Nat := 2 ^ 64 - 1

end Codeflux.Go
