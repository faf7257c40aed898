import Mathlib.Data.List.Basic

/-!
# Byte sequences of the host language

Functions on byte sequences, which need not be valid UTF-8, as structural recursions.
-/

namespace Codeflux.Go

/-- A byte sequence: the content of a `[]byte` or of a string. -/
abbrev Bytes := List UInt8

/-- The bytes of a text. -/
def bytes (text : String) : Bytes := text.toUTF8.toList

/-- A byte that continues a rune. -/
def isContinuation (b : UInt8) : Bool := 0x80 ≤ b && b ≤ 0xBF

/-- The width of the encoded rune that `s` starts with, and zero when it starts with none. -/
def runeWidth : Bytes → Nat
  | [] => 0
  | b₀ :: rest =>
    if b₀ ≤ 0x7F then 1
    else match rest with
      | [] => 0
      | b₁ :: rest =>
        if 0xC2 ≤ b₀ && b₀ ≤ 0xDF then
          if isContinuation b₁ then 2 else 0
        else match rest with
          | [] => 0
          | b₂ :: rest =>
            if 0xE0 ≤ b₀ && b₀ ≤ 0xEF then
              if (if b₀ = 0xE0 then 0xA0 ≤ b₁ && b₁ ≤ 0xBF
                  else if b₀ = 0xED then 0x80 ≤ b₁ && b₁ ≤ 0x9F
                  else isContinuation b₁) && isContinuation b₂ then 3 else 0
            else match rest with
              | [] => 0
              | b₃ :: _ =>
                if 0xF0 ≤ b₀ && b₀ ≤ 0xF4 then
                  if (if b₀ = 0xF0 then 0x90 ≤ b₁ && b₁ ≤ 0xBF
                      else if b₀ = 0xF4 then 0x80 ≤ b₁ && b₁ ≤ 0x8F
                      else isContinuation b₁) && isContinuation b₂ && isContinuation b₃
                  then 4 else 0
                else 0

/-- Reads runes from the sequence; the first argument counts the bytes of the current rune that are
still to pass. -/
def validRunes : Nat → Bytes → Bool
  | _, [] => true
  | pending + 1, _ :: rest => validRunes pending rest
  | 0, b :: rest =>
    match runeWidth (b :: rest) with
    | 0 => false
    | width + 1 => validRunes width rest

/-- Does the sequence consist of encoded runes? This is `utf8.Valid`. -/
def validUTF8 (s : Bytes) : Bool := validRunes 0 s

/-- Reads runes as `validRunes` does, and remembers whether the last bytes were part of no rune. -/
def toValidFrom (replacement : Bytes) : Nat → Bool → Bytes → Bytes
  | _, _, [] => []
  | pending + 1, _, b :: rest => b :: toValidFrom replacement pending false rest
  | 0, invalid, b :: rest =>
    match runeWidth (b :: rest) with
    | 0 => (if invalid then [] else replacement) ++ toValidFrom replacement 0 true rest
    | width + 1 => b :: toValidFrom replacement width false rest

/-- Each run of bytes that are part of no rune becomes one replacement: this is
`strings.ToValidUTF8`. -/
def toValidUTF8 (s replacement : Bytes) : Bytes := toValidFrom replacement 0 false s

/-- Replaces from left to right; the first argument counts the bytes of the current occurrence that
are still to pass. -/
def replaceFrom (old new : Bytes) : Nat → Bytes → Bytes
  | _, [] => []
  | pending + 1, _ :: rest => replaceFrom old new pending rest
  | 0, b :: rest =>
    if old.isPrefixOf (b :: rest) then new ++ replaceFrom old new (old.length - 1) rest
    else b :: replaceFrom old new 0 rest

/-- Replaces the non-overlapping occurrences of the non-empty `old`, found from left to right: this
is `strings.ReplaceAll`. -/
def replaceAll (s old new : Bytes) : Bytes := replaceFrom old new 0 s

/-- The loop of `bytes.Count`. -/
def countFrom (part : Bytes) : Nat → Bytes → Nat
  | _, [] => 0
  | pending + 1, _ :: rest => countFrom part pending rest
  | 0, b :: rest =>
    if part.isPrefixOf (b :: rest) then countFrom part (part.length - 1) rest + 1
    else countFrom part 0 rest

/-- The number of occurrences that `replaceAll` replaces: this is `bytes.Count`. -/
def count (s part : Bytes) : Nat := countFrom part 0 s

/-- Does `part` occur in `s`? This is `bytes.Contains`. -/
def contains (s part : Bytes) : Bool := s.tails.any part.isPrefixOf

end Codeflux.Go
