import Mathlib.Data.List.Nodup

/-!
# Open enumerations

A string type with declared constants: a value is one of the constants, or a text that none of them
has.
-/

namespace Codeflux.Library

/-- A finite enumeration whose members have distinct texts. -/
class Declared (α : Type) where
  all : List α
  text : α → String
  mem_all : ∀ a, a ∈ all := by intro a; cases a <;> decide
  texts_distinct : (all.map text).Nodup := by decide

theorem Declared.text_injective {α : Type} [Declared α] :
    Function.Injective (Declared.text : α → String) := fun a b h =>
  List.inj_on_of_nodup_map Declared.texts_distinct (Declared.mem_all a) (Declared.mem_all b) h

/-- A declared value, or a text that no declared value has. -/
inductive OpenEnum (α : Type) [Declared α]
  | declared (value : α)
  | undeclared (raw : String) (outside : ∀ a : α, Declared.text a ≠ raw)

namespace OpenEnum

variable {α : Type} [Declared α]

instance : Coe α (OpenEnum α) := ⟨declared⟩

/-- Is the value one of the declared ones? -/
def isValid : OpenEnum α → Bool
  | declared _ => true
  | undeclared _ _ => false

/-- The text of a value. -/
def toText : OpenEnum α → String
  | declared a => Declared.text a
  | undeclared raw _ => raw

/-- The value of a text. -/
def ofText (raw : String) : OpenEnum α :=
  match h : Declared.all.find? fun a : α => Declared.text a = raw with
  | some a => declared a
  | none => undeclared raw fun a => by
      simpa using List.find?_eq_none.1 h a (Declared.mem_all a)

@[simp] theorem isValid_declared (a : α) : (declared a).isValid = true := rfl

@[simp] theorem toText_declared (a : α) : (declared a).toText = Declared.text a := rfl

@[simp] theorem toText_ofText (raw : String) : (ofText raw : OpenEnum α).toText = raw := by
  unfold ofText
  split
  · next a h => simpa using List.find?_some h
  · rfl

theorem toText_injective : Function.Injective (toText : OpenEnum α → String)
  | declared a, declared b, h => congrArg declared (Declared.text_injective h)
  | declared a, undeclared _ hb, h => absurd h (hb a)
  | undeclared _ ha, declared b, h => absurd h.symm (ha b)
  | undeclared _ _, undeclared _ _, h => by
    cases h
    rfl

@[simp] theorem ofText_toText (x : OpenEnum α) : ofText x.toText = x :=
  toText_injective (toText_ofText x.toText)

instance : DecidableEq (OpenEnum α) := fun _ _ =>
  decidable_of_iff _ toText_injective.eq_iff

instance : LawfulBEq (OpenEnum α) := inferInstance

/-- The declared value, or the given error. -/
def require {ε : Type*} (e : ε) : OpenEnum α → Except ε α
  | declared a => .ok a
  | undeclared _ _ => .error e

@[simp] theorem require_declared {ε : Type*} (e : ε) (a : α) : (declared a).require e = .ok a := rfl

theorem isValid_iff {x : OpenEnum α} : x.isValid = true ↔ ∃ a, x = declared a := by
  cases x with
  | declared a => simp
  | undeclared raw h => simp [isValid]

end OpenEnum

end Codeflux.Library
