import Codeflux.Library.Outcome
import Mathlib.Data.Fintype.Basic

/-!
# Values that carry their own check

A value keeps the proof that its check has passed as a field, so that checking it again cannot fail.
-/

namespace Codeflux.Library

universe u v

variable {ε : Type u}

/-- Run a check and keep the proof that it passed. -/
def certify (x : Except ε Unit) : Except ε (PLift (x = .ok ())) :=
  match x with
  | .ok () => .ok ⟨rfl⟩
  | .error e => .error e

theorem certify_eq_ok {x : Except ε Unit} (h : PLift (x = .ok ())) : certify x = .ok h := by
  obtain ⟨rfl⟩ := h
  rfl

@[simp] theorem certify_map_ok_iff {α : Type} {x : Except ε Unit} {f : PLift (x = .ok ()) → α}
    {a : α} : (certify x).map f = .ok a ↔ ∃ h : x = .ok (), f ⟨h⟩ = a := by
  cases x with
  | ok u | error e => simp [certify, Except.map]

section Distinct

variable {α : Type*} {κ : Type*} [DecidableEq κ]

/-- Go through a list with the keys seen so far: check each entry, refuse a key that was seen, and
check the entry again. -/
def checkDistinctFrom (before : α → Except ε Unit) (duplicate : α → ε)
    (after : α → Except ε Unit) (key : α → κ) : List κ → List α → Except ε Unit
  | _, [] => .ok ()
  | seen, a :: as => do
    before a
    ensure (key a ∉ seen) (duplicate a)
    after a
    checkDistinctFrom before duplicate after key (key a :: seen) as

/-- The checks of a list whose entries have distinct keys. -/
def checkDistinct (before : α → Except ε Unit) (duplicate : α → ε) (after : α → Except ε Unit)
    (key : α → κ) (as : List α) : Except ε Unit :=
  checkDistinctFrom before duplicate after key [] as

variable {before after : α → Except ε Unit} {duplicate : α → ε} {key : α → κ}

theorem checkDistinctFrom_ok_iff {seen : List κ} {as : List α} {u : Unit} :
    checkDistinctFrom before duplicate after key seen as = .ok u ↔
      (∀ a ∈ as, before a = .ok () ∧ after a = .ok ()) ∧ (as.map key).Nodup ∧
        ∀ a ∈ as, key a ∉ seen := by
  induction as generalizing seen with
  | nil => simp [checkDistinctFrom]
  | cons a as ih =>
    simp only [checkDistinctFrom, bind_ok_iff, ensure_ok_iff, ih, List.map_cons, List.nodup_cons,
      List.forall_mem_cons]
    simp only [List.mem_cons, List.mem_map, not_or, not_exists, not_and]
    constructor
    · rintro ⟨_, hbefore, _, hnew, _, hafter, hall, hnodup, hseen⟩
      exact ⟨⟨⟨hbefore, hafter⟩, hall⟩, ⟨fun b hb => (hseen b hb).1, hnodup⟩, hnew,
        fun b hb => (hseen b hb).2⟩
    · rintro ⟨⟨⟨hbefore, hafter⟩, hall⟩, ⟨hfirst, hnodup⟩, hnew, hseen⟩
      exact ⟨(), hbefore, (), hnew, (), hafter, hall, hnodup, fun b hb => ⟨hfirst b hb, hseen b hb⟩⟩

/-- The accepted lists: every entry passes both checks, and no key is repeated. -/
theorem checkDistinct_ok_iff {as : List α} {u : Unit} :
    checkDistinct before duplicate after key as = .ok u ↔
      (∀ a ∈ as, before a = .ok () ∧ after a = .ok ()) ∧ (as.map key).Nodup := by
  rw [checkDistinct, checkDistinctFrom_ok_iff]
  simp

end Distinct

end Codeflux.Library
