import Codeflux.Library.Separated
import Mathlib.Data.Char
import Mathlib.Data.List.Lex
import Mathlib.Data.List.Sort

/-!
# The hash of a contract

A contract is known by the hash of its parameter types, its result types, whether it returns an
error, and its effects, each list with commas between its entries. A list without a type is written
as a list with one empty text is, and an effect that holds a comma as two effects are.
-/

namespace Codeflux.Retrieval

open Library List

/-- A text, byte by byte. -/
abbrev Chars := List Char

/-- What the hash is taken of. -/
structure NormalizedContract where
  (parameters results : List Chars)
  returnsError : Bool
  effects : List Chars

/-- `strings.Join(texts, ",")`. -/
def join (texts : List Chars) : Chars := [','].intercalate texts

/-- The loop that drops repetitions, after the effect it kept last. -/
def deduplicate : Option Chars → List Chars → List Chars
  | _, [] => []
  | previous, effect :: rest =>
    if some effect = previous then deduplicate previous rest
    else effect :: deduplicate (some effect) rest

namespace NormalizedContract

variable (contract : NormalizedContract)

/-- The types, as written. -/
def shape : Chars :=
  "(".toList ++ join contract.parameters ++ ")->(".toList ++ join contract.results ++ ")".toList

/-- The effects as they are written. -/
def effectTexts : List Chars := deduplicate none (contract.effects.insertionSort (· ≤ ·))

/-- The error flag, as written. -/
def errorText : Chars :=
  if contract.returnsError then "\x1freturns-error=true\x1feffects=".toList
  else "\x1freturns-error=false\x1feffects=".toList

/-- What is hashed. -/
def written : Chars :=
  "codeflux-contract-hash-v1\x1fshape=".toList ++ contract.shape ++ contract.errorText ++
    join contract.effectTexts

/-- `ComputeContractHash`, with the hash of a text in hexadecimal digits. -/
def computeContractHash (sha256 : Chars → String) : String := sha256 contract.written

end NormalizedContract

/-! ### Types -/

/-- Reads a type text inside the given number of brackets. -/
def isTypeFrom : Nat → Chars → Bool
  | depth, [] => depth == 0
  | depth, c :: rest =>
    if c ∈ ['(', '[', '\x7b'] then isTypeFrom (depth + 1) rest
    else if c ∈ [')', ']', '\x7d'] then depth != 0 && isTypeFrom (depth - 1) rest
    else (c != ',' || depth != 0) && isTypeFrom depth rest

/-- The brackets of the text are balanced, and no comma stands outside of them. -/
def IsType (text : Chars) : Prop := isTypeFrom 0 text = true

instance (text : Chars) : Decidable (IsType text) := inferInstanceAs (Decidable (_ = _))

/-- What may follow a type text. -/
def Ends (rest : Chars) : Prop := rest.head?.all (· ∈ [',', ')'])

variable {depth : Nat} {x y s t : Chars} {xs ys : List Chars}

theorem not_isTypeFrom_of_ends {c : Char} (h : Ends (c :: s)) : isTypeFrom 0 (c :: x) = false := by
  simp only [Ends, head?_cons, Option.all_some, mem_cons, not_mem_nil, or_false,
    decide_eq_true_eq] at h
  rcases h with rfl | rfl <;> simp [isTypeFrom]

theorem eq_nil_of_ends (hx : isTypeFrom depth [] = true) (hy : isTypeFrom depth y = true)
    (hends : Ends (y ++ t)) : y = [] := by
  cases y with
  | nil => rfl
  | cons c y =>
    obtain rfl : depth = 0 := by simpa [isTypeFrom] using hx
    rw [not_isTypeFrom_of_ends hends] at hy
    cases hy

/-- A type text ends where the brackets around it do, or at the first comma there. -/
theorem type_eq_of_append (hx : isTypeFrom depth x = true) (hy : isTypeFrom depth y = true)
    (hs : Ends s) (ht : Ends t) (h : x ++ s = y ++ t) : x = y := by
  induction x generalizing depth y with
  | nil => exact (eq_nil_of_ends hx hy (by rwa [← h])).symm
  | cons c x ih =>
    cases y with
    | nil => exact eq_nil_of_ends hy hx (by rwa [h])
    | cons d y =>
      obtain ⟨rfl, hrest⟩ := List.cons.inj h
      congr 1
      rw [isTypeFrom] at hx hy
      split_ifs at hx hy
      · exact ih hx hy hrest
      · simp only [Bool.and_eq_true] at hx hy
        exact ih hx.2 hy.2 hrest
      · simp only [Bool.and_eq_true] at hx hy
        exact ih hx.2 hy.2 hrest

theorem ends_rest (xs : List Chars) (s : Chars) : Ends (xs.flatMap (',' :: ·) ++ ')' :: s) := by
  cases xs <;> simp [Ends]

theorem rest_eq (hxs : ∀ x ∈ xs, IsType x) (hys : ∀ y ∈ ys, IsType y)
    (h : xs.flatMap (',' :: ·) ++ ')' :: s = ys.flatMap (',' :: ·) ++ ')' :: t) :
    xs = ys ∧ s = t := by
  induction xs generalizing ys with
  | nil =>
    cases ys with
    | nil => exact ⟨rfl, (List.cons.inj h).2⟩
    | cons y ys => simp at h
  | cons x xs ih =>
    cases ys with
    | nil => simp at h
    | cons y ys =>
      rw [forall_mem_cons] at hxs hys
      simp only [flatMap_cons, cons_append, append_assoc, List.cons.injEq,
        true_and] at h
      obtain rfl := type_eq_of_append hxs.1 hys.1 (ends_rest xs s) (ends_rest ys t) h
      obtain ⟨rfl, rfl⟩ := ih hxs.2 hys.2 (append_cancel_left h)
      exact ⟨rfl, rfl⟩

/-- A list as it is read back: one that is empty as one with an empty text. -/
def readBack : List Chars → List Chars
  | [] => [[]]
  | x :: xs => x :: xs

theorem join_readBack (texts : List Chars) : join (readBack texts) = join texts := by
  cases texts <;> rfl

theorem comma_join (texts : List Chars) :
    ',' :: join texts = (readBack texts).flatMap (',' :: ·) := by
  cases texts with
  | nil => rfl
  | cons x xs => exact congrArg (',' :: ·) (intercalate_cons_eq_flatMap ',' x xs)

theorem readBack_ne_nil (texts : List Chars) : readBack texts ≠ [] := by
  cases texts <;> exact cons_ne_nil _ _

theorem eq_of_readBack (h : readBack xs = readBack ys) (hnil : xs = [] ↔ ys = []) : xs = ys := by
  cases xs <;> cases ys <;> simp_all [readBack]

theorem isType_readBack (hxs : ∀ x ∈ xs, IsType x) : ∀ x ∈ readBack xs, IsType x := by
  cases xs with
  | nil => exact forall_mem_singleton.2 rfl
  | cons => exact hxs

/-- **Types between brackets are read back.** -/
theorem closed_eq_iff (hxs : ∀ x ∈ xs, IsType x) (hys : ∀ y ∈ ys, IsType y) :
    join xs ++ ')' :: s = join ys ++ ')' :: t ↔ readBack xs = readBack ys ∧ s = t := by
  rw [← cons_inj_right ',', ← cons_append, ← cons_append, comma_join, comma_join]
  refine ⟨rest_eq (isType_readBack hxs) (isType_readBack hys), ?_⟩
  rintro ⟨hread, rfl⟩
  rw [hread]

theorem mem_deduplicate {previous : Option Chars} {effect : Chars} {effects : List Chars} :
    effect ∈ deduplicate previous effects ∨ some effect = previous ↔
      effect ∈ effects ∨ some effect = previous := by
  fun_induction deduplicate previous effects <;> grind

theorem pairwise_deduplicate {previous : Option Chars} {effects : List Chars}
    (hsorted : effects.Pairwise (· ≤ ·)) (hfirst : ∀ p ∈ previous, ∀ e ∈ effects, p ≤ e) :
    (deduplicate previous effects).Pairwise (· < ·) ∧
      ∀ p ∈ previous, ∀ e ∈ deduplicate previous effects, p < e := by
  fun_induction deduplicate previous effects with
  | case1 => simp
  | case2 effect rest ih =>
    obtain ⟨hle, hrest⟩ := pairwise_cons.1 hsorted
    exact ih hrest fun p hp => Option.some.inj hp ▸ hle
  | case3 previous effect rest hne ih =>
    obtain ⟨hle, hrest⟩ := pairwise_cons.1 hsorted
    obtain ⟨hascending, hlater⟩ := ih hrest fun p hp => Option.some.inj hp ▸ hle
    have hlater := hlater effect rfl
    refine ⟨pairwise_cons.2 ⟨hlater, hascending⟩, fun p hp => ?_⟩
    have hlt : p < effect :=
      lt_of_le_of_ne (hfirst p hp effect mem_cons_self) fun heq => hne (heq ▸ hp.symm)
    exact forall_mem_cons.2 ⟨hlt, fun e he => hlt.trans (hlater e he)⟩

variable {c d : NormalizedContract}

/-- **The effects without repetition stand for the set of effects.** -/
theorem effectTexts_eq_iff :
    c.effectTexts = d.effectTexts ↔ ∀ effect, effect ∈ c.effects ↔ effect ∈ d.effects := by
  have hmem : ∀ (b : NormalizedContract) effect, effect ∈ b.effectTexts ↔ effect ∈ b.effects := by
    intro b effect
    simpa [NormalizedContract.effectTexts] using
      @mem_deduplicate none effect (b.effects.insertionSort (· ≤ ·))
  have hascending : ∀ b : NormalizedContract, b.effectTexts.Pairwise (· < ·) := fun b =>
    (pairwise_deduplicate (pairwise_insertionSort _ b.effects) (by simp)).1
  constructor
  · intro h effect
    rw [← hmem, h, hmem]
  · intro h
    refine ((perm_ext_iff_of_nodup (hascending c).nodup (hascending d).nodup).2
      fun effect => ?_).eq_of_pairwise (fun _ _ _ _ hab hba => absurd hab hba.asymm)
        (hascending c) (hascending d)
    rw [hmem, h, hmem]

/-! ### What a hash identifies -/

/-- Every parameter and result is a type text. -/
def NormalizedContract.Typed (contract : NormalizedContract) : Prop :=
  (∀ x ∈ contract.parameters, IsType x) ∧ ∀ x ∈ contract.results, IsType x

instance (contract : NormalizedContract) : Decidable contract.Typed :=
  inferInstanceAs (Decidable (_ ∧ _))

/-- The same types, the same error flag and the same set of effects. -/
structure SameContract (c d : NormalizedContract) : Prop where
  parameters : c.parameters = d.parameters
  results : c.results = d.results
  returnsError : c.returnsError = d.returnsError
  effects : ∀ effect, effect ∈ c.effects ↔ effect ∈ d.effects

/-- Contracts that are written alike: an empty list as one with an empty text, and the effects cut
at their commas. -/
structure Alike (c d : NormalizedContract) : Prop where
  parameters : readBack c.parameters = readBack d.parameters
  results : readBack c.results = readBack d.results
  returnsError : c.returnsError = d.returnsError
  effects : segments ',' (readBack c.effectTexts) = segments ',' (readBack d.effectTexts)

theorem written_eq_iff (hc : c.Typed) (hd : d.Typed) : c.written = d.written ↔ Alike c d := by
  have herror : ∀ {s t : Chars},
      c.errorText ++ s = d.errorText ++ t ↔ c.returnsError = d.returnsError ∧ s = t := by
    intro s t
    unfold NormalizedContract.errorText
    cases c.returnsError <;> cases d.returnsError <;> simp
  have hjoin : join c.effectTexts = join d.effectTexts ↔
      segments ',' (readBack c.effectTexts) = segments ',' (readBack d.effectTexts) := by
    rw [← join_readBack, ← join_readBack d.effectTexts]
    exact intercalate_eq_iff (readBack_ne_nil _) (readBack_ne_nil _)
  have hbetween : ")->(".toList = ')' :: "->(".toList := rfl
  have hlast : ")".toList = [')'] := rfl
  unfold NormalizedContract.written NormalizedContract.shape
  rw [hbetween, hlast]
  -- the fixed texts cancel, whatever they are
  generalize "codeflux-contract-hash-v1\x1fshape=".toList = header, "(".toList = opening,
    "->(".toList = between
  simp only [append_assoc, cons_append, nil_append, append_cancel_left_eq,
    closed_eq_iff hc.1 hd.1, closed_eq_iff hc.2 hd.2, herror, hjoin]
  exact ⟨fun ⟨hp, hr, he, hs⟩ => ⟨hp, hr, he, hs⟩, fun ⟨hp, hr, he, hs⟩ => ⟨hp, hr, he, hs⟩⟩

theorem SameContract.alike (h : SameContract c d) : Alike c d := by
  refine ⟨by rw [h.parameters], by rw [h.results], h.returnsError, ?_⟩
  rw [effectTexts_eq_iff.2 h.effects]

/-- **When equal hashes mean equal contracts.** For a hash without collisions and contracts over
type texts: the hashes are equal exactly for the same contract, if and only if the two contracts,
should they be written alike, agree on which lists are empty and on the set of effects. -/
theorem contractHash_exact_iff {sha256 : Chars → String}
    (hcollisions : Function.Injective sha256) (hc : c.Typed) (hd : d.Typed) :
    (c.computeContractHash sha256 = d.computeContractHash sha256 ↔ SameContract c d) ↔
      (Alike c d → (c.parameters = [] ↔ d.parameters = []) ∧ (c.results = [] ↔ d.results = []) ∧
        ∀ effect, effect ∈ c.effects ↔ effect ∈ d.effects) := by
  unfold NormalizedContract.computeContractHash
  rw [hcollisions.eq_iff, written_eq_iff hc hd]
  constructor
  · intro h halike
    have hsame := h.1 halike
    exact ⟨by rw [hsame.parameters], by rw [hsame.results], hsame.effects⟩
  · refine fun h => ⟨fun halike => ?_, SameContract.alike⟩
    obtain ⟨hparameters, hresults, heffects⟩ := h halike
    exact ⟨eq_of_readBack halike.parameters hparameters, eq_of_readBack halike.results hresults,
      halike.returnsError, heffects⟩

/-- A function from texts to numbers, with the given effects. -/
def sampleContract (effects : List String) : NormalizedContract :=
  ⟨["string".toList], ["int".toList], true, effects.map String.toList⟩

theorem contractHash_sample :
    let c := sampleContract ["emits", "logs"]
    let d := sampleContract ["logs", "emits", "logs"]
    c.computeContractHash String.ofList = d.computeContractHash String.ofList ↔ SameContract c d :=
  (contractHash_exact_iff (fun _ _ => String.ofList_injective) (by decide) (by decide)).2 fun _ =>
    ⟨by decide, by decide, by simp [sampleContract, or_comm]⟩

/-- Under any hash, two effects collide with one that holds a comma, and no parameter with an empty
one. -/
theorem contractHash_collides :
    (let c := sampleContract ["emits,logs"]
     let d := sampleContract ["emits", "logs"]
     c.computeContractHash = d.computeContractHash ∧ ¬SameContract c d) ∧
    (let c := { sampleContract [] with parameters := [] }
     let d := { sampleContract [] with parameters := [[]] }
     c.computeContractHash = d.computeContractHash ∧ ¬SameContract c d) := by
  refine ⟨⟨funext fun sha256 => congrArg sha256 (by decide), fun h => ?_⟩,
    ⟨funext fun sha256 => congrArg sha256 (by decide), fun h => ?_⟩⟩
  · exact absurd ((h.effects "logs".toList).2 (by decide)) (by decide)
  · cases h.parameters

end Codeflux.Retrieval
