import Codeflux.Library.Separated
import Codeflux.Executor.Expiry

/-!
# What an action hash identifies

The action hash of a request is the digest of its task, tool, cleaned directory, argument values and
sorted effects, with a zero character between them. Neither the names of the arguments nor the
lengths of the fields are written, and a field may hold a zero character itself.
-/

namespace Codeflux.Executor

open Library Go Domain

variable {host : Host} {left right request : ToolRequest}

/-- The character the hash writes between two fields. -/
def zeroChar : Char := '\x00'

/-- The same task, tool and cleaned directory, the same argument names and values in the same order,
and the same effects, each as often. -/
structure SameAction (left right : ToolRequest) : Prop where
  taskID : left.taskID = right.taskID
  tool : left.name = right.name
  workingDirectory : clean left.workingDirectory = clean right.workingDirectory
  names : left.arguments.map (·.name) = right.arguments.map (·.name)
  values : argumentValues left.arguments = argumentValues right.arguments
  effects : left.expectedSideEffects.Perm right.expectedSideEffects

section

variable (request : ToolRequest)

/-- The cleaned directory and the argument values. -/
def freeFields : List (List Char) :=
  (clean request.workingDirectory :: argumentValues request.arguments).map String.toList

/-- The texts of the effects in order. -/
def effectFields : List (List Char) :=
  (sortEffects request.expectedSideEffects).map fun effect => effect.toText.toList

/-- What follows the tool in the hashed text, cut at the zero characters. -/
def actionSegments : List (List Char) :=
  segments zeroChar (freeFields request ++ effectFields request)

/-- How many zero characters the directory and each argument value hold. -/
def actionMarks : List Nat := marks zeroChar (freeFields request)

end

/-! ### The hashed text -/

theorem flatMap_writes {β : Type*} (text : β → String) (xs : List β) :
    (xs.flatMap fun x => ["\x00", text x]).flatMap String.toList =
      (xs.map fun x => (text x).toList).flatMap (zeroChar :: ·) := by
  induction xs with
  | nil => rfl
  | cons x xs ih =>
    rw [List.flatMap_cons, List.flatMap_append, ih]
    simp [zeroChar]

theorem actionSHA256_eq (host : Host) (request : ToolRequest) :
    actionSHA256 host request =
      host.sha256 (String.ofList ([zeroChar].intercalate
        (request.taskID.value.toList :: request.name.toText.toList ::
          (freeFields request ++ effectFields request)))) := by
  rw [actionSHA256, hashActionPattern, concat, intercalate_cons_eq_flatMap]
  rw [List.flatMap_append, List.flatMap_append, flatMap_writes, flatMap_writes]
  simp [actionPattern, freeFields, effectFields, zeroChar]

/-! ### Fields without zero characters -/

theorem zeroChar_not_mem_tool {tool : OpenEnum ToolName} (h : tool.isValid = true) :
    zeroChar ∉ tool.toText.toList := by
  obtain ⟨name, rfl⟩ := OpenEnum.isValid_iff.1 h
  cases name <;> decide

theorem zeroChar_not_mem_effect {effect : OpenEnum SideEffect} (h : effect.isValid = true) :
    zeroChar ∉ effect.toText.toList := by
  obtain ⟨name, rfl⟩ := OpenEnum.isValid_iff.1 h
  cases name <;> decide

theorem toList_of_trimPrefix? {p s rest : String} (h : trimPrefix? p s = some rest) :
    s.toList = p.toList ++ rest.toList := by
  obtain ⟨tail, htail, rfl⟩ := Option.map_eq_some_iff.1 h
  obtain ⟨front, hfront, heq⟩ := List.dropPrefix?_eq_some_iff.1 htail
  rw [hfront, beq_iff_eq.1 heq, String.toList_ofList]

theorem zeroChar_not_mem_payload {payload : String} (h : validateUUIDv7 payload = .ok ()) :
    zeroChar ∉ payload.toList := by
  simp only [validateUUIDv7, run_ok_iff, forM_ok_iff] at h
  obtain ⟨-, -, -, hcharacters, -⟩ := h
  intro hmem
  obtain ⟨index, hindex⟩ := List.mem_iff_getElem?.1 hmem
  have hcheck := hcharacters (zeroChar, index) (List.mk_mem_zipIdx_iff_getElem?.2 hindex)
  have hdash : zeroChar ≠ '-' := by decide
  have hhex : isLowerHex zeroChar = false := by decide
  simp only [checkUUIDCharacter, hdash, hhex] at hcheck
  split_ifs at hcheck
  · exact ensure_ok_iff.1 hcheck
  · exact (ensure_ok_iff.1 hcheck).elim

theorem zeroChar_not_mem_taskID (id : TaskID) : zeroChar ∉ id.value.toList := by
  obtain hzero | hcanonical := id.canonical
  · simp [hzero]
  · simp only [checkTypedID, bind_ok_iff] at hcanonical
    obtain ⟨-, -, hpayload⟩ := hcanonical
    split at hpayload
    · cases hpayload
    · next payload hsplit =>
      rw [toList_of_trimPrefix? hsplit, List.mem_append, not_or]
      exact ⟨by decide, zeroChar_not_mem_payload (mapError_ok_iff.1 hpayload)⟩

/-! ### What the hash identifies -/

theorem sortEffects_eq_iff {xs ys : List (OpenEnum SideEffect)} :
    sortEffects xs = sortEffects ys ↔ xs.Perm ys := by
  have hperm : ∀ effects, (sortEffects effects).Perm effects := List.perm_insertionSort _
  constructor
  · intro h
    exact (hperm xs).symm.trans (h ▸ hperm ys)
  · intro h
    refine List.Perm.eq_of_pairwise ?_ (List.pairwise_insertionSort _ xs)
      (List.pairwise_insertionSort _ ys) ((hperm xs).trans (h.trans (hperm ys).symm))
    intro a b _ _ hab hba
    exact OpenEnum.toText_injective (le_antisymm hab hba)

theorem effectFields_eq_iff :
    effectFields left = effectFields right ↔
      left.expectedSideEffects.Perm right.expectedSideEffects := by
  rw [← sortEffects_eq_iff]
  refine (List.map_injective_iff.2 fun a b hab => ?_).eq_iff
  exact OpenEnum.toText_injective (String.toList_injective hab)

theorem freeFields_eq_iff :
    freeFields left = freeFields right ↔
      clean left.workingDirectory = clean right.workingDirectory ∧
        argumentValues left.arguments = argumentValues right.arguments := by
  rw [← List.cons.injEq]
  exact (List.map_injective_iff.2 fun a b hab => String.toList_injective hab).eq_iff

theorem effectFields_segments (h : ValidToolRequest request) :
    segments zeroChar (effectFields request) = effectFields request := by
  refine segments_of_not_mem fun field hfield => ?_
  obtain ⟨effect, heffect, rfl⟩ := List.mem_map.1 hfield
  exact zeroChar_not_mem_effect (h.effects effect ((List.mem_insertionSort _).1 heffect))

/-- **Without collisions, the hash of a checked request identifies its task, its tool, and what
follows them cut at the zero characters.** -/
theorem actionSHA256_eq_iff (hcollisions : Function.Injective host.sha256)
    (hleft : ValidToolRequest left) (hright : ValidToolRequest right) :
    actionSHA256 host left = actionSHA256 host right ↔
      left.taskID = right.taskID ∧ left.name = right.name ∧
        actionSegments left = actionSegments right := by
  rw [actionSHA256_eq, actionSHA256_eq, hcollisions.eq_iff, String.ofList_inj,
    intercalate_eq_iff (by simp) (by simp)]
  simp only [segments_cons, List.splitOn_eq_singleton (zeroChar_not_mem_taskID _),
    List.splitOn_eq_singleton (zeroChar_not_mem_tool hleft.name),
    List.splitOn_eq_singleton (zeroChar_not_mem_tool hright.name), List.singleton_append,
    List.cons.injEq, String.toList_inj, OpenEnum.toText_injective.eq_iff]
  exact and_congr ⟨fun h => TypedID.ext h, fun h => congrArg _ h⟩ Iff.rfl

theorem sameAction_iff (hleft : ValidToolRequest left) (hright : ValidToolRequest right)
    (htask : left.taskID = right.taskID) (htool : left.name = right.name)
    (hsegments : actionSegments left = actionSegments right) :
    SameAction left right ↔
      left.arguments.map (·.name) = right.arguments.map (·.name) ∧
        actionMarks left = actionMarks right := by
  constructor
  · intro h
    refine ⟨h.names, ?_⟩
    rw [actionMarks, actionMarks, freeFields_eq_iff.2 ⟨h.workingDirectory, h.values⟩]
  · rintro ⟨hnames, hmarks⟩
    obtain ⟨hfree, hrest⟩ := eq_of_segments_append hmarks hsegments
    rw [effectFields_segments hleft, effectFields_segments hright] at hrest
    obtain ⟨hdirectory, hvalues⟩ := freeFields_eq_iff.1 hfree
    exact ⟨htask, htool, hdirectory, hnames, hvalues, effectFields_eq_iff.1 hrest⟩

/-- **Equal action hashes of two checked requests imply that the requests do the same, exactly when
requests that agree on the task, the tool and the segments also agree on the argument names and on
where the directory and each argument value end.** -/
theorem actionSHA256_exact_iff (hcollisions : Function.Injective host.sha256)
    (hleft : validateToolRequest left = .ok ()) (hright : validateToolRequest right = .ok ()) :
    (actionSHA256 host left = actionSHA256 host right → SameAction left right) ↔
      (left.taskID = right.taskID → left.name = right.name →
        actionSegments left = actionSegments right →
        left.arguments.map (·.name) = right.arguments.map (·.name) ∧
          actionMarks left = actionMarks right) := by
  have hvalidLeft := validateToolRequest_ok_iff.1 hleft
  have hvalidRight := validateToolRequest_ok_iff.1 hright
  rw [actionSHA256_eq_iff hcollisions hvalidLeft hvalidRight]
  constructor
  · intro h htask htool hsegments
    exact (sameAction_iff hvalidLeft hvalidRight htask htool hsegments).1
      (h ⟨htask, htool, hsegments⟩)
  · rintro h ⟨htask, htool, hsegments⟩
    exact (sameAction_iff hvalidLeft hvalidRight htask htool hsegments).2
      (h htask htool hsegments)

/-- The names of the two arguments of the sample write, exchanged: it writes another file. -/
def swappedWrite : ToolRequest :=
  { sampleWrite with
    arguments := [⟨"content", "main.go", false⟩, ⟨"path", "package main", false⟩] }

/-- The sample write with the empty content. -/
def emptyWrite : ToolRequest :=
  { sampleWrite with
    arguments := [⟨"path", "main.go", false⟩, ⟨"content", "", false⟩] }

theorem emptyWrite_valid : validateToolRequest emptyWrite = .ok () := by decide

theorem swappedWrite_valid : validateToolRequest swappedWrite = .ok () := by decide

theorem emptyWrite_told_apart :
    (Function.Injective plainHost.sha256 ∧ validateToolRequest sampleWrite = .ok () ∧
        validateToolRequest emptyWrite = .ok ()) ∧
      (actionSHA256 plainHost sampleWrite = actionSHA256 plainHost emptyWrite →
        SameAction sampleWrite emptyWrite) :=
  ⟨⟨Function.injective_id, sampleWrite_valid, emptyWrite_valid⟩,
    (actionSHA256_exact_iff Function.injective_id sampleWrite_valid emptyWrite_valid).2
      fun _ _ _ => by decide⟩

/-- Two writes of different files have one hash, because argument names are not hashed. -/
theorem swappedWrite_same_hash :
    (validateToolRequest sampleWrite = .ok () ∧ validateToolRequest swappedWrite = .ok ()) ∧
      actionSHA256 plainHost sampleWrite = actionSHA256 plainHost swappedWrite ∧
      ¬SameAction sampleWrite swappedWrite :=
  ⟨⟨sampleWrite_valid, swappedWrite_valid⟩, rfl, fun h => absurd h.names (by decide)⟩

end Codeflux.Executor
