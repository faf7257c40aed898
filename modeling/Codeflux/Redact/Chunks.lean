import Codeflux.Redact.Model

/-!
# Redacting chunks

A stream keeps the first bytes of what is written to it, up to the input bound. When it refused any,
it adds one byte and bounds the input again. It also believes to have refused something when an
empty chunk arrives after the buffer is full.
-/

namespace Codeflux.Redact

open Library Go Redact.Pipeline List Nat

/-! ### What a stream keeps -/

/-- A chunk arrives after so many bytes, and does not fit. -/
def overflows (maximum : Nat) : Nat → List Bytes → Bool
  | _, [] => false
  | before, chunk :: chunks =>
    decide (maximum ≤ before ∨ maximum < before + chunk.length) ||
      overflows maximum (before + chunk.length) chunks

theorem Stream.write_eq (stream : Stream) (hopen : stream.finalized = false) (chunk before : Bytes)
    (hbuffer : stream.buffer = before.take stream.pipeline.limits.maximumInputBytes) :
    stream.write chunk = .ok ({ stream with
      buffer := (before ++ chunk).take stream.pipeline.limits.maximumInputBytes
      truncated := stream.truncated || decide
        (stream.pipeline.limits.maximumInputBytes ≤ before.length ∨
          stream.pipeline.limits.maximumInputBytes < before.length + chunk.length) },
      chunk.length) := by
  obtain ⟨pipeline, boundary, buffer, truncated, finalized⟩ := stream
  simp only at hopen hbuffer ⊢
  subst hbuffer
  simp only [Stream.write, hopen, ensure_of, ok_bind]
  generalize pipeline.limits.maximumInputBytes = maximum
  have hlength : (before.take maximum).length = min maximum before.length := length_take
  split_ifs with hfull hover
  · have hle : maximum ≤ before.length := by omega
    rw [take_append_of_le_length hle, decide_eq_true (.inl hle), Bool.or_true]
    rfl
  · have hlt : before.length < maximum := by omega
    have hover' : maximum < before.length + chunk.length := by omega
    rw [take_of_length_le hlt.le] at hover ⊢
    rw [take_append, take_of_length_le hlt.le, decide_eq_true (.inr hover'), Bool.or_true]
    rfl
  · have hlt : before.length < maximum := by omega
    have hfits : ¬ (maximum ≤ before.length ∨ maximum < before.length + chunk.length) := by omega
    rw [take_of_length_le hlt.le, decide_eq_false hfits, Bool.or_false,
      take_of_length_le (by rw [length_append]; omega)]
    rfl

/-- **What a stream keeps.** -/
theorem Stream.writeAll_eq (stream : Stream) (hopen : stream.finalized = false)
    (chunks : List Bytes) (before : Bytes)
    (hbuffer : stream.buffer = before.take stream.pipeline.limits.maximumInputBytes) :
    stream.writeAll chunks = .ok { stream with
      buffer := (before ++ chunks.flatten).take stream.pipeline.limits.maximumInputBytes
      truncated := stream.truncated ||
        overflows stream.pipeline.limits.maximumInputBytes before.length chunks } := by
  induction chunks generalizing stream before with
  | nil =>
    rw [flatten_nil, append_nil, ← hbuffer, overflows, Bool.or_false]
    rfl
  | cons chunk chunks ih =>
    rw [Stream.writeAll, foldlM_cons, stream.write_eq hopen chunk before hbuffer, Except.map,
      ok_bind, ← Stream.writeAll]
    refine (ih _ ?_ (before ++ chunk) ?_).trans ?_
    · exact hopen
    · rfl
    rw [flatten_cons, append_assoc, length_append, overflows, Bool.or_assoc]

/-! ### When the stream agrees with the whole -/

/-- An empty chunk arrives when the buffer is exactly full, and nothing after it. -/
def Overfed (maximum : Nat) (chunks : List Bytes) : Prop :=
  chunks.flatten.length = maximum ∧
    ∃ front back, chunks = front ++ [] :: back ∧ front.flatten.length = maximum

variable {maximum : Nat} {input : Bytes}

theorem overflows_iff (chunks : List Bytes) {before : Nat} (hbefore : before ≤ maximum) :
    overflows maximum before chunks = true ↔
      maximum < before + chunks.flatten.length ∨ before + chunks.flatten.length = maximum ∧
        ∃ front back, chunks = front ++ [] :: back ∧ before + front.flatten.length = maximum := by
  induction chunks generalizing before with
  | nil => simpa [overflows] using hbefore
  | cons chunk chunks ih =>
    rw [overflows, Bool.or_eq_true, decide_eq_true_iff, flatten_cons, length_append]
    rcases Nat.lt_or_ge maximum (before + chunk.length) with hover | hfits
    · exact iff_of_true (.inl (.inr hover)) (.inl (by omega))
    rw [ih hfits]
    constructor
    · rintro ((hfull | hover) | hlater | ⟨heq, front, back, rfl, hfront⟩)
      · rcases Nat.lt_or_ge maximum (before + (chunk.length + chunks.flatten.length)) with h | h
        · exact .inl h
        · have hchunk : chunk = [] := length_eq_zero_iff.1 (by omega)
          refine .inr ⟨by omega, [], chunks, by rw [hchunk, nil_append], ?_⟩
          rw [flatten_nil, length_nil]
          omega
      · exact .inl (by omega)
      · exact .inl (by omega)
      · refine .inr ⟨by omega, chunk :: front, back, rfl, ?_⟩
        rw [flatten_cons, length_append]
        omega
    · rintro (hlater | ⟨heq, front, back, hsplit, hfront⟩)
      · exact .inr (.inl (by omega))
      · cases front with
        | nil =>
          rw [flatten_nil, length_nil] at hfront
          exact .inl (.inl (by omega))
        | cons first front =>
          obtain ⟨rfl, rfl⟩ := cons_eq_cons.1 hsplit
          rw [flatten_cons, length_append] at hfront
          exact .inr (.inr ⟨by omega, front, back, rfl, by omega⟩)

theorem validPrefixFrom_congr {a b : Bytes} (h : ∀ n ≤ maximum, a.take n = b.take n) :
    validPrefixFrom a maximum = validPrefixFrom b maximum := by
  induction maximum with
  | zero => rfl
  | succ maximum ih =>
    rw [validPrefixFrom, validPrefixFrom, h _ (le_refl _),
      ih fun n hn => h n (le_succ_of_le hn)]

theorem validPrefixFrom_le (value : Bytes) (maximum : Nat) :
    validPrefixFrom value maximum ≤ maximum := by
  induction maximum with
  | zero => exact le_refl 0
  | succ maximum ih =>
    rw [validPrefixFrom]
    split_ifs
    · exact le_refl _
    · exact le_succ_of_le ih

theorem boundInput_take_concat (h : maximum < input.length) :
    boundInput (input.take maximum ++ [0]) maximum = boundInput input maximum := by
  have hlength : (input.take maximum ++ [0]).length = maximum + 1 := by
    rw [length_append, length_take, length_singleton]
    omega
  have htake : ∀ n ≤ maximum, (input.take maximum ++ [0]).take n = input.take n := by
    intro n hn
    rw [take_append_of_le_length (by rw [length_take]; omega), take_take,
      min_eq_left hn]
  have hkeep : validUTF8Prefix (input.take maximum ++ [0])
      (maximum - maxSecretBytes - truncatedMarker.length) =
      validUTF8Prefix input (maximum - maxSecretBytes - truncatedMarker.length) := by
    rw [validUTF8Prefix, validUTF8Prefix, hlength, min_eq_left (by omega),
      min_eq_left (by omega)]
    exact validPrefixFrom_congr fun n hn => htake n (by omega)
  rw [boundInput, boundInput, if_neg (by omega), if_neg (by omega)]
  simp only [hkeep]
  rw [htake]
  exact (validPrefixFrom_le _ _).trans (by omega)

theorem boundInput_boundInput (h : maximum < input.length) (hmaximum : 4096 ≤ maximum) :
    boundInput (boundInput input maximum).1 maximum = ((boundInput input maximum).1, false) := by
  have hlength : (boundInput input maximum).1.length ≤ maximum := by
    rw [boundInput, if_neg (by omega)]
    have hkeep : validUTF8Prefix input (maximum - maxSecretBytes - truncatedMarker.length) ≤
        maximum - maxSecretBytes - truncatedMarker.length :=
      (validPrefixFrom_le _ _).trans (min_le_left _ _)
    simp only [length_append, length_take, truncatedMarker, maxSecretBytes,
      length_cons, length_nil] at hkeep ⊢
    omega
  generalize (boundInput input maximum).1 = bounded at hlength
  rw [boundInput, if_pos hlength]

variable (pipeline : Pipeline) (patterns : Patterns) (boundary : OpenEnum Boundary)
  (chunks : List Bytes)

theorem redactChunks_eq (hvalid : boundary.isValid = true) (hopen : pipeline.closed = false) :
    pipeline.redactChunks patterns boundary chunks =
      let maximum := pipeline.limits.maximumInputBytes
      let truncated := overflows maximum 0 chunks
      let bounded := boundInput
        (if truncated then (boundInput (chunks.flatten.take maximum ++ [0]) maximum).1
          else chunks.flatten.take maximum) maximum
      .ok (pipeline.redactBounded patterns boundary bounded.1 (bounded.2 || truncated)) := by
  have hwrite := Stream.writeAll_eq ⟨pipeline, boundary, [], false, false⟩ rfl chunks []
    take_nil.symm
  simp only [redactChunks, newStream, hvalid, ensure_of, ok_bind, pure_bind,
    hwrite, Stream.finalize, redact, hopen, nil_append, length_nil,
    Bool.false_or]
  rfl

theorem redact_eq (input : Bytes) (hvalid : boundary.isValid = true)
    (hopen : pipeline.closed = false) :
    pipeline.redact patterns boundary input =
      let bounded := boundInput input pipeline.limits.maximumInputBytes
      .ok (pipeline.redactBounded patterns boundary bounded.1 bounded.2) := by
  simp only [redact, hvalid, hopen, ensure_of, ok_bind]
  rfl

/-- A stream that is not overfed bounds its input where the whole is bounded. -/
theorem bounded_eq (hmaximum : 4096 ≤ maximum) (h : ¬ Overfed maximum chunks) :
    let truncated := overflows maximum 0 chunks
    let bounded := boundInput
      (if truncated then (boundInput (chunks.flatten.take maximum ++ [0]) maximum).1
        else chunks.flatten.take maximum) maximum
    (bounded.1, bounded.2 || truncated) = boundInput chunks.flatten maximum := by
  have hover := overflows_iff chunks (Nat.zero_le maximum)
  simp only [Nat.zero_add] at hover
  rcases Nat.lt_or_ge maximum chunks.flatten.length with hlong | hfits
  · simp only [hover.2 (.inl hlong), if_true, boundInput_take_concat hlong,
      boundInput_boundInput hlong hmaximum, Bool.false_or]
    rw [boundInput, if_neg (by omega)]
  · have hno : overflows maximum 0 chunks = false := by
      rw [← Bool.not_eq_true, hover]
      rintro (hlt | hfed)
      · omega
      · exact h hfed
    simp [hno, take_of_length_le hfits]

/-- An overfed stream reports a truncation that did not happen. -/
theorem redactChunks_ne_of_overfed (hvalid : boundary.isValid = true)
    (hopen : pipeline.closed = false) (hfed : Overfed pipeline.limits.maximumInputBytes chunks) :
    pipeline.redactChunks patterns boundary chunks ≠
      pipeline.redact patterns boundary chunks.flatten := by
  rw [redactChunks_eq _ _ _ _ hvalid hopen, redact_eq _ _ _ _ hvalid hopen]
  have hover : overflows pipeline.limits.maximumInputBytes 0 chunks = true := by
    rw [overflows_iff chunks (Nat.zero_le _)]
    simp only [Nat.zero_add]
    exact .inr hfed
  intro heq
  have hreport := congrArg (fun redacted => redacted.report.inputTruncated) (Except.ok.inj heq)
  simp only [redactBounded, hover, Bool.or_true] at hreport
  rw [boundInput, if_pos hfed.1.le] at hreport
  cases hreport

/-- **When redacting chunks is redacting the whole.** A stream returns the text and the report that
the whole input has, exactly when it is not overfed, or both are refused. -/
theorem redactChunks_eq_redact_iff :
    pipeline.redactChunks patterns boundary chunks =
        pipeline.redact patterns boundary chunks.flatten ↔
      boundary.isValid = false ∨ pipeline.closed = true ∨
        ¬ Overfed pipeline.limits.maximumInputBytes chunks := by
  cases hvalid : boundary.isValid with
  | false =>
    refine iff_of_true ?_ (.inl rfl)
    simp only [redactChunks, newStream, redact, hvalid]
    rfl
  | true =>
    cases hclosed : pipeline.closed with
    | true =>
      refine iff_of_true ?_ (.inr (.inl rfl))
      have hwrite := Stream.writeAll_eq ⟨pipeline, boundary, [], false, false⟩ rfl chunks []
        take_nil.symm
      simp only [redactChunks, newStream, hvalid, ensure_of, ok_bind, pure_bind,
        hwrite, Stream.finalize, redact, hclosed]
      rfl
    | false =>
      simp only [Bool.true_eq_false, Bool.false_eq_true, false_or]
      constructor
      · exact fun heq hfed =>
          redactChunks_ne_of_overfed pipeline patterns boundary chunks hvalid hclosed hfed heq
      · intro hfed
        rw [redactChunks_eq _ _ _ _ hvalid hclosed, redact_eq _ _ _ _ hvalid hclosed]
        have hbounded := bounded_eq chunks pipeline.limited.1 hfed
        simp only [Prod.ext_iff] at hbounded
        simp [hbounded.1, hbounded.2]

/-- A full buffer and an empty chunk: the stream cuts a text that fits. -/
theorem overfedStream_differs :
    ∃ (pipeline : Pipeline) (chunks : List Bytes),
      pipeline.redactChunks noPatterns Boundary.logPersistence chunks ≠
        pipeline.redact noPatterns Boundary.logPersistence chunks.flatten := by
  refine ⟨⟨[], ⟨4096, 4096⟩, false, by decide⟩, [List.replicate 4096 0x61, []], ?_⟩
  refine redactChunks_ne_of_overfed _ _ _ _ rfl rfl ⟨?_, [List.replicate 4096 0x61], [], rfl, ?_⟩
  · rw [flatten_cons, flatten_cons, flatten_nil, append_nil, append_nil,
      length_replicate]
  · rw [flatten_cons, flatten_nil, append_nil, length_replicate]

end Codeflux.Redact
