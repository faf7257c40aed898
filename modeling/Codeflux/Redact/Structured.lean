import Codeflux.Redact.Exposure

/-!
# Redacting structured values

Text values go through the pipeline, the value under a name that sounds sensitive becomes the
marker, and everything else, names too, is copied. A document is represented by the value it decodes
to and by its length; the order of the members and the Unicode case mapping are parameters or left
out.
-/

namespace Codeflux.Redact

open Library Go List

/-- A value that is neither a text nor has parts, by its serialization, if it has one. -/
structure Scalar where
  encoding : Option Bytes

/-- A structured value as the program has it. -/
inductive Field
  | object (members : List (Bytes × Field))
  | list (items : List Field)
  /-- A slice of strings. -/
  | texts (items : List Bytes)
  | text (value : Bytes)
  | scalar (value : Scalar)
  /-- A value of a type that the walk refuses. -/
  | other (typeName : String)

/-- A structured value as it is serialized. -/
inductive Json
  | object (members : List (Bytes × Json))
  | list (items : List Json)
  | text (value : Bytes)
  | scalar (value : Scalar)

/-! ### The walk -/

/-- What a sensitive name contains. -/
def sensitiveFragments : List Bytes :=
  ["credential", "secret", "api_key", "access_token", "refresh_token", "password", "private_key",
    "authorization"].map bytes

/-- Does a name sound sensitive? The argument `toLower` is `strings.ToLower`. -/
def sensitiveFieldName (toLower : Bytes → Bytes) (name : Bytes) : Bool :=
  sensitiveFragments.any fun fragment =>
    contains (toLower (replaceAll name [0x2D] [0x5F])) fragment

section Walk

variable (pipeline : Pipeline) (patterns : Patterns) (toLower : Bytes → Bytes)
  (boundary : OpenEnum Boundary)

/-- The walk of one text. -/
def redactText (value : Bytes) (report : Report) : Result (Json × Report) := do
  let redacted ← pipeline.redact patterns boundary value
  return (.text redacted.text, { report with
    redactions := report.redactions + redacted.report.redactions
    inputTruncated := report.inputTruncated || redacted.report.inputTruncated
    outputTruncated := report.outputTruncated || redacted.report.outputTruncated })

/-- Redact a list of texts. -/
def redactTexts : List Bytes → Report → Result (List Json × Report)
  | [], report => .ok ([], report)
  | value :: rest, report => do
    let (redacted, report) ← redactText pipeline patterns boundary value report
    let (others, report) ← redactTexts rest report
    return (redacted :: others, report)

mutual

/-- Redact a value and count. -/
def redactStructured : Field → Report → Result (Json × Report)
  | .object members, report => do
    let (redacted, report) ← redactMembers members report
    return (.object redacted, report)
  | .list items, report => do
    let (redacted, report) ← redactItems items report
    return (.list redacted, report)
  | .texts items, report => do
    let (redacted, report) ← redactTexts pipeline patterns boundary items report
    return (.list redacted, report)
  | .text value, report => redactText pipeline patterns boundary value report
  | .scalar value, report => .ok (.scalar value, report)
  | .other typeName, _ => .error ("unsupported structured field type " ++ typeName)

/-- The members of an object. -/
def redactMembers : List (Bytes × Field) → Report → Result (List (Bytes × Json) × Report)
  | [], report => .ok ([], report)
  | (key, child) :: rest, report =>
    if sensitiveFieldName toLower key then do
      let (others, report) ← redactMembers rest
        { report with redactions := report.redactions + 1 }
      return ((key, .text marker) :: others, report)
    else do
      let (redacted, report) ← redactStructured child report
      let (others, report) ← redactMembers rest report
      return ((key, redacted) :: others, report)

/-- The items of a list. -/
def redactItems : List Field → Report → Result (List Json × Report)
  | [], report => .ok ([], report)
  | child :: rest, report => do
    let (redacted, report) ← redactStructured child report
    let (others, report) ← redactItems rest report
    return (redacted :: others, report)

end

end Walk

/-! ### Serialized documents -/

/-- The length of the text as `encoding/json` escapes it, angle brackets and ampersands included. -/
def escapedLengthFrom : Nat → Bytes → Nat
  | _, [] => 0
  | pending + 1, _ :: rest => escapedLengthFrom pending rest
  | 0, b :: rest =>
    match runeWidth (b :: rest) with
    | 0 => 6 + escapedLengthFrom 0 rest
    | 1 =>
      (if b ∈ ([0x22, 0x5C, 0x08, 0x09, 0x0A, 0x0C, 0x0D] : Bytes) then 2
        else if b < 0x20 ∨ b ∈ ([0x3C, 0x3E, 0x26] : Bytes) then 6 else 1) +
        escapedLengthFrom 0 rest
    | width + 1 =>
      (if [0xE2, 0x80, 0xA8].isPrefixOf (b :: rest) || [0xE2, 0x80, 0xA9].isPrefixOf (b :: rest)
        then 6 else width + 1) + escapedLengthFrom width rest

/-- The length of a text in quotes. -/
def textLength (value : Bytes) : Nat := 2 + escapedLengthFrom 0 value

/-- The length of a sequence of parts with brackets and commas. -/
def sequenceLength (parts : List Nat) : Nat := 2 + parts.sum + (parts.length - 1)

namespace Json

mutual

/-- The length of the serialized value, if it can be serialized. -/
def encodedLength : Json → Option Nat
  | object members => (memberLengths members).map sequenceLength
  | list items => (itemLengths items).map sequenceLength
  | text value => some (textLength value)
  | scalar value => value.encoding.map List.length

/-- The lengths of the members. -/
def memberLengths : List (Bytes × Json) → Option (List Nat)
  | [] => some []
  | (key, child) :: rest => do
    let length ← encodedLength child
    let others ← memberLengths rest
    return (textLength key + 1 + length) :: others

/-- The lengths of the items. -/
def itemLengths : List Json → Option (List Nat)
  | [] => some []
  | child :: rest => do
    let length ← encodedLength child
    let others ← itemLengths rest
    return length :: others

end

mutual

/-- What the serialized value decodes to. -/
def decoded : Json → Json
  | object members => object (decodedMembers members)
  | list items => list (decodedItems items)
  | text value => text (coerceUTF8 value)
  | scalar value => scalar value

/-- The members, decoded. -/
def decodedMembers : List (Bytes × Json) → List (Bytes × Json)
  | [] => []
  | (key, child) :: rest => (coerceUTF8 key, decoded child) :: decodedMembers rest

/-- The items, decoded. -/
def decodedItems : List Json → List Json
  | [] => []
  | child :: rest => decoded child :: decodedItems rest

end

mutual

/-- The names and texts of a value. -/
def strings : Json → List Bytes
  | object members => memberStrings members
  | list items => itemStrings items
  | text value => [value]
  | scalar _ => []

/-- The names and texts of the members. -/
def memberStrings : List (Bytes × Json) → List Bytes
  | [] => []
  | (key, child) :: rest => key :: (strings child ++ memberStrings rest)

/-- The names and texts of the items. -/
def itemStrings : List Json → List Bytes
  | [] => []
  | child :: rest => strings child ++ itemStrings rest

end

mutual

theorem strings_decoded : (value : Json) → value.decoded.strings = value.strings.map coerceUTF8
  | object members => memberStrings_decoded members
  | list items => itemStrings_decoded items
  | text _ | scalar _ => rfl

theorem memberStrings_decoded : (members : List (Bytes × Json)) →
    memberStrings (decodedMembers members) = (memberStrings members).map coerceUTF8
  | [] => rfl
  | (key, child) :: rest => by
    rw [decodedMembers, memberStrings, memberStrings, strings_decoded child,
      memberStrings_decoded rest, map_cons, map_append]

theorem itemStrings_decoded : (items : List Json) →
    itemStrings (decodedItems items) = (itemStrings items).map coerceUTF8
  | [] => rfl
  | child :: rest => by
    rw [decodedItems, itemStrings, itemStrings, strings_decoded child, itemStrings_decoded rest,
      map_append]

end

end Json

/-- A serialized document: what it decodes to, and its length. -/
structure Document where
  value : Json
  length : Nat

/-- Serialize a value: `json.Marshal`. -/
def marshal (value : Json) : Result Document :=
  match value.encodedLength with
  | none => .error "serialize redacted fields"
  | some length => .ok ⟨value.decoded, length⟩

/-- The document in place of one that is too long. -/
def truncatedDocument : Document :=
  let yes := Json.scalar ⟨some (bytes "true")⟩
  ⟨.object [(bytes "redacted", yes), (bytes "truncated", yes)], 34⟩

/-- Redact and serialize a document. -/
def redactFields (pipeline : Pipeline) (patterns : Patterns) (toLower : Bytes → Bytes)
    (boundary : OpenEnum Boundary) (fields : List (Bytes × Field)) :
    Result (Document × Report) := do
  ensure (boundary.isValid = true) "redaction boundary is invalid"
  let (redacted, report) ← redactStructured pipeline patterns toLower boundary (.object fields)
    ⟨boundary, 0, false, false, false⟩
  let document ← marshal redacted
  if pipeline.limits.maximumOutputBytes < document.length then
    return (truncatedDocument, { report with outputTruncated := true, entropyEnabled := false })
  else
    return (document, { report with entropyEnabled := false })

/-! ### What a walk meets -/

/-- A name, a text, or a value that is hidden under a sensitive name. -/
inductive Part
  | name (key : Bytes)
  | value (text : Bytes)
  | hidden

mutual

/-- What the walk meets in a value. -/
def Field.parts (toLower : Bytes → Bytes) : Field → List Part
  | .object members => memberParts toLower members
  | .list items => itemParts toLower items
  | .texts items => items.map .value
  | .text value => [.value value]
  | .scalar _ => []
  | .other _ => []

/-- What it meets in the members. -/
def memberParts (toLower : Bytes → Bytes) : List (Bytes × Field) → List Part
  | [] => []
  | (key, child) :: rest =>
    .name key :: ((if sensitiveFieldName toLower key then [.hidden] else child.parts toLower) ++
      memberParts toLower rest)

/-- What it meets in the items. -/
def itemParts (toLower : Bytes → Bytes) : List Field → List Part
  | [] => []
  | child :: rest => child.parts toLower ++ itemParts toLower rest

end

section Parts

variable {pipeline : Pipeline} {patterns : Patterns} {toLower : Bytes → Bytes}
  {boundary : OpenEnum Boundary}

/-- What becomes of a part. -/
def Part.Renders (pipeline : Pipeline) (patterns : Patterns) (boundary : OpenEnum Boundary) :
    Part → Bytes → Prop
  | name key, string => string = key
  | value text, string => ∃ redacted, pipeline.redact patterns boundary text = .ok redacted ∧
      string = redacted.text
  | hidden, string => string = marker

variable {report report' : Report}

theorem strings_redactText {value : Bytes} {json : Json}
    (h : redactText pipeline patterns boundary value report = .ok (json, report')) :
    List.Forall₂ (Part.Renders pipeline patterns boundary) [.value value] json.strings := by
  simp only [redactText, run_ok_iff, Prod.mk.injEq] at h
  obtain ⟨redacted, hredact, rfl, -⟩ := h
  exact .cons ⟨redacted, hredact, rfl⟩ .nil

theorem strings_redactTexts {items : List Bytes} {jsons : List Json}
    (h : redactTexts pipeline patterns boundary items report = .ok (jsons, report')) :
    List.Forall₂ (Part.Renders pipeline patterns boundary) (items.map .value)
      (Json.itemStrings jsons) := by
  induction items generalizing report report' jsons with
  | nil =>
    cases h
    exact .nil
  | cons value items ih =>
    simp only [redactTexts, run_ok_iff, Prod.mk.injEq, Prod.exists] at h
    obtain ⟨first, _, hfirst, others, _, hothers, rfl, -⟩ := h
    exact rel_append (strings_redactText hfirst) (ih hothers)

mutual

/-- **The names and texts of the result of a walk.** They are what becomes of the parts that the
walk meets. -/
theorem strings_redactStructured : (field : Field) → {report report' : Report} → {json : Json} →
    redactStructured pipeline patterns toLower boundary field report = .ok (json, report') →
    List.Forall₂ (Part.Renders pipeline patterns boundary) (field.parts toLower) json.strings
  | .object members, _, _, _, h => by
    simp only [redactStructured, run_ok_iff, Prod.mk.injEq, Prod.exists] at h
    obtain ⟨_, _, hmembers, rfl, -⟩ := h
    exact strings_redactMembers members hmembers
  | .list items, _, _, _, h => by
    simp only [redactStructured, run_ok_iff, Prod.mk.injEq, Prod.exists] at h
    obtain ⟨_, _, hitems, rfl, -⟩ := h
    exact strings_redactItems items hitems
  | .texts items, _, _, _, h => by
    simp only [redactStructured, run_ok_iff, Prod.mk.injEq, Prod.exists] at h
    obtain ⟨_, _, hitems, rfl, -⟩ := h
    exact strings_redactTexts hitems
  | .text _, _, _, _, h => strings_redactText h
  | .scalar _, _, _, _, h => by
    cases h
    exact .nil
  | .other _, _, _, _, h => by
    cases h

theorem strings_redactMembers : (members : List (Bytes × Field)) → {report report' : Report} →
    {redacted : List (Bytes × Json)} →
    redactMembers pipeline patterns toLower boundary members report = .ok (redacted, report') →
    List.Forall₂ (Part.Renders pipeline patterns boundary) (memberParts toLower members)
      (Json.memberStrings redacted)
  | [], _, _, _, h => by
    cases h
    exact .nil
  | (key, child) :: rest, _, _, _, h => by
    rw [redactMembers] at h
    rw [memberParts]
    split_ifs at h ⊢ with hsensitive
    · simp only [run_ok_iff, Prod.mk.injEq, Prod.exists] at h
      obtain ⟨_, _, hrest, rfl, -⟩ := h
      exact .cons rfl (.cons rfl (strings_redactMembers rest hrest))
    · simp only [run_ok_iff, Prod.mk.injEq, Prod.exists] at h
      obtain ⟨_, _, hchild, _, _, hrest, rfl, -⟩ := h
      exact .cons rfl (rel_append (strings_redactStructured child hchild)
        (strings_redactMembers rest hrest))

theorem strings_redactItems : (items : List Field) → {report report' : Report} →
    {redacted : List Json} →
    redactItems pipeline patterns toLower boundary items report = .ok (redacted, report') →
    List.Forall₂ (Part.Renders pipeline patterns boundary) (itemParts toLower items)
      (Json.itemStrings redacted)
  | [], _, _, _, h => by
    cases h
    exact .nil
  | child :: rest, _, _, _, h => by
    simp only [redactItems, run_ok_iff, Prod.mk.injEq, Prod.exists] at h
    obtain ⟨_, _, hchild, _, _, hrest, rfl, -⟩ := h
    exact rel_append (strings_redactStructured child hchild) (strings_redactItems rest hrest)

end

end Parts

/-! ### Valid texts decode to themselves -/

theorem coerceUTF8_of_runes {value : Bytes} (h : Runes value) : coerceUTF8 value = value :=
  coerceUTF8_eq_self_iff.2 (validUTF8_iff.2 h)

theorem runes_replaceSecrets {exact : List Bytes} (hexact : ∀ secret ∈ exact, secret ≠ [] ∧
    Runes secret) {text : Bytes} (htext : Runes text) (count : UInt64) :
    Runes (exact.foldl replaceSecret (text, count)).1 := by
  induction exact generalizing text count with
  | nil => exact htext
  | cons secret exact ih =>
    rw [forall_mem_cons] at hexact
    have hmarker : Runes marker := runes_of_ascii (by decide)
    have hstep : Runes (replaceSecret (text, count) secret).1 := by
      rw [replaceSecret_fst, replaceAll_eq_substitute]
      exact hexact.1.2.substitute hexact.1.1 hmarker htext
    exact ih hexact.2 hstep _

theorem runes_boundOutput {output : Bytes} (h : Runes output) (maximum : Nat) :
    Runes (boundOutput output maximum).1 := by
  rw [boundOutput]
  split_ifs
  · exact h
  · exact (runes_validUTF8Prefix output _).append (runes_of_ascii (by decide))

theorem runes_redact {pipeline : Pipeline} (hexact : ∀ secret ∈ pipeline.exact, secret ≠ [] ∧
    Runes secret) {boundary : OpenEnum Boundary} {input : Bytes} {redacted : Redacted}
    (h : pipeline.redact noPatterns boundary input = .ok redacted) : Runes redacted.text := by
  simp only [Pipeline.redact, run_ok_iff] at h
  obtain ⟨_, -, _, -, rfl⟩ := h
  have hreplacement : Runes replacementRune := validUTF8_iff.1 (by decide)
  exact runes_boundOutput (runes_replaceSecrets hexact
    (runes_toValidUTF8 hreplacement _) 0) _

/-! ### When no secret is in the document -/

/-- What becomes of a part holds no secret. -/
def Part.Clean (pipeline : Pipeline) (secrets : List Bytes) : Part → Prop
  | name key => ∀ secret ∈ secrets, ¬ secret <:+: coerceUTF8 key
  | value text => Unmarked pipeline secrets text
  | hidden => redactedWord ∉ secrets

/-- The result of the walk is longer than the limit of the output. -/
def Oversized (pipeline : Pipeline) (toLower : Bytes → Bytes) (boundary : OpenEnum Boundary)
    (fields : List (Bytes × Field)) : Prop :=
  ∃ json report length, redactStructured pipeline noPatterns toLower boundary (.object fields)
    ⟨boundary, 0, false, false, false⟩ = .ok (json, report) ∧ json.encodedLength = some length ∧
    pipeline.limits.maximumOutputBytes < length

theorem forall₂_iff {α β : Type} {R : α → β → Prop} {p : α → Prop} {q : β → Prop} {as : List α}
    {bs : List β} (h : List.Forall₂ R as bs) (hpq : ∀ a b, R a b → (q b ↔ p a)) :
    (∀ b ∈ bs, q b) ↔ ∀ a ∈ as, p a := by
  induction h with
  | nil => simp
  | cons hab _ ih => rw [forall_mem_cons, forall_mem_cons, hpq _ _ hab, ih]

section Clean

variable {secretSort : SecretSort} {loaded : List Secret} {limits : Limits} {pipeline : Pipeline}
  {boundary : OpenEnum Boundary}

theorem marker_clean_iff {secrets : List Bytes} (hsecrets : ∀ secret ∈ secrets, Eligible secret) :
    (∀ secret ∈ secrets, ¬ secret <:+: marker) ↔ redactedWord ∉ secrets := by
  have hword : redactedWord <:+: marker := ⟨[0x5B], [0x5D], rfl⟩
  constructor
  · exact fun h hmem => h redactedWord hmem hword
  · intro h secret hsecret hwithin
    have heq := Filling.plain.eq_of_within (hsecrets secret hsecret) (by rwa [map_byte_literal])
    exact h (heq ▸ hsecret)

/-- What a part becomes, once serialized, holds no secret exactly when the part is clean. -/
theorem Part.clean_iff (hnew : newPipeline secretSort loaded limits = .ok pipeline)
    (hsecrets : ∀ secret ∈ loadedBytes loaded, Eligible secret ∧ validUTF8 secret = true)
    {part : Part} {string : Bytes} (h : part.Renders pipeline noPatterns boundary string) :
    (∀ secret ∈ loadedBytes loaded, ¬ secret <:+: coerceUTF8 string) ↔
      part.Clean pipeline (loadedBytes loaded) := by
  have heligible : ∀ secret ∈ loadedBytes loaded, Eligible secret := fun s hs => (hsecrets s hs).1
  have hexact : ∀ secret ∈ pipeline.exact, secret ≠ [] ∧ Runes secret := by
    intro secret hsecret
    obtain ⟨hlong, hvalid⟩ := hsecrets secret ((mem_exact_iff hnew).1 hsecret)
    exact ⟨hlong.ne_nil, validUTF8_iff.1 hvalid⟩
  cases part with
  | name key =>
    rw [show string = key from h]
    exact Iff.rfl
  | value text =>
    obtain ⟨redacted, hredact, rfl⟩ := h
    rw [coerceUTF8_of_runes (runes_redact hexact hredact),
      ← Pipeline.map_byte_trace (fun secret hs => (hexact secret hs).1) hredact]
    exact absent_iff text (fun secret hs => heligible secret ((mem_exact_iff hnew).1 hs))
      (mem_exact_iff hnew)
  | hidden =>
    have hmarker : coerceUTF8 marker = marker := coerceUTF8_of_runes (runes_of_ascii (by decide))
    rw [show string = marker from h, hmarker]
    exact marker_clean_iff heligible

/-- **When no secret is in the document.** For secrets of at least eight bytes that are valid UTF-8
without brackets, and without the patterns, no name and no text of the document holds one exactly
when no name that the walk copies does, and no marker, or, where the result is too long, neither
name of the document in its place. -/
theorem redactFields_clean_iff {toLower : Bytes → Bytes} {fields : List (Bytes × Field)}
    {document : Document} {report : Report}
    (hnew : newPipeline secretSort loaded limits = .ok pipeline)
    (hsecrets : ∀ secret ∈ loadedBytes loaded, Eligible secret ∧ validUTF8 secret = true)
    (h : redactFields pipeline noPatterns toLower boundary fields = .ok (document, report)) :
    (∀ string ∈ document.value.strings, ∀ secret ∈ loadedBytes loaded, ¬ secret <:+: string) ↔
      (Oversized pipeline toLower boundary fields → ∀ secret ∈ loadedBytes loaded,
        ¬ secret <:+: bytes "redacted" ∧ ¬ secret <:+: bytes "truncated") ∧
      (¬ Oversized pipeline toLower boundary fields →
        ∀ part ∈ (Field.object fields).parts toLower,
          part.Clean pipeline (loadedBytes loaded)) := by
  simp only [redactFields, marshal, run_ok_iff, Prod.exists] at h
  obtain ⟨_, -, json, walked, hwalk, serialized, hserialized, h⟩ := h
  cases hlength : json.encodedLength with
  | none =>
    rw [hlength] at hserialized
    cases hserialized
  | some length =>
    simp only [hlength, Except.ok.injEq] at hserialized
    subst hserialized
    have hsize : Oversized pipeline toLower boundary fields ↔
        pipeline.limits.maximumOutputBytes < length := by
      constructor
      · rintro ⟨json', _, length', hwalk', hlength', hlong⟩
        rw [hwalk, Except.ok.injEq, Prod.mk.injEq] at hwalk'
        rw [← hwalk'.1, hlength, Option.some.injEq] at hlength'
        exact hlength' ▸ hlong
      · exact fun hlong => ⟨json, walked, length, hwalk, hlength, hlong⟩
    split_ifs at h with hlong
    · rw [pure_ok_iff, Prod.mk.injEq] at h
      have hstrings : document.value.strings = [bytes "redacted", bytes "truncated"] := by
        rw [← h.1]
        rfl
      rw [hstrings, forall_mem_cons, forall_mem_singleton, hsize, imp_iff_right hlong,
        forall₂_and, and_iff_left fun hshort => absurd hlong hshort]
    · rw [pure_ok_iff, Prod.mk.injEq] at h
      have hparts := strings_redactStructured _ hwalk
      rw [← h.1, Json.strings_decoded, forall_mem_map, hsize]
      have hall := forall₂_iff hparts fun part string => Part.clean_iff hnew hsecrets
      rw [hall, imp_iff_right hlong, and_iff_right fun hover => absurd hover hlong]

end Clean

/-- A text under a plain name is redacted. -/
theorem plainName_clean :
    ∃ document report, redactFields samplePipeline noPatterns id Boundary.logPersistence
      [([0x78], .text sampleSecret.value)] = .ok (document, report) ∧
      ∀ string ∈ document.value.strings, ∀ secret ∈ loadedBytes [sampleSecret],
        ¬ secret <:+: string := by
  have hok : (fun _ => ()) <$> redactFields samplePipeline noPatterns id Boundary.logPersistence
      [([0x78], .text sampleSecret.value)] = .ok () := by
    decide +kernel
  obtain ⟨⟨document, report⟩, hfields, -⟩ := map_ok_iff.1 hok
  have hsecrets : ∀ secret ∈ loadedBytes [sampleSecret], Eligible secret ∧
      validUTF8 secret = true := by
    intro secret hsecret
    refine ⟨sampleSecret_eligible secret hsecret, ?_⟩
    rw [mem_singleton.1 hsecret]
    decide
  refine ⟨document, report, hfields,
    (redactFields_clean_iff newPipeline_sample hsecrets hfields).2 ⟨fun _ => ?_, fun _ => ?_⟩⟩
  · decide +kernel
  · have hname : sensitiveFieldName id [0x78] = false := by decide +kernel
    simp only [Field.parts, memberParts, hname, Bool.false_eq_true, if_false,
      append_nil, forall_mem_cons]
    refine ⟨?_, ⟨?_, ?_⟩, nofun⟩
    · show ∀ secret ∈ loadedBytes [sampleSecret], ¬ secret <:+: coerceUTF8 [0x78]
      decide
    · exact fun hlong => absurd hlong (by decide)
    · exact fun hword => absurd hword (by decide)

/-- **A name that holds a secret is copied.** -/
theorem secretName_exposed :
    newPipeline byLength [sampleSecret] ⟨4096, 4096⟩ = .ok samplePipeline ∧
      ∃ document report, redactFields samplePipeline noPatterns id Boundary.logPersistence
        [(sampleSecret.value, .scalar ⟨some (bytes "null")⟩)] = .ok (document, report) ∧
        sampleSecret.value ∈ document.value.strings := by
  have hok : (fun result => decide (sampleSecret.value ∈ result.1.value.strings)) <$>
      redactFields samplePipeline noPatterns id Boundary.logPersistence
        [(sampleSecret.value, .scalar ⟨some (bytes "null")⟩)] = .ok true := by
    decide +kernel
  obtain ⟨⟨document, report⟩, hfields, hmem⟩ := map_ok_iff.1 hok
  exact ⟨rfl, document, report, hfields, of_decide_eq_true hmem⟩

end Codeflux.Redact
