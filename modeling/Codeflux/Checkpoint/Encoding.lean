import Codeflux.Checkpoint.Schema
import Mathlib.Algebra.Order.BigOperators.Group.List

/-!
# What survives the encoding of a checkpoint

The checks and the sort of `Canonicalize` look at bytes, while the JSON encoding is text: it
replaces each byte that is part of no rune. Paths, step identifiers, the policy version and the
names of a provider may all have such bytes.
-/

namespace Codeflux.Checkpoint

open Library Go Domain List

/-! ### The snapshot as it is encoded -/

/-- A file, as encoded. -/
def DirtyFileHash.coerced (value : DirtyFileHash) : DirtyFileHash :=
  { value with path := coerceUTF8 value.path, sha256 := coerceUTF8 value.sha256 }

/-- A step, as encoded. -/
def PlanStepSnapshot.coerced (value : PlanStepSnapshot) : PlanStepSnapshot :=
  { value with id := coerceUTF8 value.id }

/-- An action, as encoded. -/
def AmbiguousExternalAction.coerced (value : AmbiguousExternalAction) :
    AmbiguousExternalAction where
  actionID := coerceUTF8 value.actionID
  kind := coerceUTF8 value.kind
  intentSHA256 := coerceUTF8 value.intentSHA256
  toolRequestID := coerceUTF8 value.toolRequestID

/-- A policy, as encoded. -/
def PolicyBinding.coerced (value : PolicyBinding) : PolicyBinding :=
  { value with
    version := coerceUTF8 value.version
    contentSHA256 := coerceUTF8 value.contentSHA256 }

/-- A tool binding, as encoded. -/
def ToolBinding.coerced (value : ToolBinding) : ToolBinding :=
  { value with catalogSHA256 := coerceUTF8 value.catalogSHA256 }

/-- A provider, as encoded. -/
def ProviderBinding.coerced (value : ProviderBinding) : ProviderBinding where
  settingsRevision := value.settingsRevision
  runConfigurationSHA256 := coerceUTF8 value.runConfigurationSHA256
  adapter := coerceUTF8 value.adapter
  adapterVersion := coerceUTF8 value.adapterVersion
  provider := coerceUTF8 value.provider
  providerVersion := coerceUTF8 value.providerVersion
  model := coerceUTF8 value.model
  modelRevision := coerceUTF8 value.modelRevision

/-- The snapshot with every text as the encoding has it. -/
def Snapshot.coerced (value : Snapshot) : Snapshot :=
  { value with
    baseRevision := coerceUTF8 value.baseRevision
    worktreeHead := coerceUTF8 value.worktreeHead
    preservedRevision := coerceUTF8 value.preservedRevision
    dirtyFiles := value.dirtyFiles.map (·.coerced)
    diffSHA256 := coerceUTF8 value.diffSHA256
    completedPlanSteps := value.completedPlanSteps.map (·.coerced)
    pendingPlanSteps := value.pendingPlanSteps.map (·.coerced)
    policy := value.policy.coerced
    provider := value.provider.coerced
    tools := value.tools.coerced
    ambiguousExternalActions := value.ambiguousExternalActions.map (·.coerced) }

/-- What the host's documentation promises of the hash and of the encoding. -/
structure Host.Documented (host : Host) : Prop where
  validSHA256_digest : ∀ content, validSHA256 (host.digest content) = true
  jsonValid_marshal : ∀ {value encoded}, host.marshal value = .ok encoded →
    host.jsonValid encoded = true
  version_marshal : ∀ {value encoded}, host.marshal value = .ok encoded →
    host.unmarshalVersion encoded = some value.schemaVersion
  unmarshal_marshal : ∀ {value encoded}, host.marshal value = .ok encoded →
    host.unmarshal encoded = some value.coerced

/-- The texts that the checks leave free are valid UTF-8. -/
structure Snapshot.ValidTexts (value : Snapshot) : Prop where
  paths : ∀ file ∈ value.dirtyFiles, validUTF8 file.path = true
  completed : ∀ step ∈ value.completedPlanSteps, validUTF8 step.id = true
  pending : ∀ step ∈ value.pendingPlanSteps, validUTF8 step.id = true
  policy : validUTF8 value.policy.version = true
  provider : ∀ field ∈ value.provider.fields, validUTF8 field = true

/-- The same snapshot with its four lists in another order. -/
structure Snapshot.Reordered (value other : Snapshot) : Prop where
  rest : other = { value with
    dirtyFiles := other.dirtyFiles
    completedPlanSteps := other.completedPlanSteps
    pendingPlanSteps := other.pendingPlanSteps
    ambiguousExternalActions := other.ambiguousExternalActions }
  dirtyFiles : value.dirtyFiles.Perm other.dirtyFiles
  completedPlanSteps : value.completedPlanSteps.Perm other.completedPlanSteps
  pendingPlanSteps : value.pendingPlanSteps.Perm other.pendingPlanSteps
  ambiguousExternalActions :
    value.ambiguousExternalActions.Perm other.ambiguousExternalActions

/-- **A faithful encoding** of a set of snapshots: each canonical state is decoded to the same
normalized snapshot, snapshots that differ after normalization have different encodings, and the
order of the lists does not change the encoding. -/
structure Faithful (host : Host) (values : Set Snapshot) : Prop where
  decoded : ∀ value ∈ values, ∀ state, canonicalize host value = .ok state →
    ∃ state', decodeCanonicalState host state.json state.stateSHA256 = .ok state' ∧
      state'.snapshot = state.snapshot
  distinct : ∀ value ∈ values, ∀ value' ∈ values, ∀ state state',
    canonicalize host value = .ok state → canonicalize host value' = .ok state' →
    value.normalized ≠ value'.normalized → state.json ≠ state'.json
  unordered : ∀ value ∈ values, ∀ other, value.Reordered other → ∀ state,
    canonicalize host value = .ok state →
    ∃ state', canonicalize host other = .ok state' ∧ state'.json = state.json

/-! ### Texts of ASCII characters -/

section Ascii

variable {value : Bytes}

theorem validUTF8_of_all {p : Char → Bool}
    (hp : ∀ n : Fin 256, p (Char.ofNat n) = true → n.1 ≤ 0x7F)
    (h : value.all (byteIs p) = true) : validUTF8 value = true := by
  refine validUTF8_iff.2 (runes_of_ascii (all_eq_true.2 fun b hb => ?_))
  have hb := hp ⟨b.toNat, b.toNat_lt⟩ (all_eq_true.1 h b hb)
  exact decide_eq_true (UInt8.le_iff_toNat_le.2 hb)

theorem validUTF8_of_lowerHex (h : lowerHex value = true) : validUTF8 value = true :=
  validUTF8_of_all (by decide +kernel) h

theorem coerceUTF8_of_validSHA256 (h : validSHA256 value = true) : coerceUTF8 value = value := by
  rw [validSHA256, Bool.and_eq_true] at h
  exact coerceUTF8_eq_self_iff.2 (validUTF8_of_lowerHex h.2)

theorem coerceUTF8_of_validGitObjectID (h : validGitObjectID value = true) :
    coerceUTF8 value = value := by
  simp only [validGitObjectID, Bool.or_eq_true, Bool.and_eq_true] at h
  exact coerceUTF8_eq_self_iff.2 (validUTF8_of_lowerHex (h.elim And.right And.right))

theorem coerceUTF8_of_boundedIdentifier {maximum : Nat}
    (h : boundedIdentifier value maximum = true) :
    coerceUTF8 value = value := by
  rw [boundedIdentifier, Bool.and_eq_true] at h
  exact coerceUTF8_eq_self_iff.2 (validUTF8_of_all (by decide +kernel) h.2)

end Ascii

/-! ### Accepted snapshots with valid texts -/

section Coerced

variable {value : Snapshot}

theorem DirtyFileHash.Valid.coerced_eq {file : DirtyFileHash} (h : file.Valid)
    (hpath : validUTF8 file.path = true) : file.coerced = file := by
  have hsha : coerceUTF8 file.sha256 = file.sha256 := by
    cases hexists : file.fileExists with
    | true => exact coerceUTF8_of_validSHA256 (h.hash hexists)
    | false =>
      rw [h.deleted hexists]
      rfl
  rw [coerced, coerceUTF8_eq_self_iff.2 hpath, hsha]

theorem PlanStepSnapshot.coerced_eq {step : PlanStepSnapshot} (h : validUTF8 step.id = true) :
    step.coerced = step := by
  rw [coerced, coerceUTF8_eq_self_iff.2 h]

theorem AmbiguousExternalAction.Valid.coerced_eq {action : AmbiguousExternalAction}
    (h : action.Valid) : action.coerced = action := by
  have hrequest : coerceUTF8 action.toolRequestID = action.toolRequestID := by
    by_cases hnone : action.toolRequestID = []
    · rw [hnone]
      rfl
    · exact coerceUTF8_of_boundedIdentifier (h.request hnone)
  rw [coerced, coerceUTF8_of_boundedIdentifier h.actionID, coerceUTF8_of_boundedIdentifier h.kind,
    coerceUTF8_of_validSHA256 h.intent, hrequest]

theorem map_coerced_eq {α : Type} {f : α → α} {values : List α} (h : ∀ a ∈ values, f a = a) :
    values.map f = values :=
  (map_congr_left h).trans (map_id' values)

/-- An accepted snapshot whose free texts are valid is encoded as it is. -/
theorem coerced_eq_self (h : value.Valid) (htexts : value.ValidTexts) : value.coerced = value := by
  have hpolicy : value.policy.coerced = value.policy := by
    rw [PolicyBinding.coerced, coerceUTF8_eq_self_iff.2 htexts.policy,
      coerceUTF8_of_validSHA256 h.policy.2.2]
  have htools : value.tools.coerced = value.tools := by
    rw [ToolBinding.coerced, coerceUTF8_of_validSHA256 h.tools.2]
  have hprovider : value.provider.coerced = value.provider := by
    have hfields := htexts.provider
    simp only [ProviderBinding.fields, forall_mem_cons, ← coerceUTF8_eq_self_iff] at hfields
    obtain ⟨h1, h2, h3, h4, h5, h6, -⟩ := hfields
    rw [ProviderBinding.coerced, h1, h2, h3, h4, h5, h6,
      coerceUTF8_of_validSHA256 h.configuration.2]
  have hfiles := map_coerced_eq fun file hfile =>
    (h.files.valid file hfile).coerced_eq (htexts.paths file hfile)
  have hcompleted := map_coerced_eq fun step hstep =>
    PlanStepSnapshot.coerced_eq (htexts.completed step hstep)
  have hpending := map_coerced_eq fun step hstep =>
    PlanStepSnapshot.coerced_eq (htexts.pending step hstep)
  have hactions := map_coerced_eq fun action haction => (h.actions.valid action haction).coerced_eq
  rw [Snapshot.coerced, coerceUTF8_of_validGitObjectID h.base,
    coerceUTF8_of_validGitObjectID h.head, coerceUTF8_of_validGitObjectID h.preserved,
    coerceUTF8_of_validSHA256 h.diff, hpolicy, htools, hprovider, hfiles, hcompleted, hpending,
    hactions]

end Coerced

section Normalized

variable {value other : Snapshot}

theorem validTexts_normalized_iff : value.normalized.ValidTexts ↔ value.ValidTexts := by
  constructor
  · intro h
    exact ⟨fun file hfile => h.paths file ((mem_sortOn _).2 hfile),
      fun step hstep => h.completed step ((mem_sortOn _).2 hstep),
      fun step hstep => h.pending step ((mem_sortOn _).2 hstep), h.policy, h.provider⟩
  · intro h
    exact ⟨fun file hfile => h.paths file ((mem_sortOn _).1 hfile),
      fun step hstep => h.completed step ((mem_sortOn _).1 hstep),
      fun step hstep => h.pending step ((mem_sortOn _).1 hstep), h.policy, h.provider⟩

/-- Accepted lists have distinct keys, so that their order is lost in the sort. -/
theorem Snapshot.Reordered.normalized_eq (h : value.Reordered other) (hvalid : value.Valid) :
    other.normalized = value.normalized := by
  have hdistinct := hvalid.steps.distinct
  rw [map_append] at hdistinct
  have hfiles := sortOn_eq_of_perm _ (nodup_latin_iff.2 hvalid.files.distinct) h.dirtyFiles
  have hcompleted := sortOn_eq_of_perm _
    (nodup_latin_iff.2 (List.Nodup.of_append_left hdistinct)) h.completedPlanSteps
  have hpending := sortOn_eq_of_perm _
    (nodup_latin_iff.2 (List.Nodup.of_append_right hdistinct)) h.pendingPlanSteps
  have hactions := sortOn_eq_of_perm _ (nodup_latin_iff.2 hvalid.actions.distinct)
    h.ambiguousExternalActions
  rw [h.rest]
  simp [Snapshot.normalized, hfiles, hcompleted, hpending, hactions]

/-- When texts are a reordering of what the encoding makes of them, it leaves them as they are: each
replacement makes a text longer. -/
theorem validUTF8_of_perm {texts : List Bytes} (h : (texts.map coerceUTF8).Perm texts) :
    ∀ text ∈ texts, validUTF8 text = true := by
  intro text htext
  by_contra hinvalid
  have hlonger : (texts.map List.length).sum < (texts.map fun t => (coerceUTF8 t).length).sum :=
    sum_lt_sum _ _ (fun t _ => length_le_coerceUTF8 t)
      ⟨text, htext, ((coerceFrom_spec 0 text).resolve_left fun h => hinvalid h.1).2⟩
  have hsame := (h.map List.length).sum_eq
  rw [map_map] at hsame
  exact absurd hsame (Nat.ne_of_gt hlonger)

theorem perm_of_sortOn_eq {α : Type} (key : α → Bytes) {f : α → α} {values : List α}
    (hf : ∀ a, key (f a) = coerceUTF8 (key a))
    (h : sortOn (fun a => latin (key a)) (values.map f) = values) :
    ((values.map key).map coerceUTF8).Perm (values.map key) := by
  have hperm := (sortOn_perm (fun a => latin (key a)) (values.map f)).symm.map key
  rw [h, map_map] at hperm
  rw [map_map]
  refine (List.Perm.of_eq (map_congr_left fun a _ => ?_)).trans hperm
  exact (hf a).symm

/-- A snapshot that is the normalized form of its own encoding has valid texts. -/
theorem validTexts_of_coerced (h : value.coerced.normalized = value) : value.ValidTexts := by
  have hfiles := validUTF8_of_perm (perm_of_sortOn_eq DirtyFileHash.path (fun _ => rfl)
    (congrArg Snapshot.dirtyFiles h))
  have hcompleted := validUTF8_of_perm (perm_of_sortOn_eq PlanStepSnapshot.id (fun _ => rfl)
    (congrArg Snapshot.completedPlanSteps h))
  have hpending := validUTF8_of_perm (perm_of_sortOn_eq PlanStepSnapshot.id (fun _ => rfl)
    (congrArg Snapshot.pendingPlanSteps h))
  have hprovider : value.provider.coerced = value.provider := congrArg Snapshot.provider h
  refine ⟨fun file hfile => hfiles _ (mem_map_of_mem hfile),
    fun step hstep => hcompleted _ (mem_map_of_mem hstep),
    fun step hstep => hpending _ (mem_map_of_mem hstep),
    coerceUTF8_eq_self_iff.1 (congrArg (·.policy.version) h), ?_⟩
  simp only [ProviderBinding.fields, forall_mem_cons, ← coerceUTF8_eq_self_iff]
  exact ⟨congrArg (·.adapter) hprovider, congrArg (·.adapterVersion) hprovider,
    congrArg (·.provider) hprovider, congrArg (·.providerVersion) hprovider,
    congrArg (·.model) hprovider, congrArg (·.modelRevision) hprovider, by simp⟩

end Normalized

/-! ### Reading a canonical state back -/

section Decode

variable {host : Host} {value : Snapshot} {state state' : CanonicalState}

/-- A canonical state is decoded to what its encoded snapshot canonicalizes to, if that has the same
encoding. -/
theorem decodeCanonicalState_ok_iff (hhost : host.Documented)
    (h : canonicalize host value = .ok state) :
    decodeCanonicalState host state.json state.stateSHA256 = .ok state' ↔
      canonicalize host value.normalized.coerced = .ok state' ∧ state'.json = state.json := by
  obtain ⟨hvalid, encoded, hmarshal, rfl⟩ := canonicalize_ok_iff.1 h
  have hversion : value.normalized.schemaVersion = schemaVersion := hvalid.version
  simp only [decodeCanonicalState, run_ok_iff, exists_const, hhost.validSHA256_digest,
    hhost.jsonValid_marshal hmarshal, hhost.version_marshal hmarshal,
    hhost.unmarshal_marshal hmarshal, Option.elim_some, Except.ok.injEq, exists_eq_left', hversion,
    true_and, and_self]
  constructor
  · rintro ⟨decoded, hdecoded, hsame, rfl⟩
    exact ⟨hdecoded, hsame.1⟩
  · rintro ⟨hdecoded, hsame⟩
    obtain ⟨-, encoded', -, rfl⟩ := canonicalize_ok_iff.1 hdecoded
    obtain rfl : encoded' = encoded := hsame
    exact ⟨_, hdecoded, ⟨rfl, rfl⟩, rfl⟩

/-- A canonical state is read back exactly when the texts of its snapshot are valid. -/
theorem decodes_iff (hhost : host.Documented) (h : canonicalize host value = .ok state) :
    (∃ state', decodeCanonicalState host state.json state.stateSHA256 = .ok state' ∧
      state'.snapshot = state.snapshot) ↔ value.ValidTexts := by
  obtain ⟨hvalid, encoded, hmarshal, hstate⟩ := canonicalize_ok_iff.1 h
  simp only [decodeCanonicalState_ok_iff hhost h]
  constructor
  · rintro ⟨state', ⟨hdecoded, -⟩, hsnapshot⟩
    obtain ⟨-, encoded', -, rfl⟩ := canonicalize_ok_iff.1 hdecoded
    rw [← hstate] at hsnapshot
    exact validTexts_normalized_iff.1 (validTexts_of_coerced hsnapshot)
  · intro htexts
    have hself := coerced_eq_self hvalid.normalized (validTexts_normalized_iff.2 htexts)
    refine ⟨state, ⟨?_, rfl⟩, rfl⟩
    rw [hself, canonicalize_ok_iff, normalized_normalized]
    exact ⟨hvalid.normalized, encoded, hmarshal, hstate⟩

/-- Snapshots with valid texts and one encoding have one normalized form. -/
theorem normalized_eq_of_json {value' : Snapshot} (hhost : host.Documented)
    (h : canonicalize host value = .ok state) (h' : canonicalize host value' = .ok state')
    (htexts : value.ValidTexts) (htexts' : value'.ValidTexts) (hjson : state.json = state'.json) :
    value.normalized = value'.normalized := by
  obtain ⟨hvalid, encoded, hmarshal, rfl⟩ := canonicalize_ok_iff.1 h
  obtain ⟨hvalid', encoded', hmarshal', rfl⟩ := canonicalize_ok_iff.1 h'
  obtain rfl : encoded = encoded' := hjson
  have hcoerced : value.normalized.coerced = value'.normalized.coerced :=
    Option.some.inj ((hhost.unmarshal_marshal hmarshal).symm.trans
      (hhost.unmarshal_marshal hmarshal'))
  rwa [coerced_eq_self hvalid.normalized (validTexts_normalized_iff.2 htexts),
    coerced_eq_self hvalid'.normalized (validTexts_normalized_iff.2 htexts')] at hcoerced

/-- **When checkpoint state survives encoding.** For any set of snapshots that `Canonicalize`
accepts: every canonical state is read back, different snapshots have different encodings and the
order of the lists does not matter, exactly when the paths, step identifiers, policy versions and
provider names of all of them are valid UTF-8. -/
theorem faithful_iff_validTexts (hhost : host.Documented) (values : Set Snapshot)
    (haccepted : ∀ value ∈ values, ∃ state, canonicalize host value = .ok state) :
    Faithful host values ↔ ∀ value ∈ values, value.ValidTexts := by
  constructor
  · intro hfaithful value hvalue
    obtain ⟨state, h⟩ := haccepted value hvalue
    exact (decodes_iff hhost h).1 (hfaithful.decoded value hvalue state h)
  · intro htexts
    refine ⟨fun value hvalue state h => (decodes_iff hhost h).2 (htexts value hvalue), ?_, ?_⟩
    · intro value hvalue value' hvalue' state state' h h' hne hjson
      exact hne (normalized_eq_of_json hhost h h' (htexts value hvalue) (htexts value' hvalue')
        hjson)
    · intro value _ other hreordered state h
      have hnormalized := hreordered.normalized_eq (canonicalize_ok_iff.1 h).1
      refine ⟨state, ?_, rfl⟩
      rw [← h, canonicalize, canonicalize, hnormalized]

end Decode

/-- A deleted file with the given name. -/
def sampleDeleted (name : Bytes) : Snapshot := sampleSnapshot [⟨name, false, []⟩]

/-- A host that can encode one snapshot, and the snapshots with invalid texts that are read back as
that one. -/
def soleHost (sole : Snapshot) : Host where
  digest _ := zeroSHA256
  jsonValid _ := true
  marshal value :=
    if value.coerced = sole then .ok value.encoded else .error (.new "unsupported value")
  unmarshalVersion _ := some sole.schemaVersion
  unmarshal _ := some sole

theorem soleHost_marshal {sole value : Snapshot} {encoded : Bytes}
    (h : (soleHost sole).marshal value = .ok encoded) : value.coerced = sole := by
  simp only [soleHost] at h
  split at h
  · assumption
  · cases h

theorem soleHost_documented (sole : Snapshot) : (soleHost sole).Documented where
  validSHA256_digest _ := show validSHA256 zeroSHA256 = true by decide
  jsonValid_marshal _ := rfl
  version_marshal h := by
    rw [show (soleHost sole).unmarshalVersion _ = some sole.schemaVersion from rfl,
      ← soleHost_marshal h]
    rfl
  unmarshal_marshal h := congrArg some (soleHost_marshal h).symm

/-- A file whose name is one letter and the replacement rune. -/
def replacedName : Bytes := 0x61 :: replacementRune

/-- A host for that file. -/
def replacedHost : Host := soleHost (sampleDeleted replacedName)

theorem faithful_on_replacedName : Faithful replacedHost {sampleDeleted replacedName} := by
  have haccepted : ((canonicalize replacedHost (sampleDeleted replacedName)).isOk &&
      validUTF8 replacedName && validUTF8 (bytes "step-1") && validUTF8 (bytes "v1") &&
      (sampleDeleted replacedName).provider.fields.all validUTF8) = true := by
    decide +kernel
  simp only [Bool.and_eq_true] at haccepted
  obtain ⟨⟨⟨⟨hok, hname⟩, hstep⟩, hversion⟩, hprovider⟩ := haccepted
  have hhost : replacedHost.Documented := soleHost_documented _
  refine (faithful_iff_validTexts hhost _ ?_).2 ?_
  · rintro _ rfl
    cases hstate : canonicalize replacedHost (sampleDeleted replacedName) with
    | ok state => exact ⟨state, rfl⟩
    | error failure =>
      rw [hstate] at hok
      cases hok
  · rintro _ rfl
    refine ⟨?_, ?_, ?_, hversion, all_eq_true.1 hprovider⟩
    · simpa [sampleDeleted, sampleSnapshot] using hname
    · simp [sampleDeleted, sampleSnapshot]
    · simpa [sampleDeleted, sampleSnapshot] using hstep

/-- Two files whose names end in a byte that is part of no rune are accepted and have one encoding,
and the canonical state of the first is not read back. -/
theorem invalid_name_not_decoded :
    canonicalize replacedHost (sampleDeleted [0x61, 0xFF]) =
      .ok ⟨sampleDeleted [0x61, 0xFF], (sampleDeleted [0x61, 0xFF]).encoded, zeroSHA256⟩ ∧
    canonicalize replacedHost (sampleDeleted [0x61, 0xFE]) =
      .ok ⟨sampleDeleted [0x61, 0xFE], (sampleDeleted [0x61, 0xFF]).encoded, zeroSHA256⟩ ∧
    decodeCanonicalState replacedHost (sampleDeleted [0x61, 0xFF]).encoded zeroSHA256 =
      .error (.new "checkpoint canonical state or hash is inconsistent") ∧
    ¬Faithful replacedHost {sampleDeleted [0x61, 0xFF], sampleDeleted [0x61, 0xFE]} := by
  rw [← and_assoc, ← and_assoc]
  refine (and_iff_left_of_imp fun ⟨⟨hfirst, _⟩, hdecode⟩ hfaithful => ?_).2 (by decide +kernel)
  obtain ⟨state', hstate', -⟩ := hfaithful.decoded _ (Set.mem_insert _ _) _ hfirst
  rw [hdecode] at hstate'
  cases hstate'

end Codeflux.Checkpoint
