import Codeflux.Executor.ActionIdentity

/-!
# The digest of a repair validation profile

The validation floor of a repair loop is an ordered profile of commands, and a completion is bound
to its digest. A digest is made of fields, each written after a zero character. Where the relevant
files of a command end and its plan steps begin is not written.
-/

namespace Codeflux.Executor

open Library Go Domain

/-- What a validation plan says of a request. Identities and the physical directory are left out. -/
structure CanonicalValidationPlanCommand where
  schemaVersion : Int
  tool : OpenEnum ToolName
  arguments : List (String × String)
  workingDirectoryScope : String
  timeoutNanoseconds : Int
  authority : OpenEnum AuthorityClass
  effects : List (OpenEnum SideEffect)
deriving DecidableEq

/-- `json.Marshal` of plan commands. JSON texts have no zero character, which a string holds as an
escape. -/
structure PlanCommandJSON where
  marshal : CanonicalValidationPlanCommand → Result String
  zeroChar_not_mem {command text} : marshal command = .ok text → zeroChar ∉ text.toList

/-- The projection that is encoded. -/
def canonicalValidationPlanCommand (host : Host) (request : ToolRequest) :
    CanonicalValidationPlanCommand where
  schemaVersion := request.schemaVersion
  tool := request.name
  arguments := request.arguments.map fun argument => (argument.name, argument.value)
  workingDirectoryScope := "task-worktree"
  timeoutNanoseconds := request.timeout
  authority := requiredAuthority host request
  effects := request.expectedSideEffects

/-- The text of the plan command of a request. -/
def renderValidationPlanCommand (host : Host) (json : PlanCommandJSON) (request : ToolRequest) :
    Result String := do
  ensure (request.schemaVersion = toolSchemaVersion ∧ validToolName request.name ∧
    10 ^ 9 ≤ request.timeout ∧ request.timeout ≤ 30 * 60 * 10 ^ 9 ∧
    request.claimedAuthority.isValid ∧ request.expectedSideEffects ≠ [] ∧
    request.expectedSideEffects.length ≤ 16)
    (.new "validation plan command semantics are invalid")
  request.arguments.forM fun argument =>
    ensure (BoundedText argument.name 255 ∧ byteLength argument.value ≤ 32 * 2 ^ 10 ∧
      argument.sensitive = false)
      (.new "validation plan command argument is invalid or sensitive")
  request.expectedSideEffects.forM fun effect =>
    ensure effect.isValid (.new "validation plan command effect is invalid")
  let encoded ← (json.marshal (canonicalValidationPlanCommand host request)).mapError
    (.wrap "encode validation plan command")
  ensure (byteLength encoded ≤ 4096) (.new "validation plan command exceeds its bound")
  return encoded

end Codeflux.Executor

namespace Codeflux.Agent

open Library Go Domain Executor

/-- The sentinel of every check here. -/
def errInvalidValidationProfile : Failure := .new "invalid selected validation profile"

/-- One command of a validation profile. -/
structure ValidationCommand where
  id : String
  (required acceptanceTest : Bool)
  planCommand : String
  request : ToolRequest
  (relevantChangedFiles planStepIDs : List String)

/-- The ordered validation floor of one plan. -/
structure ValidationProfile where
  (name version : String)
  commands : List ValidationCommand

/-! ### Checks and digests -/

/-- A text that is not empty, has no space at its ends and fits `maximum` bytes. -/
def boundedTrimmed (value : String) (maximum : Nat) : Bool :=
  value != "" && trimSpace value == value && byteLength value ≤ maximum

/-- The cleaned path, of one that stays below the directory. -/
def canonicalRelativePath (path : String) : Option String :=
  let normalized := clean path
  if boundedTrimmed path 4096 &&
      path.toList.all (fun c => c != '\\' && c != ':' && 0x20 ≤ c.toNat && c.toNat != 0x7F) &&
      !isAbs path && normalized != "." && normalized != ".." && !hasPrefix normalized "../" then
    some normalized
  else none

/-- Canonical paths, each after the one before it. -/
def canonicalUniquePaths (paths : List String) (count : Nat) : Bool :=
  paths.length ≤ count && paths.all (fun path => canonicalRelativePath path == some path) &&
    (paths.zip paths.tail).all fun pair => decide (pair.1 < pair.2)

/-- At most `count` bounded texts, no two of them equal. -/
def boundedUniqueStrings (values : List String) (count maximum : Nat) : Bool :=
  values.length ≤ count && values.all (boundedTrimmed · maximum) && decide values.Nodup

/-- What is hashed of a sequence of fields: `writeHashField` for each of them. -/
def hashed (fields : List String) : String :=
  String.ofList ((fields.map String.toList).flatMap (zeroChar :: ·))

/-- The only accepted plan command of a request. -/
def renderValidationPlanCommand (host : Host) (json : PlanCommandJSON) (request : ToolRequest) :
    Result String := do
  (validateToolRequest request).mapError (.classified errInvalidValidationProfile)
  let value ← (Executor.renderValidationPlanCommand host json request).mapError
    (.classified errInvalidValidationProfile)
  ensure (boundedTrimmed value 4096) (.detail errInvalidValidationProfile
    "derived validation plan command exceeds its bound")
  return value

namespace ValidationCommand

/-- The checks of a command. Its plan command is the one derived from its request. -/
def validate (host : Host) (json : PlanCommandJSON) (command : ValidationCommand) :
    Result Unit := do
  ensure (boundedTrimmed command.id 255 && boundedTrimmed command.planCommand 4096 &&
    canonicalUniquePaths command.relevantChangedFiles 128 &&
    boundedUniqueStrings command.planStepIDs 64 255 && command.planStepIDs != [])
    errInvalidValidationProfile
  (validateToolRequest command.request).mapError (.classified errInvalidValidationProfile)
  let derived ← renderValidationPlanCommand host json command.request
  ensure (command.planCommand = derived) (.detail errInvalidValidationProfile
    "validation plan command differs from executable request")

/-- The fields before the two lists. -/
def fixedFields (host : Host) (command : ValidationCommand) : List String :=
  [command.id, toString command.required ++ ":" ++ toString command.acceptanceTest,
    command.planCommand, actionSHA256 host command.request]

/-- The digest of a command that passes the checks. -/
def digest (host : Host) (command : ValidationCommand) : String :=
  host.sha256 (hashed (command.fixedFields host ++
    (command.relevantChangedFiles ++ command.planStepIDs)))

end ValidationCommand

namespace ValidationProfile

/-- The check of the name, the version and the number of commands. -/
def checkIdentity (profile : ValidationProfile) (failure : Failure) : Result Unit :=
  ensure (boundedTrimmed profile.name 255 && boundedTrimmed profile.version 255 &&
    0 < profile.commands.length && profile.commands.length ≤ 64) failure

/-- The check of one command of a profile, after commands with the given identities. -/
def validateCommand (host : Host) (json : PlanCommandJSON) (taskID : TaskID)
    (runID : RunID) (seen : List String) (command : ValidationCommand) : Result (List String) := do
  let quoted := host.quote (bytes command.id)
  (command.validate host json).mapError fun _ =>
    .detail errInvalidValidationProfile "validation command identity is invalid"
  ensure (command.id ∉ seen) (.detail errInvalidValidationProfile
    ("duplicate validation command " ++ quoted))
  ensure (command.acceptanceTest → command.required) (.detail errInvalidValidationProfile
    ("acceptance test " ++ quoted ++ " must be required"))
  ensure (command.request.taskID = taskID ∧ command.request.runID = runID)
    (.detail errInvalidValidationProfile
      ("command " ++ quoted ++ " belongs to another task or run"))
  ensure (command.request.name ∈ [ToolName.runCommand, .test, .build, .staticAnalysis].map
    OpenEnum.declared) (.detail errInvalidValidationProfile
      ("command " ++ quoted ++ " is not a validation tool"))
  return seen ++ [command.id]

/-- The checks of a profile that is selected for a run. -/
def validate (host : Host) (json : PlanCommandJSON) (taskID : TaskID)
    (runID : RunID) (profile : ValidationProfile) : Result Unit := do
  ensure (taskID.isZero = false ∧ runID.isZero = false)
    (.detail errInvalidValidationProfile "task and run are required")
  profile.checkIdentity
    (.detail errInvalidValidationProfile "profile identity or command count is invalid")
  let _ ← profile.commands.foldlM (validateCommand host json taskID runID) []
  ensure (profile.commands.any (·.required))
    (.detail errInvalidValidationProfile "at least one required validation is needed")

/-- What is hashed of a profile. -/
def fields (host : Host) (profile : ValidationProfile) : List String :=
  profile.name :: profile.version :: profile.commands.map (·.digest host)

/-- The digest of a profile, whose commands are checked first. -/
def digest (host : Host) (json : PlanCommandJSON) (profile : ValidationProfile) :
    Result String := do
  profile.checkIdentity errInvalidValidationProfile
  profile.commands.forM (·.validate host json)
  return host.sha256 (hashed (profile.fields host))

end ValidationProfile

/-! ### What a digest identifies -/

variable {host : Host} {json : PlanCommandJSON} {left right : ValidationProfile}
  {c d : ValidationCommand}

/-- The data of a command, of the request its action hash. -/
def ValidationCommand.data (host : Host) (c : ValidationCommand) :
    (String × Bool × Bool × String × String) × List String × List String :=
  ((c.id, c.required, c.acceptanceTest, c.planCommand, actionSHA256 host c.request),
    c.relevantChangedFiles, c.planStepIDs)

/-- Two profiles with the same name and version and the same commands in the same order. -/
structure SameProfile (host : Host) (left right : ValidationProfile) : Prop where
  name : left.name = right.name
  version : left.version = right.version
  commands : left.commands.map (·.data host) = right.commands.map (·.data host)

/-- Texts without the character that is written before each of them. -/
def ZeroFree (texts : List String) : Prop := ∀ text ∈ texts, zeroChar ∉ text.toList

instance : DecidablePred ZeroFree :=
  fun texts => inferInstanceAs (Decidable (∀ text ∈ texts, zeroChar ∉ text.toList))

/-- A profile whose own texts hold no zero character. -/
structure ValidationProfile.Plain (profile : ValidationProfile) : Prop where
  names : ZeroFree [profile.name, profile.version]
  commands : ∀ c ∈ profile.commands, ZeroFree (c.id :: c.planStepIDs)

/-- How many files are relevant to a command. -/
def ValidationCommand.fileCount (c : ValidationCommand) : Nat := c.relevantChangedFiles.length

theorem hashed_injOn : Set.InjOn hashed {texts | ZeroFree texts} := by
  intro xs hxs ys hys h
  have hwritten : ∀ texts : List String, hashed texts =
      String.ofList ([zeroChar].intercalate ([] :: texts.map String.toList)) := fun texts => by
    rw [intercalate_cons_eq_flatMap]
    rfl
  have hsegments : ∀ texts, ZeroFree texts →
      segments zeroChar (texts.map String.toList) = texts.map String.toList :=
    fun texts htexts => segments_of_not_mem (List.forall_mem_map.2 htexts)
  rw [hwritten, hwritten, String.ofList_inj, intercalate_eq_iff (by simp) (by simp),
    segments_cons, segments_cons, hsegments xs hxs, hsegments ys hys] at h
  exact List.map_injective_iff.2 (fun _ _ => String.toList_injective) (List.append_cancel_left h)

theorem zeroChar_not_mem_rendered {request : ToolRequest} {text : String}
    (h : renderValidationPlanCommand host json request = .ok text) : zeroChar ∉ text.toList := by
  simp only [renderValidationPlanCommand, Executor.renderValidationPlanCommand, run_ok_iff,
    mapError_ok_iff] at h
  obtain ⟨_, -, _, ⟨_, -, _, -, _, -, encoded, hencoded, _, -, rfl⟩, _, -, rfl⟩ := h
  exact json.zeroChar_not_mem hencoded

theorem zeroFree_of_canonicalUniquePaths {paths : List String} {count : Nat}
    (h : canonicalUniquePaths paths count = true) : ZeroFree paths := by
  intro path hpath hzero
  simp only [canonicalUniquePaths, Bool.and_eq_true, List.all_eq_true, beq_iff_eq] at h
  have hcanonical := h.1.2 path hpath
  rw [canonicalRelativePath, Option.ite_none_right_eq_some] at hcanonical
  simp only [Bool.and_eq_true, List.all_eq_true] at hcanonical
  exact absurd (hcanonical.1.1.1.1.1.2 zeroChar hzero) (by decide)

/-- Every field of a checked command with plain texts is free of zero characters: the plan command
is a JSON text, the action hash is hexadecimal, and the files are canonical paths. -/
theorem zeroFree_fields (hhex : ∀ text, zeroChar ∉ (host.sha256 text).toList)
    (h : c.validate host json = .ok ()) (hplain : ZeroFree (c.id :: c.planStepIDs)) :
    ZeroFree (c.fixedFields host ++ (c.relevantChangedFiles ++ c.planStepIDs)) := by
  simp only [ValidationCommand.validate, run_ok_iff, Bool.and_eq_true] at h
  obtain ⟨_, ⟨⟨⟨-, hfiles⟩, -⟩, -⟩, _, -, derived, hderived, hcommand⟩ := h
  have hplan : zeroChar ∉ c.planCommand.toList :=
    hcommand ▸ zeroChar_not_mem_rendered hderived
  have hflags : zeroChar ∉
      (toString c.required ++ ":" ++ toString c.acceptanceTest).toList := by
    cases c.required <;> cases c.acceptanceTest <;> decide
  have haction : zeroChar ∉ (actionSHA256 host c.request).toList := hhex _
  obtain ⟨hid, hsteps⟩ := List.forall_mem_cons.1 hplain
  refine List.forall_mem_append.2 ⟨?_, List.forall_mem_append.2
    ⟨zeroFree_of_canonicalUniquePaths hfiles, hsteps⟩⟩
  simp only [ValidationCommand.fixedFields, List.forall_mem_cons]
  exact ⟨hid, hflags, hplan, haction, by simp⟩

/-- Commands with one digest have the same data exactly when they have as many files. -/
theorem data_eq_iff (hcollisions : Function.Injective host.sha256)
    (hc : ZeroFree (c.fixedFields host ++ (c.relevantChangedFiles ++ c.planStepIDs)))
    (hd : ZeroFree (d.fixedFields host ++ (d.relevantChangedFiles ++ d.planStepIDs))) :
    c.data host = d.data host ↔
      c.digest host = d.digest host ∧ c.fileCount = d.fileCount := by
  have hflags : c.required = d.required ∧ c.acceptanceTest = d.acceptanceTest ↔
      toString c.required ++ ":" ++ toString c.acceptanceTest =
        toString d.required ++ ":" ++ toString d.acceptanceTest := by
    cases c.required <;> cases d.required <;> cases c.acceptanceTest <;>
      cases d.acceptanceTest <;> decide
  have hdata : c.data host = d.data host ↔ c.fixedFields host = d.fixedFields host ∧
      c.relevantChangedFiles = d.relevantChangedFiles ∧ c.planStepIDs = d.planStepIDs := by
    simp only [ValidationCommand.data, ValidationCommand.fixedFields, Prod.mk.injEq,
      List.cons.injEq, ← hflags, and_assoc, and_true]
  rw [hdata, ValidationCommand.digest, ValidationCommand.digest, hcollisions.eq_iff,
    hashed_injOn.eq_iff hc hd]
  constructor
  · rintro ⟨hfixed, hfiles, hsteps⟩
    exact ⟨by rw [hfixed, hfiles, hsteps], congrArg List.length hfiles⟩
  · rintro ⟨hfields, hcount⟩
    obtain ⟨hfixed, hlists⟩ := List.append_inj hfields rfl
    exact ⟨hfixed, List.append_inj hlists hcount⟩

theorem map_data_eq_iff (hcollisions : Function.Injective host.sha256)
    {cs ds : List ValidationCommand}
    (hcs : ∀ c ∈ cs, ZeroFree (c.fixedFields host ++ (c.relevantChangedFiles ++ c.planStepIDs)))
    (hds : ∀ d ∈ ds, ZeroFree (d.fixedFields host ++ (d.relevantChangedFiles ++ d.planStepIDs))) :
    cs.map (·.data host) = ds.map (·.data host) ↔
      cs.map (·.digest host) = ds.map (·.digest host) ∧
        cs.map (·.fileCount) = ds.map (·.fileCount) := by
  induction cs generalizing ds with
  | nil => cases ds <;> simp
  | cons c cs ih =>
    cases ds with
    | nil => simp
    | cons d ds =>
      rw [List.forall_mem_cons] at hcs hds
      simp only [List.map_cons, List.cons.injEq, data_eq_iff hcollisions hcs.1 hds.1,
        ih hcs.2 hds.2]
      tauto

/-- A run of the tests of every package. -/
def sampleTest : ToolRequest :=
  { sampleWrite with name := ToolName.test, arguments := [⟨"package", "./...", false⟩] }

/-- The plan command of `sampleTest`. -/
def samplePlanCommand : String :=
  "\x7b\"schema_version\":1,\"tool\":\"test\",\"arguments\":[\x7b\"name\":\"package\"," ++
    "\"value\":\"./...\"\x7d],\"working_directory_scope\":\"task-worktree\"," ++
    "\"timeout_nanoseconds\":60000000000,\"authority\":\"privileged\"," ++
    "\"effects\":[\"task-worktree-write\"]\x7d"

set_option maxRecDepth 4000 in
theorem samplePlanCommand_chars :
    ∃ chars, samplePlanCommand = .ofList chars ∧ zeroChar ∉ chars ∧ trimChars chars = chars := by
  have happend (xs ys : List Char) : String.ofList xs ++ String.ofList ys = .ofList (xs ++ ys) :=
    String.ofList_append.symm
  refine ⟨_, (congrArg (· ++ _) ((congrArg (· ++ _) (happend _ _)).trans (happend _ _))).trans
    (happend _ _), ?_, ?_⟩ <;> decide

theorem samplePlanCommand_zeroFree : zeroChar ∉ samplePlanCommand.toList := by
  obtain ⟨chars, hchars, hzero, -⟩ := samplePlanCommand_chars
  rwa [hchars, String.toList_ofList]

theorem samplePlanCommand_bounded :
    byteLength samplePlanCommand ≤ 4096 ∧ boundedTrimmed samplePlanCommand 4096 = true := by
  have hlength : byteLength samplePlanCommand ≤ 4096 := by decide +kernel
  obtain ⟨chars, hchars, -, htrimmed⟩ := samplePlanCommand_chars
  have hsome : (samplePlanCommand != "") = true := by decide
  refine ⟨hlength, ?_⟩
  rw [boundedTrimmed, hsome, trimSpace_eq, hchars, String.toList_ofList, htrimmed, ← hchars]
  simpa using hlength

/-- A hash without collisions: each character is written with a letter before it. -/
def pairedHost : Host :=
  { plainHost with
    sha256 := fun text => String.ofList (text.toList.flatMap fun c =>
      if c = zeroChar then ['0', '0'] else ['1', c]) }

theorem pairedHost_injective : Function.Injective pairedHost.sha256 := by
  intro s t h
  rw [pairedHost, String.ofList_inj] at h
  rw [← String.toList_inj]
  generalize s.toList = xs, t.toList = ys at h
  induction xs generalizing ys with
  | nil =>
    cases ys with
    | nil => rfl
    | cons d ys => simp only [List.flatMap_cons] at h; split_ifs at h <;> simp at h
  | cons c xs ih =>
    cases ys with
    | nil => simp only [List.flatMap_cons] at h; split_ifs at h <;> simp at h
    | cons d ys =>
      simp only [List.flatMap_cons] at h
      split_ifs at h with hc hd hd <;> simp at h
      · rw [hc, hd, ih ys h]
      · rw [h.1, ih ys h.2]

theorem pairedHost_hex (text : String) : zeroChar ∉ (pairedHost.sha256 text).toList := by
  simp only [pairedHost, String.toList_ofList, List.mem_flatMap, not_exists, not_and]
  intro c _
  split_ifs with hc
  · decide
  · simp [Ne.symm hc]
    decide

/-- `json.Marshal` at the plan command of `sampleTest`. -/
def sampleJSON : PlanCommandJSON where
  marshal command :=
    if command = canonicalValidationPlanCommand pairedHost sampleTest then .ok samplePlanCommand
    else .error (.new "unsupported")
  zeroChar_not_mem {command text} h := by
    split_ifs at h
    exact Except.ok.inj h ▸ samplePlanCommand_zeroFree

/-- A required test with the given files and steps. -/
def sampleCommand (files steps : List String) : ValidationCommand :=
  ⟨"unit", true, false, samplePlanCommand, sampleTest, files, steps⟩

/-- The profile of that test. -/
def sampleProfile (files steps : List String) : ValidationProfile :=
  ⟨"repair", "1", [sampleCommand files steps]⟩

theorem sampleTest_valid : validateToolRequest sampleTest = .ok () := by decide

theorem sampleTest_rendered :
    renderValidationPlanCommand pairedHost sampleJSON sampleTest = .ok samplePlanCommand := by
  have hencoded : sampleJSON.marshal (canonicalValidationPlanCommand pairedHost sampleTest) =
      .ok samplePlanCommand := by simp [sampleJSON]
  simp only [renderValidationPlanCommand, Executor.renderValidationPlanCommand, run_ok_iff,
    mapError_ok_iff, forM_ok_iff]
  exact ⟨(), sampleTest_valid, _, ⟨(), by decide, ⟨⟩, by decide, ⟨⟩,
    by decide, _, hencoded, (), samplePlanCommand_bounded.1, rfl⟩, (),
    samplePlanCommand_bounded.2, rfl⟩

variable {files steps : List String}

theorem sampleCommand_validate (files steps : List String)
    (hfiles : canonicalUniquePaths files 128 = true)
    (hsteps : boundedUniqueStrings steps 64 255 = true) (hsome : (steps != []) = true) :
    (sampleCommand files steps).validate pairedHost sampleJSON = .ok () := by
  have hid : boundedTrimmed "unit" 255 = true := by decide
  simp only [ValidationCommand.validate, run_ok_iff, mapError_ok_iff, Bool.and_eq_true]
  exact ⟨(), ⟨⟨⟨⟨hid, samplePlanCommand_bounded.2⟩, hfiles⟩, hsteps⟩, hsome⟩, (), sampleTest_valid,
    _, sampleTest_rendered, rfl⟩

theorem sampleProfile_checkIdentity (failure : Failure) :
    (sampleProfile files steps).checkIdentity failure = .ok () :=
  ensure_of (show (boundedTrimmed "repair" 255 && boundedTrimmed "1" 255 && true && true) = true by
    decide) _

theorem sampleProfile_digest
    (h : (sampleCommand files steps).validate pairedHost sampleJSON = .ok ()) :
    (sampleProfile files steps).digest pairedHost sampleJSON =
      .ok (pairedHost.sha256 (hashed ((sampleProfile files steps).fields pairedHost))) := by
  simp only [ValidationProfile.digest, run_ok_iff, forM_ok_iff]
  exact ⟨(), sampleProfile_checkIdentity _, ⟨⟩, List.forall_mem_singleton.2 h, trivial⟩

theorem sampleProfile_validate
    (h : (sampleCommand files steps).validate pairedHost sampleJSON = .ok ()) :
    (sampleProfile files steps).validate pairedHost sampleJSON sampleTest.taskID sampleTest.runID =
      .ok () := by
  simp only [ValidationProfile.validate, sampleProfile, List.foldlM_cons, List.foldlM_nil,
    ValidationProfile.validateCommand, run_ok_iff, mapError_ok_iff]
  exact ⟨(), by decide, (), sampleProfile_checkIdentity _, _,
    ⟨_, ⟨(), h, (), List.not_mem_nil, (), fun _ => rfl, (), ⟨rfl, rfl⟩, (),
      (show sampleTest.name ∈ _ by decide), rfl⟩, rfl⟩, rfl⟩

end Codeflux.Agent
