import Codeflux.Library.OpenEnum
import Codeflux.Library.Workers
import Codeflux.Library.Assembly
import Mathlib.Data.List.Sort

/-!
# The stage scheduler

In each round `RunConcurrently` records the stages as blocked that require a failed or a blocked
stage, and runs those whose requirements are decided concurrently, or the lowest exclusive one
alone. The scheduler's own steps are deterministic, and within a wave the workers interleave in any
way. The verdict of a stage is a function of the stage; what else a call reports may be anything.
-/

namespace Codeflux.Pipeline

open Library

/-- A position in the flow. -/
abbrev Number := Int

/-- What the ledger records about a stage. -/
inductive State
  | satisfied | failed | skipped | blocked | notImplemented
deriving DecidableEq

instance : Declared State where
  all := [.satisfied, .failed, .skipped, .blocked, .notImplemented]
  text
    | .satisfied => "satisfied"
    | .failed => "failed"
    | .skipped => "skipped"
    | .blocked => "blocked"
    | .notImplemented => "not-implemented"

/-- What a stage's check needs of the worktree. -/
inductive ResourceClass
  | pureAST | buildOnly | suiteRead | exclusiveMutating
deriving DecidableEq

instance : Declared ResourceClass where
  all := [.pureAST, .buildOnly, .suiteRead, .exclusiveMutating]
  text
    | .pureAST => "pure-ast"
    | .buildOnly => "build-only"
    | .suiteRead => "suite-read"
    | .exclusiveMutating => "exclusive-mutating"

/-- Does the stage run alone? -/
def exclusive (resources : OpenEnum ResourceClass) : Bool :=
  resources = .declared .exclusiveMutating

/-- A stage and what it requires. -/
structure Requirement where
  stage : Number
  requires : List Number

/-- The outcome of one stage. -/
structure Decision (ε : Type) where
  stage : Number
  state : OpenEnum State
  detail : String
  evidence : ε
  (startedAt finishedAt : Int)
  measured : Bool

/-- The decisions so far, by stage. -/
abbrev Decisions (ε : Type) := AList fun _ : Number => Decision ε

section Rounds

variable {ε : Type}

/-- The map `requiresOf`: a later entry of the table replaces an earlier one. -/
def requiresOf (requirements : List Requirement) (stage : Number) : List Number :=
  match (requirements.filter (·.stage = stage)).getLast? with
  | some requirement => requirement.requires
  | none => []

/-- The state of a stage that rules out what requires it. -/
def unmet (state : OpenEnum State) : Bool :=
  state = .declared .failed ∨ state = .declared .blocked

/-- What the scan of a stage's requirements says. -/
inductive Readiness
  | ready | blocked | waiting
deriving DecidableEq

/-- The scan stops at the first requirement that is not decided, or not met. -/
def scanRequires (decisions : Decisions ε) : List Number → Readiness
  | [] => .ready
  | dependency :: rest =>
    match decisions.lookup dependency with
    | none => .waiting
    | some decision => if unmet decision.state then .blocked else scanRequires decisions rest

/-- The pending stages with the given readiness, in ascending order. -/
def stagesThat (readiness : Readiness) (requirements : List Requirement) (pending : List Number)
    (decisions : Decisions ε) : List Number :=
  (pending.filter fun stage =>
    scanRequires decisions (requiresOf requirements stage) = readiness).insertionSort (· ≤ ·)

/-- `nextRoundStages`: the stages that are ready, and those that are blocked. -/
def nextRoundStages (requirements : List Requirement) (pending : List Number)
    (decisions : Decisions ε) : List Number × List Number :=
  (stagesThat .ready requirements pending decisions,
    stagesThat .blocked requirements pending decisions)

/-- The first requirement that was not met, with its state. -/
def firstUnmet (decisions : Decisions ε) : List Number → Option (Number × OpenEnum State)
  | [] => none
  | dependency :: rest =>
    match decisions.lookup dependency with
    | none => firstUnmet decisions rest
    | some decision =>
      if unmet decision.state then some (dependency, decision.state)
      else firstUnmet decisions rest

/-- The name of a stage is looked up in the flow. -/
def blockedDetail (stageName : Number → Option String) (stage : Number) (requires : List Number)
    (decisions : Decisions ε) : String :=
  match firstUnmet decisions requires with
  | some (dependency, state) =>
    let name := match stageName dependency with
      | some described => toString dependency ++ " (" ++ described ++ ")"
      | none => "stage " ++ toString dependency
    let verb := if state = .declared .blocked then "was itself blocked" else "failed"
    "blocked: this stage requires " ++ name ++ ", which " ++ verb ++ ", so running this " ++
      "stage's check would be wasted work computed over a known-broken precondition"
  | none =>
    "blocked: stage " ++ toString stage ++ " requires a stage that did not hold, but the " ++
      "specific one could not be identified"

/-- The lowest exclusive stage of a wave, or zero. -/
def lowestExclusive (classes : Number → OpenEnum ResourceClass) : List Number → Number
  | [] => 0
  | stage :: rest => if exclusive (classes stage) then stage else lowestExclusive classes rest

/-- The stages that run now. -/
def waveOf (classes : Number → OpenEnum ResourceClass) (ready : List Number) : List Number :=
  if lowestExclusive classes ready ≠ 0 then [lowestExclusive classes ready] else ready

end Rounds

/-- The input of a run. -/
structure Settings (ε : Type) where
  requirements : List Requirement
  classes : Number → OpenEnum ResourceClass
  /-- The verdict of the runner. -/
  verdict : Number → OpenEnum State
  maxWorkers : Int
  stageName : Number → Option String
  noEvidence : ε

/-- Where a run is. -/
inductive Phase (ε : Type)
  | deciding
  | running (wave : Pool Number (Decision ε))
  | returned (results : List (Decision ε))

/-- The variables of a run, and the runner's calls so far. -/
structure Schedule (ε : Type) where
  pending : List Number
  decisions : Decisions ε
  phase : Phase ε
  trace : List (CallEvent Number)

namespace Settings

variable {ε : Type} (settings : Settings ε)

/-- A bound on the workers counts when it is positive. -/
def limit : Option Nat :=
  if 0 < settings.maxWorkers then some settings.maxWorkers.toNat else none

/-- What a call of the runner may report. -/
def Yields (stage : Number) (decision : Decision ε) : Prop :=
  decision.stage = stage ∧ decision.state = settings.verdict stage ∧ decision.measured = true

end Settings

namespace Schedule

variable {ε : Type}

/-- Nothing is decided. -/
def initial (settings : Settings ε) : Schedule ε where
  pending := (settings.requirements.map (·.stage)).dedup
  decisions := ∅
  phase := .deciding
  trace := []

/-- Record a stage as blocked. -/
def block (settings : Settings ε) (schedule : Schedule ε) (stage : Number) : Schedule ε :=
  { schedule with
    decisions := schedule.decisions.insert stage {
      stage
      state := .declared .blocked
      detail := blockedDetail settings.stageName stage (requiresOf settings.requirements stage)
        schedule.decisions
      evidence := settings.noEvidence
      startedAt := 0
      finishedAt := 0
      measured := false }
    pending := schedule.pending.filter (· ≠ stage) }

/-- The decisions in ascending order of their stages. -/
def results (schedule : Schedule ε) : List (Decision ε) :=
  (schedule.decisions.entries.map (·.2)).insertionSort (·.stage ≤ ·.stage)

/-- One pass of the loop up to the start of its wave. -/
def round (settings : Settings ε) (schedule : Schedule ε) : Schedule ε :=
  let (ready, blocked) :=
    nextRoundStages settings.requirements schedule.pending schedule.decisions
  if schedule.pending = [] ∨ (ready = [] ∧ blocked = []) then
    { schedule with phase := .returned schedule.results }
  else
    let schedule := blocked.foldl (block settings) schedule
    if ready = [] then schedule
    else
      { schedule with phase := .running (.start (waveOf settings.classes ready) schedule.trace) }

/-- Take over the results of a wave. -/
def join (schedule : Schedule ε) (wave : Pool Number (Decision ε)) : Schedule ε where
  pending := schedule.pending.filter (· ∉ wave.results.map Prod.fst)
  decisions := wave.results.foldl (fun decisions entry => decisions.insert entry.1 entry.2)
    schedule.decisions
  phase := .deciding
  trace := wave.trace

/-- The steps of a run. -/
inductive Step (settings : Settings ε) : Schedule ε → Schedule ε → Prop
  | round {schedule : Schedule ε} (hphase : schedule.phase = .deciding) :
      Step settings schedule (schedule.round settings)
  | work {schedule : Schedule ε} {wave wave' : Pool Number (Decision ε)}
      (hphase : schedule.phase = .running wave)
      (hstep : Pool.Step settings.Yields settings.limit wave wave') :
      Step settings schedule { schedule with phase := .running wave' }
  | join {schedule : Schedule ε} {wave : Pool Number (Decision ε)}
      (hphase : schedule.phase = .running wave) (hfinished : wave.Finished) :
      Step settings schedule (schedule.join wave)

end Schedule

end Codeflux.Pipeline
