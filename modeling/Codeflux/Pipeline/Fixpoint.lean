import Codeflux.Library.FinDigraph
import Codeflux.Library.KeySort
import Codeflux.Pipeline.Scheduler

/-!
# The scheduler computes the dependency fixpoint

Whatever the acyclic table, the number of workers and the interleaving, a run ends, and its
decisions solve one equation: a stage is blocked when it requires a failed or a blocked stage, and
has the runner's verdict otherwise. The argument is an invariant of the scheduler's loop,
`Consistent`, together with the invariant of its waves.
-/

namespace Codeflux.Pipeline

open Library List

/-! ### Tables -/

/-- A table over positive stages that declares each stage once, names only declared stages and has
no cycle. -/
structure ValidTable (requirements : List Requirement) : Prop where
  positive : ∀ requirement ∈ requirements, 0 < requirement.stage
  once : (requirements.map (·.stage)).Nodup
  closed : ∀ requirement ∈ requirements, ∀ dependency ∈ requirement.requires,
    dependency ∈ requirements.map (·.stage)
  acyclic : ∀ stage, ¬Relation.TransGen
    (fun dependency stage => dependency ∈ requiresOf requirements stage) stage stage

variable {requirements : List Requirement}

theorem mem_requiresOf {stage dependency : Number}
    (h : dependency ∈ requiresOf requirements stage) :
    ∃ requirement ∈ requirements, requirement.stage = stage ∧
      dependency ∈ requirement.requires := by
  unfold requiresOf at h
  split at h
  · next requirement hlast =>
    have hmem := mem_of_getLast? hlast
    rw [mem_filter, decide_eq_true_eq] at hmem
    exact ⟨requirement, hmem.1, hmem.2, h⟩
  · exact absurd h not_mem_nil

section Scan

variable {ε : Type} {decisions decisions' : Decisions ε} {requires : List Number}

/-- Some requirement failed or is blocked. -/
def HasUnmet (decisions : Decisions ε) (requires : List Number) : Prop :=
  ∃ dependency ∈ requires, ∃ decision, decisions.lookup dependency = some decision ∧
    unmet decision.state = true

/-- All requirements are decided, and none failed or is blocked. -/
def AllMet (decisions : Decisions ε) (requires : List Number) : Prop :=
  ∀ dependency ∈ requires, ∃ decision, decisions.lookup dependency = some decision ∧
    unmet decision.state = false

/-- Decisions that were made stay. -/
def Extends (decisions decisions' : Decisions ε) : Prop :=
  ∀ stage decision, decisions.lookup stage = some decision →
    decisions'.lookup stage = some decision

theorem HasUnmet.mono (h : HasUnmet decisions requires) (hext : Extends decisions decisions') :
    HasUnmet decisions' requires := by
  obtain ⟨dependency, hmem, decision, hlookup, hunmet⟩ := h
  exact ⟨dependency, hmem, decision, hext _ _ hlookup, hunmet⟩

theorem AllMet.mono (h : AllMet decisions requires) (hext : Extends decisions decisions') :
    AllMet decisions' requires := by
  intro dependency hmem
  obtain ⟨decision, hlookup, hmet⟩ := h dependency hmem
  exact ⟨decision, hext _ _ hlookup, hmet⟩

variable {stage : Number}

theorem extends_insert {decision : Decision ε} (hnew : stage ∉ decisions) :
    Extends decisions (decisions.insert stage decision) := by
  intro other known hlookup
  have hne : other ≠ stage := by
    rintro rfl
    exact hnew (AList.lookup_isSome.1 (hlookup ▸ rfl))
  rw [AList.lookup_insert_ne hne, hlookup]

theorem hasUnmet_of_scan (h : scanRequires decisions requires = .blocked) :
    HasUnmet decisions requires := by
  fun_induction scanRequires decisions requires with
  | case1 | case2 => exact nomatch h
  | case3 dependency rest decision hlookup hunmet =>
    exact ⟨dependency, mem_cons_self, decision, hlookup, hunmet⟩
  | case4 dependency rest decision hlookup hmet ih =>
    obtain ⟨other, hmem, hrest⟩ := ih h
    exact ⟨other, mem_cons_of_mem _ hmem, hrest⟩

theorem allMet_of_scan (h : scanRequires decisions requires = .ready) :
    AllMet decisions requires := by
  fun_induction scanRequires decisions requires with
  | case1 => exact fun _ hmem => absurd hmem not_mem_nil
  | case2 | case3 => exact nomatch h
  | case4 dependency rest decision hlookup hmet ih =>
    exact forall_mem_cons.2 ⟨⟨decision, hlookup, Bool.not_eq_true _ ▸ hmet⟩, ih h⟩

theorem scan_of_decided (h : ∀ dependency ∈ requires, dependency ∈ decisions) :
    scanRequires decisions requires ≠ .waiting := by
  fun_induction scanRequires decisions requires with
  | case1 | case3 => exact nofun
  | case2 dependency rest hlookup =>
    have hhead := AList.lookup_isSome.2 (h dependency mem_cons_self)
    simp [hlookup] at hhead
  | case4 dependency rest decision hlookup hmet ih => exact ih (forall_mem_cons.1 h).2

theorem mem_stagesThat {readiness : Readiness} {pending : List Number} :
    stage ∈ stagesThat readiness requirements pending decisions ↔
      stage ∈ pending ∧
        scanRequires decisions (requiresOf requirements stage) = readiness := by
  simp [stagesThat]

end Scan

/-! ### Between two steps -/

section Invariant

variable {ε : Type} {settings : Settings ε} {schedule schedule' : Schedule ε}

/-- The events of a stage. -/
def callsOf (trace : List (CallEvent Number)) (stage : Number) : List (CallEvent Number) :=
  trace.filter (·.task = stage)

section

variable (settings : Settings ε)

/-- The stage was not called, for a requirement that is not met. -/
def Blocked (schedule : Schedule ε) (decision : Decision ε) : Prop :=
  decision.state = .declared .blocked ∧
    HasUnmet schedule.decisions (requiresOf settings.requirements decision.stage) ∧
    callsOf schedule.trace decision.stage = []

/-- The stage was called once, for its requirements are met. -/
def Called (schedule : Schedule ε) (decision : Decision ε) : Prop :=
  decision.state = settings.verdict decision.stage ∧
    AllMet schedule.decisions (requiresOf settings.requirements decision.stage) ∧
    callsOf schedule.trace decision.stage = [.started decision.stage, .ended decision.stage]

/-- Each call follows the calls of what its stage requires. -/
def Ordered (trace : List (CallEvent Number)) : Prop :=
  ∀ stage, .started stage ∈ trace → ∀ dependency ∈ requiresOf settings.requirements stage,
    [.ended dependency, .started stage].Sublist trace

/-- No call overlaps that of an exclusive stage. -/
def Alone (trace : List (CallEvent Number)) : Prop :=
  ∀ stage other, exclusive (settings.classes stage) = true → other ≠ stage →
    .started stage ∈ trace → .started other ∈ trace →
      [.ended other, .started stage].Sublist trace ∨ [.ended stage, .started other].Sublist trace

/-- What holds at the head of the loop. -/
structure Consistent (settings : Settings ε) (schedule : Schedule ε) : Prop where
  nodup : schedule.pending.Nodup
  pending : ∀ stage, stage ∈ schedule.pending ↔
    stage ∈ settings.requirements.map (·.stage) ∧ stage ∉ schedule.decisions
  declared : ∀ stage ∈ schedule.decisions, stage ∈ settings.requirements.map (·.stage)
  decided : ∀ stage decision, schedule.decisions.lookup stage = some decision →
    decision.stage = stage ∧
      (Blocked settings schedule decision ∨ Called settings schedule decision)
  uncalled : ∀ stage, stage ∉ schedule.decisions → callsOf schedule.trace stage = []
  ordered : Ordered settings schedule.trace
  alone : Alone settings schedule.trace

/-- What holds while a wave runs. -/
structure WaveSound (settings : Settings ε) (schedule : Schedule ε)
    (wave : Pool Number (Decision ε)) : Prop where
  sound : wave.Sound settings.Yields schedule.trace
  nodup : wave.tasks.Nodup
  nonempty : wave.tasks ≠ []
  ready : ∀ stage ∈ wave.tasks, stage ∈ schedule.pending ∧
    AllMet schedule.decisions (requiresOf settings.requirements stage)
  single : ∀ stage ∈ wave.tasks, exclusive (settings.classes stage) = true → wave.tasks = [stage]

/-- What holds between two steps. -/
def Schedule.Invariant (schedule : Schedule ε) : Prop :=
  Consistent settings schedule ∧
    match schedule.phase with
    | .deciding => True
    | .running wave => WaveSound settings schedule wave
    | .returned results => schedule.pending = [] ∧ results = schedule.results

end

theorem consistent_initial : Consistent settings (.initial settings) where
  nodup := nodup_dedup _
  pending stage := by
    simp only [Schedule.initial, mem_dedup]
    exact (and_iff_left (AList.notMem_empty stage)).symm
  declared stage h := absurd h (AList.notMem_empty stage)
  decided _ _ h := nomatch h
  uncalled _ _ := rfl
  ordered _ h := absurd h not_mem_nil
  alone _ _ _ _ h := absurd h not_mem_nil

variable {stage : Number} {decision : Decision ε} {wave : Pool Number (Decision ε)}
  {before segment : List (CallEvent Number)} {tasks : List Number}

theorem mem_callsOf {trace : List (CallEvent Number)} {event : CallEvent Number} :
    event ∈ callsOf trace stage ↔ event ∈ trace ∧ event.task = stage := by
  simp [callsOf]

theorem Called.ended (h : Called settings schedule decision) :
    .ended decision.stage ∈ schedule.trace := by
  have hend : CallEvent.ended decision.stage ∈ callsOf schedule.trace decision.stage := by
    rw [h.2.2]
    exact mem_cons_of_mem _ mem_cons_self
  exact (mem_callsOf.1 hend).1

/-- Decisions that are made later keep what was said about earlier ones. -/
theorem Extends.keeps_decided (hext : Extends schedule.decisions schedule'.decisions)
    (hcalls : callsOf schedule'.trace decision.stage = callsOf schedule.trace decision.stage)
    (h : Blocked settings schedule decision ∨ Called settings schedule decision) :
    Blocked settings schedule' decision ∨ Called settings schedule' decision :=
  h.imp (fun h => ⟨h.1, h.2.1.mono hext, hcalls.trans h.2.2⟩)
    fun h => ⟨h.1, h.2.1.mono hext, hcalls.trans h.2.2⟩

theorem lowestExclusive_cases (classes : Number → OpenEnum ResourceClass) (ready : List Number)
    (hpositive : ∀ stage ∈ ready, 0 < stage) :
    (lowestExclusive classes ready = 0 ∧ ∀ stage ∈ ready, exclusive (classes stage) = false) ∨
      lowestExclusive classes ready ≠ 0 ∧ lowestExclusive classes ready ∈ ready := by
  induction ready with
  | nil => exact .inl ⟨rfl, fun _ h => absurd h not_mem_nil⟩
  | cons stage rest ih =>
    by_cases hstage : exclusive (classes stage) = true
    · rw [lowestExclusive, if_pos hstage]
      exact .inr ⟨(hpositive stage mem_cons_self).ne', mem_cons_self⟩
    · rw [lowestExclusive, if_neg hstage]
      rcases ih fun other hother => hpositive other (mem_cons_of_mem _ hother) with
        ⟨hzero, hnone⟩ | ⟨hne, hmem⟩
      · refine .inl ⟨hzero, fun other hother => ?_⟩
        rcases mem_cons.1 hother with rfl | hother
        · exact Bool.not_eq_true _ ▸ hstage
        · exact hnone other hother
      · exact .inr ⟨hne, mem_cons_of_mem _ hmem⟩

/-- A wave is a part of the ready stages, and an exclusive stage is alone in it. -/
theorem waveOf_spec (classes : Number → OpenEnum ResourceClass) {ready : List Number}
    (hpositive : ∀ stage ∈ ready, 0 < stage) (hready : ready ≠ []) (hnodup : ready.Nodup) :
    waveOf classes ready ≠ [] ∧ (waveOf classes ready).Nodup ∧
      (∀ stage ∈ waveOf classes ready, stage ∈ ready) ∧
      ∀ stage ∈ waveOf classes ready, exclusive (classes stage) = true →
        waveOf classes ready = [stage] := by
  unfold waveOf
  rcases lowestExclusive_cases classes ready hpositive with ⟨hzero, hnone⟩ | ⟨hne, hmem⟩
  · rw [if_neg (not_not.2 hzero)]
    refine ⟨hready, hnodup, fun _ h => h, fun stage hstage hexclusive => ?_⟩
    rw [hnone stage hstage] at hexclusive
    exact nomatch hexclusive
  · rw [if_pos hne]
    refine ⟨cons_ne_nil _ _, nodup_singleton _, fun stage hstage => ?_,
      fun stage hstage _ => ?_⟩
    · rwa [mem_singleton.1 hstage]
    · rw [mem_singleton.1 hstage]

/-! ### Rounds -/

section Rounds

variable (h : Consistent settings schedule)
include h

theorem Consistent.ended (hstarted : .started stage ∈ schedule.trace) :
    .ended stage ∈ schedule.trace := by
  have hmem : CallEvent.started stage ∈ callsOf schedule.trace stage :=
    mem_callsOf.2 ⟨hstarted, rfl⟩
  cases hlookup : schedule.decisions.lookup stage with
  | none =>
    rw [h.uncalled stage (AList.lookup_eq_none.1 hlookup)] at hmem
    exact absurd hmem not_mem_nil
  | some decision =>
    obtain ⟨rfl, ⟨-, -, hcalls⟩ | hcalled⟩ := h.decided stage decision hlookup
    · rw [hcalls] at hmem
      exact absurd hmem not_mem_nil
    · exact hcalled.ended

theorem Consistent.ended_of_met {dependency : Number}
    (hmet : AllMet schedule.decisions (requiresOf settings.requirements stage))
    (hmem : dependency ∈ requiresOf settings.requirements stage) :
    .ended dependency ∈ schedule.trace := by
  obtain ⟨decision, hlookup, hstate⟩ := hmet dependency hmem
  obtain ⟨rfl, ⟨hblocked, -⟩ | hcalled⟩ := h.decided dependency decision hlookup
  · rw [hblocked] at hstate
    exact nomatch hstate
  · exact hcalled.ended

theorem Consistent.block (hstage : stage ∈ schedule.pending)
    (hunmet : HasUnmet schedule.decisions (requiresOf settings.requirements stage)) :
    Consistent settings (schedule.block settings stage) := by
  obtain ⟨hdeclared, hnew⟩ := (h.pending stage).1 hstage
  have hext : Extends schedule.decisions (schedule.block settings stage).decisions :=
    extends_insert hnew
  refine { h with
    nodup := h.nodup.filter _
    pending := fun other => ?_
    declared := fun other hother => ?_
    decided := forall_lookup_insert (fun other decision hlookup => ?_)
      ⟨rfl, .inl ⟨rfl, hunmet.mono hext, h.uncalled stage hnew⟩⟩
    uncalled := fun other hother => h.uncalled other fun hmem => hother ?_ }
  · simp only [Schedule.block, mem_filter, h.pending, AList.mem_insert, decide_eq_true_eq,
      not_or]
    tauto
  · rcases (AList.mem_insert _).1 hother with rfl | hold
    · exact hdeclared
    · exact h.declared other hold
  · obtain ⟨heq, hcase⟩ := h.decided other decision hlookup
    exact ⟨heq, hext.keeps_decided rfl hcase⟩
  · exact (AList.mem_insert _).2 (.inr hmem)

theorem Consistent.blockAll {stages : List Number} (hnodup : stages.Nodup)
    (hstages : ∀ stage ∈ stages, stage ∈ schedule.pending ∧
      HasUnmet schedule.decisions (requiresOf settings.requirements stage)) :
    let after := stages.foldl (Schedule.block settings) schedule
    Consistent settings after ∧ Extends schedule.decisions after.decisions ∧
      after.pending = schedule.pending.filter (· ∉ stages) ∧ after.phase = schedule.phase := by
  induction stages generalizing schedule with
  | nil => exact ⟨h, fun _ _ h => h, by simp, rfl⟩
  | cons stage stages ih =>
    obtain ⟨hfirst, hrest⟩ := nodup_cons.1 hnodup
    obtain ⟨hstage, hunmet⟩ := hstages stage mem_cons_self
    have hnew := ((h.pending stage).1 hstage).2
    have hext : Extends schedule.decisions (schedule.block settings stage).decisions :=
      extends_insert hnew
    obtain ⟨hconsistent, hext', hpending, hphase⟩ := ih (h.block hstage hunmet) hrest
      fun other hother => by
        obtain ⟨hmem, hother'⟩ := hstages other (mem_cons_of_mem _ hother)
        refine ⟨mem_filter.2 ⟨hmem, ?_⟩, hother'.mono hext⟩
        have hne : other ≠ stage := fun heq => hfirst (heq ▸ hother)
        simpa using hne
    refine ⟨hconsistent, fun other decision hlookup => hext' _ _ (hext _ _ hlookup), ?_, hphase⟩
    rw [foldl_cons, hpending, Schedule.block, filter_filter]
    refine filter_congr fun other _ => ?_
    simp [Bool.and_comm]

theorem nodup_stagesThat (readiness : Readiness) :
    (stagesThat readiness settings.requirements schedule.pending schedule.decisions).Nodup := by
  rw [stagesThat, (perm_insertionSort _ _).nodup_iff]
  exact h.nodup.filter _

variable (htable : ValidTable settings.requirements)
include htable

/-- **A round decides some stage**, as long as there is one. -/
theorem exists_decidable_stage (hpending : schedule.pending ≠ []) :
    ∃ stage ∈ schedule.pending, scanRequires schedule.decisions
      (requiresOf settings.requirements stage) ≠ .waiting := by
  obtain ⟨stage, hstage, hmin⟩ := exists_minimal_of_acyclic htable.acyclic hpending
  refine ⟨stage, hstage, scan_of_decided fun dependency hmem => ?_⟩
  by_contra hundecided
  obtain ⟨requirement, hrequirement, -, hrequires⟩ := mem_requiresOf hmem
  have hdeclared := htable.closed requirement hrequirement dependency hrequires
  exact hmin dependency ((h.pending dependency).2 ⟨hdeclared, hundecided⟩) hmem

/-- What one pass of the loop does: it ends the run when nothing is pending, or it records blocked
stages and starts a wave of ready ones. -/
theorem round_cases (hphase : schedule.phase = .deciding) :
    (schedule.pending = [] ∧
        schedule.round settings = { schedule with phase := .returned schedule.results }) ∨
      ∃ (blocked : List Number) (after : Schedule ε), Consistent settings after ∧
        after.pending = schedule.pending.filter (· ∉ blocked) ∧
        ((schedule.round settings = after ∧ after.phase = .deciding ∧
            ∃ stage ∈ blocked, stage ∈ schedule.pending) ∨
          ∃ wave, WaveSound settings after (.start wave after.trace) ∧
            schedule.round settings =
              { after with phase := .running (.start wave after.trace) }) := by
  by_cases hpending : schedule.pending = []
  · refine .inl ⟨hpending, ?_⟩
    simp [Schedule.round, hpending]
  · obtain ⟨stage, hstage, hscan⟩ := exists_decidable_stage h htable hpending
    set ready := stagesThat .ready settings.requirements schedule.pending schedule.decisions
      with hready
    set blocked := stagesThat .blocked settings.requirements schedule.pending schedule.decisions
      with hblocked
    have hsome : ¬(schedule.pending = [] ∨ ready = [] ∧ blocked = []) := by
      rintro (hnil | ⟨hreadynil, hblockednil⟩)
      · exact hpending hnil
      · cases hcase : scanRequires schedule.decisions (requiresOf settings.requirements stage) with
        | ready => exact ne_nil_of_mem (mem_stagesThat.2 ⟨hstage, hcase⟩) hreadynil
        | blocked => exact ne_nil_of_mem (mem_stagesThat.2 ⟨hstage, hcase⟩) hblockednil
        | waiting => exact hscan hcase
    have hround : schedule.round settings =
        let after := blocked.foldl (Schedule.block settings) schedule
        if ready = [] then after
        else { after with
          phase := .running (.start (waveOf settings.classes ready) after.trace) } :=
      if_neg hsome
    obtain ⟨hconsistent, hext, hremaining, hsame⟩ := h.blockAll (nodup_stagesThat h .blocked)
      fun other hother =>
        ⟨(mem_stagesThat.1 hother).1, hasUnmet_of_scan (mem_stagesThat.1 hother).2⟩
    refine .inr ⟨blocked, _, hconsistent, hremaining, ?_⟩
    by_cases hnone : ready = []
    · refine .inl ⟨by rw [hround]; exact if_pos hnone, hsame.trans hphase, ?_⟩
      obtain ⟨other, hother⟩ := exists_mem_of_ne_nil blocked fun hnil =>
        hsome (.inr ⟨hnone, hnil⟩)
      exact ⟨other, hother, (mem_stagesThat.1 hother).1⟩
    · have hpositive : ∀ other ∈ ready, 0 < other := fun other hother => by
        have hmem := ((h.pending other).1 (mem_stagesThat.1 hother).1).1
        obtain ⟨requirement, hrequirement, rfl⟩ := mem_map.1 hmem
        exact htable.positive requirement hrequirement
      obtain ⟨hnonempty, hnodup, hsub, hsingle⟩ :=
        waveOf_spec settings.classes hpositive hnone (nodup_stagesThat h .ready)
      refine .inr ⟨_, ⟨Pool.sound_start _, hnodup, hnonempty, fun other hother => ?_, hsingle⟩,
        by rw [hround]; exact if_neg hnone⟩
      obtain ⟨hmem, hother'⟩ := mem_stagesThat.1 (hsub other hother)
      refine ⟨?_, (allMet_of_scan hother').mono hext⟩
      rw [hremaining, mem_filter, decide_eq_true_eq]
      refine ⟨hmem, fun hblocked' => ?_⟩
      rw [(mem_stagesThat.1 hblocked').2] at hother'
      exact nomatch hother'

end Rounds

/-! ### Waves -/

theorem lookup_foldl_insert {entries : List (Number × Decision ε)}
    (hnodup : (entries.map Prod.fst).Nodup) (decisions : Decisions ε) :
    let after := entries.foldl (fun decisions entry => decisions.insert entry.1 entry.2) decisions
    (∀ entry ∈ entries, after.lookup entry.1 = some entry.2) ∧
      ∀ stage ∉ entries.map Prod.fst, after.lookup stage = decisions.lookup stage := by
  induction entries generalizing decisions with
  | nil => exact ⟨fun _ h => absurd h not_mem_nil, fun _ _ => rfl⟩
  | cons entry entries ih =>
    rw [map_cons, nodup_cons] at hnodup
    obtain ⟨hnew, hold⟩ := ih hnodup.2 (decisions.insert entry.1 entry.2)
    refine ⟨fun other hother => ?_, fun stage hstage => ?_⟩
    · rcases mem_cons.1 hother with rfl | hother
      · exact (hold other.1 hnodup.1).trans (AList.lookup_insert _)
      · exact hnew other hother
    · rw [map_cons, mem_cons, not_or] at hstage
      exact (hold stage hstage.2).trans (AList.lookup_insert_ne hstage.1)

/-- What a finished wave has: a result and a whole call for each of its stages, and nothing else. -/
theorem WaveSound.finished (h : WaveSound settings schedule wave) (hfinished : wave.Finished) :
    (∀ stage, stage ∈ wave.results.map Prod.fst ↔ stage ∈ wave.tasks) ∧
      ∃ segment, wave.trace = schedule.trace ++ segment ∧
        (∀ stage ∈ wave.tasks, callsOf segment stage = [.started stage, .ended stage]) ∧
        ∀ stage ∉ wave.tasks, callsOf segment stage = [] := by
  refine ⟨fun stage => ?_, ?_⟩
  · rw [h.sound.recorded]
    by_cases hstage : stage ∈ wave.tasks
    · simp [hfinished stage hstage, hstage, WorkerState.hasRecorded]
    · simp [h.sound.outside stage hstage, hstage, WorkerState.hasRecorded]
  · obtain ⟨segment, htrace, hsegment⟩ := h.sound.called
    refine ⟨segment, htrace, fun stage hstage => ?_, fun stage hstage => ?_⟩
    · rw [callsOf, hsegment, hfinished stage hstage]
      rfl
    · rw [callsOf, hsegment, h.sound.outside stage hstage]
      rfl

theorem ordered_append (hbefore : Ordered settings before)
    (htasks : ∀ stage, .started stage ∈ segment → stage ∈ tasks)
    (hready : ∀ stage ∈ tasks, ∀ dependency ∈ requiresOf settings.requirements stage,
      .ended dependency ∈ before) : Ordered settings (before ++ segment) := by
  intro stage hstarted dependency hmem
  rcases mem_append.1 hstarted with hold | hnew
  · exact (hbefore stage hold dependency hmem).trans (sublist_append_left _ _)
  · have hended := hready stage (htasks stage hnew) dependency hmem
    exact List.Sublist.append (singleton_sublist.2 hended) (singleton_sublist.2 hnew)

theorem alone_append (hbefore : Alone settings before)
    (htasks : ∀ stage, .started stage ∈ segment → stage ∈ tasks)
    (hended : ∀ stage, .started stage ∈ before → .ended stage ∈ before)
    (hsingle : ∀ stage ∈ tasks, exclusive (settings.classes stage) = true → tasks = [stage]) :
    Alone settings (before ++ segment) := by
  intro stage other hexclusive hne hstage hother
  rcases mem_append.1 hstage with hstage | hstage <;>
    rcases mem_append.1 hother with hother | hother
  · exact (hbefore stage other hexclusive hne hstage hother).imp
      (·.trans (sublist_append_left _ _)) (·.trans (sublist_append_left _ _))
  · exact .inr (List.Sublist.append (singleton_sublist.2 (hended stage hstage))
      (singleton_sublist.2 hother))
  · exact .inl (List.Sublist.append (singleton_sublist.2 (hended other hother))
      (singleton_sublist.2 hstage))
  · have hmem := htasks other hother
    rw [hsingle stage (htasks stage hstage) hexclusive] at hmem
    exact absurd (mem_singleton.1 hmem) hne

theorem Consistent.join (h : Consistent settings schedule)
    (hwave : WaveSound settings schedule wave) (hfinished : wave.Finished) :
    Consistent settings (schedule.join wave) := by
  obtain ⟨hkeys, segment, htrace, hcalled, hsilent⟩ := hwave.finished hfinished
  obtain ⟨hnew, hold⟩ := lookup_foldl_insert hwave.sound.distinct schedule.decisions
  have hfresh : ∀ stage ∈ wave.tasks, stage ∉ schedule.decisions := fun stage hstage =>
    ((h.pending stage).1 (hwave.ready stage hstage).1).2
  have hkept : ∀ stage ∉ wave.tasks,
      (schedule.join wave).decisions.lookup stage = schedule.decisions.lookup stage :=
    fun stage hstage => hold stage fun hmem => hstage ((hkeys stage).1 hmem)
  have hext : Extends schedule.decisions (schedule.join wave).decisions := by
    intro stage decision hlookup
    rw [hkept stage fun hmem => hfresh stage hmem (AList.lookup_isSome.1 (hlookup ▸ rfl)), hlookup]
  have hmem : ∀ stage, stage ∈ (schedule.join wave).decisions ↔
      stage ∈ schedule.decisions ∨ stage ∈ wave.tasks := by
    intro stage
    by_cases hstage : stage ∈ wave.tasks
    · obtain ⟨entry, hentry, rfl⟩ := mem_map.1 ((hkeys stage).2 hstage)
      have hlookup : (schedule.join wave).decisions.lookup entry.1 = some entry.2 :=
        hnew entry hentry
      simp [hstage, ← AList.lookup_isSome, hlookup]
    · rw [← AList.lookup_isSome, hkept stage hstage, AList.lookup_isSome, or_iff_left hstage]
  have hstarted : ∀ stage, .started stage ∈ segment → stage ∈ wave.tasks := by
    intro stage hstage
    by_contra hnot
    have hcall : CallEvent.started stage ∈ callsOf segment stage := mem_callsOf.2 ⟨hstage, rfl⟩
    rw [hsilent stage hnot] at hcall
    exact not_mem_nil hcall
  have hcalls : ∀ stage, callsOf (schedule.join wave).trace stage =
      callsOf schedule.trace stage ++ callsOf segment stage := by
    intro stage
    show callsOf wave.trace stage = _
    rw [htrace, callsOf, filter_append]
    rfl
  refine ⟨h.nodup.filter _, fun stage => ?_, fun stage hstage => ?_,
    fun stage decision hlookup => ?_,
    fun stage hstage => ?_, ?_, ?_⟩
  · show stage ∈ schedule.pending.filter _ ↔ _
    rw [mem_filter, decide_eq_true_eq, h.pending, hkeys, hmem]
    tauto
  · rcases (hmem stage).1 hstage with hdecided | htask
    · exact h.declared stage hdecided
    · exact ((h.pending stage).1 (hwave.ready stage htask).1).1
  · by_cases hstage : stage ∈ wave.tasks
    · obtain ⟨entry, hentry, rfl⟩ := mem_map.1 ((hkeys stage).2 hstage)
      have heq : (schedule.join wave).decisions.lookup entry.1 = some entry.2 := hnew entry hentry
      rw [heq, Option.some.injEq] at hlookup
      subst hlookup
      obtain ⟨hown, hverdict, -⟩ := hwave.sound.yields entry hentry
      refine ⟨hown, .inr ?_⟩
      rw [Called, hown]
      refine ⟨hverdict, (hwave.ready entry.1 hstage).2.mono hext, ?_⟩
      rw [hcalls, h.uncalled entry.1 (hfresh entry.1 hstage), hcalled entry.1 hstage]
      rfl
    · rw [hkept stage hstage] at hlookup
      obtain ⟨rfl, hcase⟩ := h.decided stage decision hlookup
      have hsame : callsOf (schedule.join wave).trace decision.stage =
          callsOf schedule.trace decision.stage := by
        rw [hcalls, hsilent decision.stage hstage, append_nil]
      exact ⟨rfl, hext.keeps_decided hsame hcase⟩
  · rw [hmem, not_or] at hstage
    rw [hcalls, h.uncalled stage hstage.1, hsilent stage hstage.2]
    rfl
  · show Ordered settings wave.trace
    rw [htrace]
    exact ordered_append h.ordered hstarted fun stage hstage dependency hdependency =>
      h.ended_of_met (hwave.ready stage hstage).2 hdependency
  · show Alone settings wave.trace
    rw [htrace]
    exact alone_append h.alone hstarted (fun stage hstage => h.ended hstage) hwave.single

theorem invariant_initial : (Schedule.initial settings).Invariant settings :=
  ⟨consistent_initial, trivial⟩

/-- **Each step keeps the invariant.** -/
theorem Invariant.step (htable : ValidTable settings.requirements) (h : schedule.Invariant settings)
    (hstep : Schedule.Step settings schedule schedule') : schedule'.Invariant settings := by
  obtain ⟨hconsistent, hphase⟩ := h
  cases hstep with
  | round hdeciding =>
    rcases round_cases hconsistent htable hdeciding with
      ⟨hpending, hround⟩ | ⟨blocked, after, hafter, -, ⟨hround, hsame, -⟩ | ⟨wave, hwave, hround⟩⟩
    · rw [hround]
      exact ⟨{ hconsistent with }, hpending, rfl⟩
    · rw [hround, Schedule.Invariant, hsame]
      exact ⟨hafter, trivial⟩
    · rw [hround]
      exact ⟨{ hafter with }, { hwave with }⟩
  | work hrunning hstep =>
    rw [hrunning] at hphase
    refine ⟨{ hconsistent with }, ?_⟩
    have htasks := hstep.tasks_eq
    refine { hphase with
      sound := hphase.sound.step hstep
      nodup := htasks ▸ hphase.nodup
      nonempty := htasks ▸ hphase.nonempty
      ready := htasks ▸ hphase.ready
      single := htasks ▸ hphase.single }
  | join hrunning hfinished =>
    rw [hrunning] at hphase
    exact ⟨hconsistent.join hphase hfinished, trivial⟩

/-- A bound on the steps that are left to a run. -/
def Schedule.weight (schedule : Schedule ε) : Nat :=
  match schedule.phase with
  | .deciding => 8 * schedule.pending.length + 1
  | .running wave => wave.remaining + 8 * (schedule.pending.length - wave.tasks.length) + 2
  | .returned _ => 0

theorem Schedule.weight_running (h : schedule.phase = .running wave) : schedule.weight =
    wave.remaining + 8 * (schedule.pending.length - wave.tasks.length) + 2 := by
  rw [Schedule.weight, h]

theorem WaveSound.length_le (h : WaveSound settings schedule wave) :
    wave.tasks.length ≤ schedule.pending.length :=
  (h.nodup.subperm fun stage hstage => (h.ready stage hstage).1).length_le

theorem remaining_start (tasks : List Number) (trace : List (CallEvent Number)) :
    (Pool.start tasks trace : Pool Number (Decision ε)).remaining = 6 * tasks.length := by
  simp [Pool.remaining, Pool.start, WorkerState.remaining, Nat.mul_comm]

/-- A finished wave takes its stages off the pending ones. -/
theorem WaveSound.length_join (h : WaveSound settings schedule wave) (hfinished : wave.Finished) :
    (schedule.join wave).pending.length + wave.tasks.length ≤ schedule.pending.length := by
  have hkeys := (h.finished hfinished).1
  have hsub : wave.tasks.length ≤
      (schedule.pending.filter fun stage =>
        !decide (stage ∉ wave.results.map Prod.fst)).length := by
    refine (h.nodup.subperm fun stage hstage =>
      mem_filter.2 ⟨(h.ready stage hstage).1, ?_⟩).length_le
    simpa using (hkeys stage).2 hstage
  have hsplit := length_eq_length_filter_add (l := schedule.pending)
    fun stage => decide (stage ∉ wave.results.map Prod.fst)
  show (schedule.pending.filter _).length + _ ≤ _
  omega

/-- **Each step brings the run closer to its end.** -/
theorem weight_lt (htable : ValidTable settings.requirements) (h : schedule.Invariant settings)
    (hstep : Schedule.Step settings schedule schedule') : schedule'.weight < schedule.weight := by
  obtain ⟨hconsistent, hphase⟩ := h
  cases hstep with
  | round hdeciding =>
    rw [show schedule.weight = 8 * schedule.pending.length + 1 by
      rw [Schedule.weight, hdeciding]]
    rcases round_cases hconsistent htable hdeciding with
      ⟨-, hround⟩ | ⟨blocked, after, -, hpending, ⟨hround, hsame, stage, hmem, hstage⟩ |
        ⟨wave, hwave, hround⟩⟩
    · rw [hround]
      exact Nat.succ_pos _
    · rw [hround, Schedule.weight, hsame, hpending]
      have hlt : (schedule.pending.filter fun other => decide (other ∉ blocked)).length <
          schedule.pending.length :=
        length_filter_lt_length_iff_exists.2 ⟨stage, hstage, by simpa using hmem⟩
      show 8 * _ + 1 < _
      omega
    · rw [hround]
      show Pool.remaining _ + 8 * (after.pending.length - wave.length) + 2 < _
      have hle : after.pending.length ≤ schedule.pending.length := by
        rw [hpending]
        exact length_filter_le _ _
      have htasks : wave.length ≤ after.pending.length := hwave.length_le
      have hpositive : 0 < wave.length := length_pos_iff.2 hwave.nonempty
      rw [remaining_start]
      omega
  | @work wave wave' hrunning hstep =>
    have hlt := Pool.remaining_lt hstep
    rw [Schedule.weight_running hrunning]
    show wave'.remaining + 8 * (schedule.pending.length - wave'.tasks.length) + 2 < _
    rw [hstep.tasks_eq]
    omega
  | @join wave hrunning hfinished =>
    rw [hrunning] at hphase
    have hjoin := WaveSound.length_join hphase hfinished
    rw [Schedule.weight_running hrunning]
    show 8 * (schedule.join wave).pending.length + 1 < _
    omega

/-- No schedule is infinite. -/
theorem acc_of_invariant (htable : ValidTable settings.requirements)
    (h : schedule.Invariant settings) :
    Acc (fun after before => Schedule.Step settings before after) schedule := by
  induction hweight : schedule.weight using Nat.strong_induction_on generalizing schedule with
  | _ weight ih =>
    refine ⟨_, fun after hstep => ?_⟩
    exact ih after.weight (hweight ▸ weight_lt htable h hstep) (Invariant.step htable h hstep) rfl

/-- No schedule gets stuck. -/
theorem progress (settings : Settings ε) (schedule : Schedule ε) :
    (∃ results, schedule.phase = .returned results) ∨
      ∃ schedule', Schedule.Step settings schedule schedule' := by
  cases hphase : schedule.phase with
  | deciding => exact .inr ⟨_, .round hphase⟩
  | running wave =>
    have hyields : ∀ stage, ∃ decision, settings.Yields stage decision := fun stage =>
      ⟨⟨stage, settings.verdict stage, "", settings.noEvidence, 0, 0, true⟩, rfl, rfl, rfl⟩
    have hlimit : ∀ n ∈ settings.limit, 0 < n := by
      intro n hn
      unfold Settings.limit at hn
      split_ifs at hn with hpositive
      · obtain rfl := Option.some.inj hn
        omega
      · exact nomatch hn
    rcases Pool.progress hyields hlimit wave with hfinished | ⟨wave', hstep⟩
    · exact .inr ⟨_, .join hphase hfinished⟩
    · exact .inr ⟨_, .work hphase hstep⟩
  | returned results => exact .inl ⟨results, rfl⟩

/-! ### Finished runs -/

/-- Some stage among the requirements failed or is blocked in the results. -/
def RuledOut (results : List (Decision ε)) (requires : List Number) : Prop :=
  ∃ decision ∈ results, decision.stage ∈ requires ∧ unmet decision.state = true

/-- What a finished run has decided and called. -/
structure Outcome (settings : Settings ε) (results : List (Decision ε))
    (trace : List (CallEvent Number)) : Prop where
  ascending : (results.map (·.stage)).Pairwise (· < ·)
  complete : ∀ stage, stage ∈ results.map (·.stage) ↔
    stage ∈ settings.requirements.map (·.stage)
  blocked : ∀ decision ∈ results,
    RuledOut results (requiresOf settings.requirements decision.stage) →
      decision.state = .declared .blocked ∧ callsOf trace decision.stage = []
  called : ∀ decision ∈ results,
    ¬RuledOut results (requiresOf settings.requirements decision.stage) →
      decision.state = settings.verdict decision.stage ∧
        callsOf trace decision.stage = [.started decision.stage, .ended decision.stage]
  ordered : Ordered settings trace
  alone : Alone settings trace

theorem Consistent.mem_results_iff (h : Consistent settings schedule) :
    decision ∈ schedule.results ↔
      schedule.decisions.lookup decision.stage = some decision := by
  rw [Schedule.results, mem_insertionSort, mem_map]
  constructor
  · rintro ⟨⟨stage, known⟩, hentry, rfl⟩
    have hlookup : schedule.decisions.lookup stage = some known :=
      AList.mem_lookup_iff.2 hentry
    rwa [(h.decided stage known hlookup).1]
  · exact fun hlookup => ⟨_, AList.mem_lookup_iff.1 hlookup, rfl⟩

theorem Consistent.ascending (h : Consistent settings schedule) :
    (schedule.results.map (·.stage)).Pairwise (· < ·) := by
  have hkeys : (schedule.decisions.entries.map (·.2)).map (·.stage) = schedule.decisions.keys := by
    rw [map_map]
    refine map_congr_left fun entry hentry => ?_
    exact (h.decided entry.1 entry.2 (AList.mem_lookup_iff.2 hentry)).1
  rw [pairwise_map]
  exact (pairwise_lt_sortOn_iff Decision.stage).2 (hkeys ▸ schedule.decisions.keys_nodup)

theorem Consistent.ruledOut_iff (h : Consistent settings schedule) {requires : List Number} :
    RuledOut schedule.results requires ↔ HasUnmet schedule.decisions requires := by
  constructor
  · rintro ⟨decision, hmem, hrequired, hunmet⟩
    exact ⟨decision.stage, hrequired, decision, h.mem_results_iff.1 hmem, hunmet⟩
  · rintro ⟨stage, hrequired, decision, hlookup, hunmet⟩
    obtain ⟨rfl, -⟩ := h.decided stage decision hlookup
    exact ⟨decision, h.mem_results_iff.2 hlookup, hrequired, hunmet⟩

/-- **The fixpoint.** A run that has returned solved the equation of the table. -/
theorem outcome_of_returned (h : schedule.Invariant settings) {results : List (Decision ε)}
    (hreturned : schedule.phase = .returned results) : Outcome settings results schedule.trace := by
  obtain ⟨hconsistent, hphase⟩ := h
  rw [hreturned] at hphase
  obtain ⟨hpending, rfl⟩ := hphase
  refine ⟨hconsistent.ascending, fun stage => ?_, fun decision hmem hruled => ?_,
    fun decision hmem hruled => ?_, hconsistent.ordered, hconsistent.alone⟩
  · constructor
    · intro hstage
      obtain ⟨decision, hmem, rfl⟩ := mem_map.1 hstage
      exact hconsistent.declared _
        (AList.lookup_isSome.1 (hconsistent.mem_results_iff.1 hmem ▸ rfl))
    · intro hdeclared
      have hdecided : stage ∈ schedule.decisions := by
        by_contra hnot
        have hstage := (hconsistent.pending stage).2 ⟨hdeclared, hnot⟩
        rw [hpending] at hstage
        exact not_mem_nil hstage
      obtain ⟨decision, hlookup⟩ := Option.isSome_iff_exists.1 (AList.lookup_isSome.2 hdecided)
      obtain ⟨rfl, -⟩ := hconsistent.decided stage decision hlookup
      exact mem_map.2 ⟨decision, hconsistent.mem_results_iff.2 hlookup, rfl⟩
  · rw [hconsistent.ruledOut_iff] at hruled
    rcases (hconsistent.decided _ decision (hconsistent.mem_results_iff.1 hmem)).2 with
      ⟨hstate, -, hcalls⟩ | ⟨-, hmet, -⟩
    · exact ⟨hstate, hcalls⟩
    · obtain ⟨dependency, hdependency, known, hlookup, hunmet⟩ := hruled
      obtain ⟨other, hother, hfine⟩ := hmet dependency hdependency
      rw [hlookup, Option.some.injEq] at hother
      rw [hother, hfine] at hunmet
      exact nomatch hunmet
  · rw [hconsistent.ruledOut_iff] at hruled
    rcases (hconsistent.decided _ decision (hconsistent.mem_results_iff.1 hmem)).2 with
      ⟨-, hunmet, -⟩ | ⟨hstate, -, hcalls⟩
    · exact absurd hunmet hruled
    · exact ⟨hstate, hcalls⟩

theorem invariant_of_run (htable : ValidTable settings.requirements)
    (h : Relation.ReflTransGen (Schedule.Step settings) (.initial settings) schedule) :
    schedule.Invariant settings := by
  induction h with
  | refl => exact invariant_initial
  | tail _ hstep ih => exact Invariant.step htable ih hstep

/-- Some schedule returns. -/
theorem exists_returned (settings : Settings ε) (htable : ValidTable settings.requirements) :
    ∃ schedule results,
      Relation.ReflTransGen (Schedule.Step settings) (.initial settings) schedule ∧
        schedule.phase = .returned results := by
  have hrun : ∀ schedule,
      Acc (fun after before => Schedule.Step settings before after) schedule →
      ∃ schedule' results, Relation.ReflTransGen (Schedule.Step settings) schedule schedule' ∧
        schedule'.phase = .returned results := by
    intro schedule hacc
    induction hacc with
    | intro schedule _ ih =>
      rcases progress settings schedule with ⟨results, hreturned⟩ | ⟨next, hstep⟩
      · exact ⟨schedule, results, .refl, hreturned⟩
      · obtain ⟨final, results, hrun, hreturned⟩ := ih next hstep
        exact ⟨final, results, hrun.head hstep, hreturned⟩
  exact hrun _ (acc_of_invariant htable invariant_initial)

/-- **Every schedule ends with the fixpoint.** For every valid table, class map, verdict and number
of workers: no schedule is infinite, none gets stuck before it returns, and what it returns is the
outcome of the table. -/
theorem runConcurrently_outcome (settings : Settings ε)
    (htable : ValidTable settings.requirements) :
    Acc (fun after before => Schedule.Step settings before after) (.initial settings) ∧
      ∀ schedule, Relation.ReflTransGen (Schedule.Step settings) (.initial settings) schedule →
        ((∃ results, schedule.phase = .returned results) ∨
          ∃ schedule', Schedule.Step settings schedule schedule') ∧
        ∀ results, schedule.phase = .returned results →
          Outcome settings results schedule.trace :=
  ⟨acc_of_invariant htable invariant_initial, fun schedule hrun =>
    ⟨progress settings schedule, fun _ hreturned =>
      outcome_of_returned (invariant_of_run htable hrun) hreturned⟩⟩

/-- **A failure blocks all the way down.** In every schedule, each stage that requires a failed or
blocked one, directly or through others, is recorded as blocked and never called. -/
theorem blocked_downstream (settings : Settings ε)
    (htable : ValidTable settings.requirements)
    (hrun : Relation.ReflTransGen (Schedule.Step settings) (.initial settings) schedule)
    {results : List (Decision ε)} (hreturned : schedule.phase = .returned results) :
    ∀ cause ∈ results, unmet cause.state = true → ∀ stage, Relation.TransGen
      (fun dependency stage => dependency ∈ requiresOf settings.requirements stage)
        cause.stage stage →
      stage ∈ results.map (·.stage) ∧
        (∀ decision ∈ results, decision.stage = stage → decision.state = .declared .blocked) ∧
        callsOf schedule.trace stage = [] := by
  have h := outcome_of_returned (invariant_of_run htable hrun) hreturned
  intro cause hcause hunmet stage hpath
  have hruled : RuledOut results (requiresOf settings.requirements stage) := by
    induction hpath with
    | single hrequired => exact ⟨cause, hcause, hrequired, hunmet⟩
    | tail _ hrequired ih =>
      -- the stage before it on the path was decided, and as blocked
      obtain ⟨_, hmem, -, hlisted⟩ := mem_requiresOf hrequired
      obtain ⟨known, hknown, rfl⟩ := mem_map.1 ((h.complete _).2 (htable.closed _ hmem _ hlisted))
      refine ⟨known, hknown, hrequired, ?_⟩
      rw [(h.blocked known hknown ih).1]
      rfl
  have ⟨_, _, hrequired, _⟩ := hruled
  obtain ⟨requirement, hmem, rfl, -⟩ := mem_requiresOf hrequired
  have hdecided := (h.complete _).2 (mem_map_of_mem hmem)
  obtain ⟨decision, hd, heq⟩ := mem_map.1 hdecided
  refine ⟨hdecided, fun other hother hsame => ?_, ?_⟩
  · exact (h.blocked other hother (hsame ▸ hruled)).1
  · rw [← heq] at hruled ⊢
    exact (h.blocked decision hd hruled).2

end Invariant

section Samples

/-- The second stage requires the first. -/
def sampleRequirements : List Requirement := [⟨1, []⟩, ⟨2, [1]⟩]

/-- The settings with a verdict. -/
def sampleSettings (verdict : Number → OpenEnum State) : Settings Unit where
  requirements := sampleRequirements
  classes _ := .declared .pureAST
  verdict
  maxWorkers := 1
  stageName _ := none
  noEvidence := ()

theorem sampleRequirements_valid : ValidTable sampleRequirements where
  positive := by decide
  once := by decide
  closed := by decide
  acyclic stage h := by
    have hless : ∀ requirement ∈ sampleRequirements, ∀ dependency ∈ requirement.requires,
        dependency < requirement.stage := by decide
    have hlt : Relation.TransGen (· < ·) stage stage := h.lift id fun _ _ hstep => by
      obtain ⟨requirement, hmem, rfl, hrequires⟩ := mem_requiresOf hstep
      exact hless requirement hmem _ hrequires
    rw [Relation.transGen_eq_self] at hlt
    exact lt_irrefl stage hlt

theorem sample_outcome :
    ∃ schedule results,
      Relation.ReflTransGen (Schedule.Step (sampleSettings fun _ => .declared .failed))
        (.initial (sampleSettings fun _ => .declared .failed)) schedule ∧
      schedule.phase = .returned results ∧
      Outcome (sampleSettings fun _ => .declared .failed) results schedule.trace := by
  obtain ⟨schedule, results, hrun, hreturned⟩ :=
    exists_returned (sampleSettings fun _ => .declared .failed) sampleRequirements_valid
  exact ⟨schedule, results, hrun, hreturned,
    ((runConcurrently_outcome (sampleSettings fun _ => .declared .failed)
      sampleRequirements_valid).2 schedule hrun).2 results hreturned⟩

theorem failed_sample_blocks :
    ∃ schedule results,
      Relation.ReflTransGen (Schedule.Step (sampleSettings fun _ => .declared .failed))
        (.initial (sampleSettings fun _ => .declared .failed)) schedule ∧
      schedule.phase = .returned results ∧
      ∃ decision ∈ results, decision.stage = 2 ∧ decision.state = .declared .blocked := by
  obtain ⟨schedule, results, hrun, hreturned⟩ :=
    exists_returned (sampleSettings fun _ => .declared .failed) sampleRequirements_valid
  have h := outcome_of_returned (invariant_of_run sampleRequirements_valid hrun) hreturned
  obtain ⟨cause, hcause, hfirst⟩ := mem_map.1 ((h.complete 1).2 (by decide))
  have hunmet : unmet cause.state = true := by
    by_cases hruled : RuledOut results (requiresOf sampleRequirements cause.stage)
    · rw [(h.blocked cause hcause hruled).1]
      rfl
    · rw [(h.called cause hcause hruled).1]
      rfl
  obtain ⟨hrecorded, hblocked, -⟩ := blocked_downstream _ sampleRequirements_valid hrun hreturned
    cause hcause hunmet 2 (.single (hfirst ▸ by decide))
  obtain ⟨decision, hd, hsecond⟩ := mem_map.1 hrecorded
  exact ⟨schedule, results, hrun, hreturned, decision, hd, hsecond, hblocked decision hd hsecond⟩

/-- A runner that says itself that a stage is blocked has its verdict recorded, although the stage
requires nothing. -/
theorem verdict_may_be_blocked :
    ∃ schedule results,
      Relation.ReflTransGen (Schedule.Step (sampleSettings fun _ => .declared .blocked))
        (.initial (sampleSettings fun _ => .declared .blocked)) schedule ∧
      schedule.phase = .returned results ∧
      ∃ decision ∈ results, decision.state = .declared .blocked ∧
        requiresOf sampleRequirements decision.stage = [] := by
  obtain ⟨schedule, results, hrun, hreturned⟩ :=
    exists_returned (sampleSettings fun _ => .declared .blocked) sampleRequirements_valid
  have houtcome := outcome_of_returned (invariant_of_run sampleRequirements_valid hrun) hreturned
  have hdeclared : (1 : Number) ∈ sampleRequirements.map (·.stage) := mem_cons_self
  obtain ⟨decision, hmem, hstage⟩ := mem_map.1 ((houtcome.complete 1).2 hdeclared)
  have hroot : requiresOf sampleRequirements decision.stage = [] := by
    rw [hstage]
    decide
  refine ⟨schedule, results, hrun, hreturned, decision, hmem, ?_, hroot⟩
  refine (houtcome.called decision hmem fun hruled => ?_).1
  obtain ⟨other, -, hother, -⟩ := hruled
  rw [show requiresOf (sampleSettings fun _ => .declared .blocked).requirements decision.stage = []
    from hroot] at hother
  exact not_mem_nil hother

end Samples

end Codeflux.Pipeline
