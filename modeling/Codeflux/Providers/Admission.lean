import Codeflux.Library.Run
import Codeflux.Domain.Failure

/-!
# The admission point of physical requests

A channel holds one token for each idle slot. Releasing a token puts it back, unless the ceiling has
been narrowed and a slot is still owed. Ceiling and debt are guarded by a mutex, the channel is not:
the steps of this model are the operations on the channel and the parts of the critical sections
between them.
-/

namespace Codeflux.Providers

open Library

/-- Who is in the critical section. -/
inductive CriticalSection
  | free
  /-- A release that has found no debt and puts its token back. -/
  | returning (ticket : Nat)
  /-- A narrowing to `target` that drains the channel. -/
  | draining (target : Int)
deriving DecidableEq

/-- The admission point. A ticket is the number of an admitted request; its flag says whether the
release of the request has been done. -/
structure AdmissionController where
  maximum : Nat
  /-- The tokens in the channel, whose capacity is `maximum`. -/
  idle : Nat
  ceiling : Nat
  drainDebt : Nat := 0
  released : List Bool := []
  critical : CriticalSection := .free
  /-- The arguments of the narrowings that have returned. -/
  narrowed : List Int := []
deriving DecidableEq

/-- A controller with all slots idle. -/
def newAdmissionController (maximumConcurrency : Int) : Result AdmissionController := do
  ensure (1 ≤ maximumConcurrency)
    (.new "admission controller maximum concurrency must be at least one")
  let maximum := maximumConcurrency.toNat
  return { maximum, idle := maximum, ceiling := maximum }

/-- The atomic steps. -/
inductive AdmissionStep
  /-- `Acquire` takes a token. -/
  | acquire
  /-- A release function is called, for the first time or again. -/
  | release (ticket : Nat)
  /-- The release in the critical section puts its token back. -/
  | send
  /-- `Narrow` enters the critical section and updates the counters. -/
  | narrow (newCeiling : Int)
  /-- The narrowing takes an idle token. -/
  | drain
  /-- The narrowing returns. -/
  | leave

namespace AdmissionController

variable (s : AdmissionController)

/-- The slots that are held by admitted requests. -/
def inFlight : Nat := s.released.count false

/-- The first call of the release function of a ticket. -/
def enterRelease (ticket : Nat) : AdmissionController :=
  if 0 < s.drainDebt then
    { s with drainDebt := s.drainDebt - 1, released := s.released.set ticket true }
  else { s with critical := .returning ticket }

/-- The counters after a call of `Narrow`. The ceiling only ever falls, to no less than one. -/
def enterNarrow (newCeiling : Int) : AdmissionController :=
  let target := max 1 newCeiling
  if s.ceiling ≤ target then { s with narrowed := newCeiling :: s.narrowed }
  else
    { s with
      ceiling := target.toNat
      drainDebt := s.drainDebt + (s.ceiling - target.toNat)
      critical := .draining newCeiling }

/-- One atomic step, when it is possible: a channel operation that would block and a critical
section that is taken are not. -/
def step : AdmissionStep → Option AdmissionController
  | .acquire =>
    if 0 < s.idle then some { s with idle := s.idle - 1, released := s.released ++ [false] }
    else none
  | .release ticket =>
    match s.released[ticket]? with
    | none => none
    | some true => some s
    | some false => if s.critical = .free then some (s.enterRelease ticket) else none
  | .send =>
    match s.critical with
    | .returning ticket =>
      if s.idle < s.maximum then
        some { s with
          idle := s.idle + 1, released := s.released.set ticket true, critical := .free }
      else none
    | _ => none
  | .narrow newCeiling => if s.critical = .free then some (s.enterNarrow newCeiling) else none
  | .drain =>
    match s.critical with
    | .draining _ =>
      if 0 < s.drainDebt ∧ 0 < s.idle then
        some { s with idle := s.idle - 1, drainDebt := s.drainDebt - 1 }
      else none
    | _ => none
  | .leave =>
    match s.critical with
    | .draining target =>
      if s.drainDebt = 0 ∨ s.idle = 0 then
        some { s with critical := .free, narrowed := target :: s.narrowed }
      else none
    | _ => none

/-- The states that a new controller reaches. -/
def Reached (maximumConcurrency : Int) : AdmissionController → Prop :=
  Reachable (fun s => newAdmissionController maximumConcurrency = .ok s)
    fun s t => ∃ op, s.step op = some t

/-- Is no narrowing in the critical section? -/
def outsideNarrow : Bool :=
  match s.critical with
  | .draining _ => false
  | _ => true

theorem count_set_released {released : List Bool} {ticket : Nat}
    (h : released[ticket]? = some false) :
    (released.set ticket true).count false + 1 = released.count false := by
  obtain ⟨hlt, hflag⟩ := List.getElem?_eq_some_iff.1 h
  have hpos : 0 < released.count false :=
    List.count_pos_iff.2 (hflag ▸ List.getElem_mem hlt)
  rw [List.count_set hlt, hflag]
  simp only [BEq.rfl, ↓reduceIte, Bool.true_beq, Bool.false_eq_true]
  omega

@[simp] theorem inFlight_append_held (idle : Nat) :
    { s with idle, released := s.released ++ [false] }.inFlight = s.inFlight + 1 := by
  simp [inFlight]

/-! ### What a step does -/

/-- The steps with their guards: what each one needs and what it changes. -/
inductive Moves : AdmissionController → AdmissionStep → AdmissionController → Prop
  | acquire {s : AdmissionController} (h : 0 < s.idle) :
      Moves s .acquire { s with idle := s.idle - 1, released := s.released ++ [false] }
  | again {s : AdmissionController} (ticket : Nat) (h : s.released[ticket]? = some true) :
      Moves s (.release ticket) s
  | pay {s : AdmissionController} (ticket : Nat) (h : s.released[ticket]? = some false)
      (hfree : s.critical = .free) (hdebt : 0 < s.drainDebt) :
      Moves s (.release ticket)
        { s with drainDebt := s.drainDebt - 1, released := s.released.set ticket true }
  | keep {s : AdmissionController} (ticket : Nat) (h : s.released[ticket]? = some false)
      (hfree : s.critical = .free) (hdebt : s.drainDebt = 0) :
      Moves s (.release ticket) { s with critical := .returning ticket }
  | send {s : AdmissionController} (ticket : Nat) (h : s.critical = .returning ticket)
      (hroom : s.idle < s.maximum) :
      Moves s .send { s with
        idle := s.idle + 1, released := s.released.set ticket true, critical := .free }
  | widen {s : AdmissionController} (n : Int) (hfree : s.critical = .free)
      (h : (s.ceiling : Int) ≤ max 1 n) :
      Moves s (.narrow n) { s with narrowed := n :: s.narrowed }
  | narrow {s : AdmissionController} (n : Int) (hfree : s.critical = .free)
      (h : max 1 n < s.ceiling) :
      Moves s (.narrow n) { s with
        ceiling := (max 1 n).toNat
        drainDebt := s.drainDebt + (s.ceiling - (max 1 n).toNat)
        critical := .draining n }
  | drain {s : AdmissionController} (n : Int) (h : s.critical = .draining n)
      (hdebt : 0 < s.drainDebt) (hidle : 0 < s.idle) :
      Moves s .drain { s with idle := s.idle - 1, drainDebt := s.drainDebt - 1 }
  | leave {s : AdmissionController} (n : Int) (h : s.critical = .draining n)
      (hdone : s.drainDebt = 0 ∨ s.idle = 0) :
      Moves s .leave { s with critical := .free, narrowed := n :: s.narrowed }

theorem moves_of_step {s t : AdmissionController} {op : AdmissionStep} (h : s.step op = some t) :
    Moves s op t := by
  revert h
  fun_cases step s op with
  | case1 hidle =>
    rintro ⟨⟩
    exact .acquire hidle
  | case4 ticket hflag =>
    rintro ⟨⟩
    exact .again ticket hflag
  | case5 ticket hflag hfree =>
    rintro ⟨⟩
    unfold enterRelease
    split_ifs with hdebt
    · exact .pay ticket hflag hfree hdebt
    · exact .keep ticket hflag hfree (by omega)
  | case7 ticket hcritical hroom =>
    rintro ⟨⟩
    exact .send ticket hcritical hroom
  | case10 n hfree =>
    rintro ⟨⟩
    unfold enterNarrow
    simp only
    split_ifs with hceiling
    · exact .widen n hfree hceiling
    · exact .narrow n hfree (by omega)
  | case12 n hcritical h =>
    rintro ⟨⟩
    exact .drain n hcritical h.1 h.2
  | case15 n hcritical hdone =>
    rintro ⟨⟩
    exact .leave n hcritical hdone
  -- the other steps are not possible
  | _ => exact nofun

end AdmissionController

open AdmissionController

/-! ### Conservation -/

/-- What ties the slots, the ceiling and the debt together. -/
structure Conserved (s : AdmissionController) : Prop where
  slots : s.idle + s.inFlight = s.ceiling + s.drainDebt
  positive : 1 ≤ s.ceiling
  bounded : s.ceiling ≤ s.maximum
  /-- Outside a narrowing, a debt is only left when no slot is idle. -/
  owed : s.outsideNarrow = true → 0 < s.drainDebt → s.idle = 0
  /-- The release in the critical section holds its slot, and has found no debt. -/
  returning : ∀ ticket, s.critical = .returning ticket →
    s.drainDebt = 0 ∧ s.released[ticket]? = some false
  /-- A narrowing in the critical section has set the ceiling. -/
  draining : ∀ n, s.critical = .draining n → (s.ceiling : Int) = max 1 n
  ceiling : ∀ n ∈ s.narrowed, (s.ceiling : Int) ≤ max 1 n
  /-- While a slot is idle, all slots are within the ceiling of every narrowing that returned. -/
  settled : ∀ n ∈ s.narrowed, 0 < s.idle → ((s.idle + s.inFlight : Nat) : Int) ≤ max 1 n

variable {s t : AdmissionController} {op : AdmissionStep}

variable {maximumConcurrency n : Int} {ticket : Nat}

theorem newAdmissionController_conserved (h : newAdmissionController maximumConcurrency = .ok s) :
    Conserved s := by
  simp only [newAdmissionController, run_ok_iff] at h
  obtain ⟨_, hone, rfl⟩ := h
  refine ⟨rfl, ?_, le_rfl, ?_, ?_, ?_, ?_, ?_⟩
  · show 1 ≤ maximumConcurrency.toNat
    omega
  all_goals simp

theorem outsideNarrow_of_free (h : s.critical = .free) : s.outsideNarrow = true := by
  simp [outsideNarrow, h]

section

variable (hs : Conserved s)

include hs

/-- With an idle slot outside a narrowing nothing is owed, and all slots are within the ceiling. -/
theorem Conserved.within (hout : s.outsideNarrow = true) (hidle : 0 < s.idle) :
    s.idle + s.inFlight = s.ceiling := by
  have hslots := hs.slots
  have hdebt : s.drainDebt = 0 := by
    by_contra hpos
    have := hs.owed hout (Nat.pos_of_ne_zero hpos)
    omega
  omega

theorem Conserved.acquire (hidle : 0 < s.idle) :
    Conserved { s with idle := s.idle - 1, released := s.released ++ [false] } := by
  have hslots := hs.slots
  refine ⟨?_, hs.positive, hs.bounded, ?_, ?_, hs.draining, hs.ceiling, ?_⟩
  · rw [inFlight_append_held]
    show s.idle - 1 + (s.inFlight + 1) = s.ceiling + s.drainDebt
    omega
  · intro hout hdebt
    exact absurd (hs.owed hout hdebt) hidle.ne'
  · intro ticket hcritical
    obtain ⟨hdebt, hflag⟩ := hs.returning ticket hcritical
    exact ⟨hdebt, by rw [List.getElem?_append_left (List.getElem?_eq_some_iff.1 hflag).1, hflag]⟩
  · intro n hn _
    have hsettled := hs.settled n hn hidle
    rw [inFlight_append_held]
    show ((s.idle - 1 + (s.inFlight + 1) : Nat) : Int) ≤ max 1 n
    omega

theorem Conserved.pay (hflag : s.released[ticket]? = some false)
    (hfree : s.critical = .free) (hdebt : 0 < s.drainDebt) :
    Conserved
      { s with drainDebt := s.drainDebt - 1, released := s.released.set ticket true } := by
  have hslots : s.idle + s.released.count false = s.ceiling + s.drainDebt := hs.slots
  have hheld := count_set_released hflag
  have hidle := hs.owed (outsideNarrow_of_free hfree) hdebt
  refine ⟨?_, hs.positive, hs.bounded, fun _ _ => hidle, ?_, hs.draining, hs.ceiling, ?_⟩
  · show s.idle + (s.released.set ticket true).count false = s.ceiling + (s.drainDebt - 1)
    omega
  · intro other hother
    rw [hfree] at hother
    cases hother
  · intro n _ hpos
    exact absurd hidle (Nat.ne_of_gt hpos)

theorem Conserved.keep (hflag : s.released[ticket]? = some false)
    (hdebt : s.drainDebt = 0) : Conserved { s with critical := .returning ticket } := by
  refine ⟨hs.slots, hs.positive, hs.bounded, ?_, ?_, ?_, hs.ceiling, hs.settled⟩
  · exact fun _ hpos => absurd hdebt (Nat.ne_of_gt hpos)
  · rintro other ⟨⟩
    exact ⟨hdebt, hflag⟩
  · rintro n ⟨⟩

theorem Conserved.send (hcritical : s.critical = .returning ticket) :
    Conserved { s with
      idle := s.idle + 1, released := s.released.set ticket true, critical := .free } := by
  obtain ⟨hdebt, hflag⟩ := hs.returning ticket hcritical
  have hslots : s.idle + s.released.count false = s.ceiling + s.drainDebt := hs.slots
  have hheld := count_set_released hflag
  refine ⟨?_, hs.positive, hs.bounded, ?_, ?_, ?_, hs.ceiling, ?_⟩
  · show s.idle + 1 + (s.released.set ticket true).count false = s.ceiling + s.drainDebt
    omega
  · exact fun _ hpos => absurd hdebt (Nat.ne_of_gt hpos)
  · rintro other ⟨⟩
  · rintro n ⟨⟩
  · intro n hn _
    have hceiling := hs.ceiling n hn
    show ((s.idle + 1 + (s.released.set ticket true).count false : Nat) : Int) ≤ max 1 n
    omega

theorem Conserved.widen (hfree : s.critical = .free) (hceiling : (s.ceiling : Int) ≤ max 1 n) :
    Conserved { s with narrowed := n :: s.narrowed } := by
  refine ⟨hs.slots, hs.positive, hs.bounded, hs.owed, hs.returning, hs.draining, ?_, ?_⟩
  · exact List.forall_mem_cons.2 ⟨hceiling, hs.ceiling⟩
  · refine List.forall_mem_cons.2 ⟨fun hidle => ?_, hs.settled⟩
    have hwithin := hs.within (outsideNarrow_of_free hfree) hidle
    show ((s.idle + s.inFlight : Nat) : Int) ≤ max 1 n
    omega

theorem Conserved.narrow (hfree : s.critical = .free) (hceiling : max 1 n < (s.ceiling : Int)) :
    Conserved { s with
      ceiling := (max 1 n).toNat
      drainDebt := s.drainDebt + (s.ceiling - (max 1 n).toNat)
      critical := .draining n } := by
  have hslots := hs.slots
  have hbounded := hs.bounded
  refine ⟨?_, ?_, ?_, ?_, ?_, ?_, ?_, ?_⟩
  · show s.idle + s.inFlight = (max 1 n).toNat + (s.drainDebt + (s.ceiling - (max 1 n).toNat))
    omega
  · show 1 ≤ (max 1 n).toNat
    omega
  · show (max 1 n).toNat ≤ s.maximum
    omega
  · rintro ⟨⟩
  · rintro ticket ⟨⟩
  · rintro m ⟨⟩
    show ((max 1 n).toNat : Int) = max 1 n
    omega
  · intro m hm
    have hm := hs.ceiling m hm
    show ((max 1 n).toNat : Int) ≤ max 1 m
    omega
  · intro m hm hidle
    have hwithin := hs.within (outsideNarrow_of_free hfree) hidle
    have hm := hs.ceiling m hm
    show ((s.idle + s.inFlight : Nat) : Int) ≤ max 1 m
    omega

theorem Conserved.drain (hcritical : s.critical = .draining n)
    (hdebt : 0 < s.drainDebt) (hidle : 0 < s.idle) :
    Conserved { s with idle := s.idle - 1, drainDebt := s.drainDebt - 1 } := by
  have hslots := hs.slots
  refine ⟨?_, hs.positive, hs.bounded, ?_, ?_, hs.draining, hs.ceiling, ?_⟩
  · show s.idle - 1 + s.inFlight = s.ceiling + (s.drainDebt - 1)
    omega
  · intro hout
    simp [outsideNarrow, hcritical] at hout
  · intro ticket hreturning
    rw [hcritical] at hreturning
    cases hreturning
  · intro m hm _
    have hsettled := hs.settled m hm hidle
    show ((s.idle - 1 + s.inFlight : Nat) : Int) ≤ max 1 m
    omega

theorem Conserved.leave (hcritical : s.critical = .draining n)
    (hdone : s.drainDebt = 0 ∨ s.idle = 0) :
    Conserved { s with critical := .free, narrowed := n :: s.narrowed } := by
  have hslots := hs.slots
  have hceiling := hs.draining n hcritical
  refine ⟨hs.slots, hs.positive, hs.bounded, ?_, ?_, ?_, ?_, ?_⟩
  · exact fun _ hpos => hdone.resolve_left (Nat.ne_of_gt hpos)
  · rintro ticket ⟨⟩
  · rintro m ⟨⟩
  · exact List.forall_mem_cons.2 ⟨Int.le_of_eq hceiling, hs.ceiling⟩
  · refine List.forall_mem_cons.2 ⟨fun hidle => ?_, hs.settled⟩
    have hdebt : s.drainDebt = 0 := hdone.resolve_right (Nat.ne_of_gt hidle)
    show ((s.idle + s.inFlight : Nat) : Int) ≤ max 1 n
    omega

/-- **Each atomic step keeps the invariant.** -/
theorem Conserved.step (h : s.step op = some t) : Conserved t := by
  cases moves_of_step h with
  | acquire hidle => exact hs.acquire hidle
  | again ticket hflag => exact hs
  | pay ticket hflag hfree hdebt => exact hs.pay hflag hfree hdebt
  | keep ticket hflag hfree hdebt => exact hs.keep hflag hdebt
  | send ticket hcritical hroom => exact hs.send hcritical
  | widen n hfree hceiling => exact hs.widen hfree hceiling
  | narrow n hfree hceiling => exact hs.narrow hfree hceiling
  | drain n hcritical hdebt hidle => exact hs.drain hcritical hdebt hidle
  | leave n hcritical hdone => exact hs.leave hcritical hdone

end

theorem AdmissionController.Reached.conserved (h : Reached maximumConcurrency s) : Conserved s :=
  Reachable.invariant h (fun _ => newAdmissionController_conserved)
    fun _ _ hs ⟨_, hstep⟩ => hs.step hstep

theorem ceiling_le_of_step (h : s.step op = some t) : t.ceiling ≤ s.ceiling := by
  cases moves_of_step h with
  | narrow n hfree hceiling =>
    show (max 1 n).toNat ≤ s.ceiling
    omega
  | _ => exact le_rfl

theorem Conserved.send_isSome (hs : Conserved s) (hcritical : s.critical = .returning ticket) :
    (s.step .send).isSome = true := by
  obtain ⟨hdebt, hflag⟩ := hs.returning ticket hcritical
  have hslots := hs.slots
  have hbounded := hs.bounded
  have hheld : 0 < s.inFlight := by
    have hset := count_set_released hflag
    show 0 < s.released.count false
    omega
  have hroom : s.idle < s.maximum := by omega
  simp [AdmissionController.step, hcritical, hroom]

/-- What is asked of a state of a run: the account of the slots, and what the next step does. -/
structure Admission (s : AdmissionController) : Prop where
  account : s.outsideNarrow = true → s.idle + s.inFlight = s.ceiling + s.drainDebt
  owed : s.outsideNarrow = true → 0 < s.drainDebt → s.idle = 0
  /-- A release that has entered the critical section does not block on the channel. -/
  sends : ∀ ticket, s.critical = .returning ticket → (s.step .send).isSome = true
  /-- Calling a release function again changes nothing. -/
  again : ∀ ticket, s.released[ticket]? = some true → s.step (.release ticket) = some s
  positive : 1 ≤ s.ceiling
  falls : ∀ op t, s.step op = some t → t.ceiling ≤ s.ceiling
  /-- What is in flight after an `Acquire` is within every narrowing that returned before it. -/
  admits : ∀ n ∈ s.narrowed, ∀ t, s.step .acquire = some t → (t.inFlight : Int) ≤ max 1 n
  /-- When every slot has been released, nothing is owed and the whole ceiling is idle. -/
  restored : s.outsideNarrow = true → s.inFlight = 0 → s.drainDebt = 0 ∧ s.idle = s.ceiling

/-- **Slots are conserved in every state of every run of the admission point.** -/
theorem admission_conserves (maximumConcurrency : Int) (s : AdmissionController)
    (h : Reached maximumConcurrency s) : Admission s := by
  have hs := h.conserved
  refine ⟨fun _ => hs.slots, hs.owed, fun _ => hs.send_isSome, ?_, hs.positive,
    fun _ _ => ceiling_le_of_step, ?_, ?_⟩
  · intro ticket hflag
    simp [AdmissionController.step, hflag]
  · intro n hn t hstep
    cases moves_of_step hstep with
    | acquire hidle =>
      have hsettled := hs.settled n hn hidle
      rw [inFlight_append_held]
      omega
  · intro hout hflight
    have hslots := hs.slots
    have howed := hs.owed hout
    omega

/-- Two slots are taken, the admission point is narrowed to one, and a release pays the debt. -/
theorem admission_of_narrowedPair :
    ∃ s, Reached 2 s ∧ Admission s ∧ s.narrowed = [1] ∧ s.inFlight = 1 := by
  have hnew : newAdmissionController 2 = .ok { maximum := 2, idle := 2, ceiling := 2 } := by decide
  have hheld : Reached 2 { maximum := 2, idle := 0, ceiling := 2, released := [false, false] } :=
    .step (.step (.init hnew) ⟨.acquire, rfl⟩) ⟨.acquire, rfl⟩
  have hreached : Reached 2
      { maximum := 2, idle := 0, ceiling := 1, released := [true, false], narrowed := [1] } :=
    .step (.step (.step hheld ⟨.narrow 1, rfl⟩) ⟨.leave, rfl⟩) ⟨.release 0, rfl⟩
  exact ⟨_, hreached, admission_conserves 2 _ hreached, rfl, rfl⟩

/-- After `Narrow(0)` has returned, an `Acquire` still succeeds and leaves one slot in flight. -/
theorem narrowToZero_admits :
    ∃ s t, Reached 1 s ∧ 0 ∈ s.narrowed ∧ s.step .acquire = some t ∧ ¬(t.inFlight : Int) ≤ 0 := by
  have hnew : newAdmissionController 1 = .ok { maximum := 1, idle := 1, ceiling := 1 } := by decide
  refine ⟨{ maximum := 1, idle := 1, ceiling := 1, narrowed := [0] }, _,
    .step (.init hnew) ⟨.narrow 0, rfl⟩, by decide, rfl, by decide⟩

end Codeflux.Providers
