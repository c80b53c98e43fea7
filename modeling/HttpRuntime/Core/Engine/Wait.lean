import HttpRuntime.Core.Engine.Basic
import HttpRuntime.Lib.Loop
import Mathlib.Algebra.Order.Floor.Div

/-!
This module contains `wait_for_response` for any answers of the database, with the `int` that counts
the time.
-/

open Lib Lib.Loop

namespace HttpRuntime

-- The time that is counted, and how often the database was asked.
structure Waiting where
  elapsed : Int
  polls : Nat

def Waiting.start : Waiting where
  elapsed := 0
  polls := 0

/--
One round of `wait_for_response`, where `poll k` is what the database answers the poll `k`. The result
has the number of polls, and no result is the overflow of `elapsed`.
-/
def waitRound (timeoutMs : Int) (poll : Nat → Option Response) (s : Waiting)
    : Waiting ⊕ Option (Option Response × Nat) :=
  if s.elapsed < timeoutMs then
    match poll s.polls with
    | some resp => .inr (some (some resp, s.polls + 1))
    | none =>
      match addInt s.elapsed usleepMs with
      | none => .inr none
      | some elapsed => .inl ⟨elapsed, s.polls + 1⟩
  else
    .inr (some (none, s.polls))

theorem waitTimeout_pos (plan : RunPlan) (requestCase : RequestCase)
    : 0 < waitTimeout plan requestCase := by
  unfold waitTimeout
  dsimp only
  split <;> omega

-- The last time that can be counted.
def lastElapsed : Int := 2147483600

def lastPoll : Nat := 21474836

section Wait

variable {timeoutMs : Int} {poll : Nat → Option Response} {s s' : Waiting}

/-- The polls so far were all in time, and saw no response. -/
structure Polled (timeoutMs : Int) (poll : Nat → Option Response) (s : Waiting) : Prop where
  elapsed : s.elapsed = usleepMs * s.polls
  inTime : ∀ k, k < s.polls → usleepMs * k < timeoutMs
  sawNone : ∀ k, k < s.polls → poll k = none

theorem polled_start (timeoutMs : Int) (poll : Nat → Option Response)
    : Polled timeoutMs poll .start where
  elapsed := rfl
  inTime := by
    intro k hk
    cases hk
  sawNone := by
    intro k hk
    cases hk

theorem waitRound_goesOn (h : waitRound timeoutMs poll s = .inl s')
    : s.elapsed < timeoutMs ∧ poll s.polls = none ∧ s.elapsed + usleepMs < 2 ^ 31 ∧
        s' = ⟨s.elapsed + usleepMs, s.polls + 1⟩ := by
  unfold waitRound at h
  split at h
  . next htime =>
    split at h
    . cases h
    . next hpoll =>
      split at h
      . cases h
      . next elapsed hadd =>
        obtain ⟨⟨_, hlt⟩, rfl⟩ := addInt_eq_some_iff.mp hadd
        exact ⟨htime, hpoll, hlt, (Sum.inl.inj h).symm⟩
  . cases h

theorem waitRound_of_none (htime : s.elapsed < timeoutMs) (hpoll : poll s.polls = none)
    (hadd : addInt s.elapsed usleepMs = some (s.elapsed + usleepMs))
    : waitRound timeoutMs poll s = .inl ⟨s.elapsed + usleepMs, s.polls + 1⟩ := by
  unfold waitRound
  rw [if_pos htime, hpoll]
  dsimp only
  rw [hadd]

theorem Polled.next (h : Polled timeoutMs poll s) (hround : waitRound timeoutMs poll s = .inl s')
    : Polled timeoutMs poll s' := by
  obtain ⟨htime, hpoll, _, rfl⟩ := waitRound_goesOn hround
  have helapsed := h.elapsed
  constructor
  . dsimp only
    rw [helapsed, Nat.cast_succ, mul_add, mul_one]
  . intro k hk
    cases Nat.lt_succ_iff_lt_or_eq.mp hk with
    | inl hk => exact h.inTime k hk
    | inr hk =>
      rw [hk, ← helapsed]
      exact htime
  . intro k hk
    cases Nat.lt_succ_iff_lt_or_eq.mp hk with
    | inl hk => exact h.sawNone k hk
    | inr hk =>
      rw [hk]
      exact hpoll

/-- A wait that asks at most as often as the timeout allows, and returns what it first sees. -/
structure Exact (timeoutMs : Int) (poll : Nat → Option Response) (res : Option Response × Nat) : Prop where
  bounded : res.2 ≤ timeoutMs.toNat ⌈/⌉ usleepMs.toNat
  first : ∀ resp, res.1 = some resp → ∃ k, res.2 = k + 1 ∧ poll k = some resp ∧ ∀ j, j < k → poll j = none
  timedOut : res.1 = none →
    res.2 = timeoutMs.toNat ⌈/⌉ usleepMs.toNat ∧ ∀ k, k < res.2 → poll k = none

theorem ceilDiv_usleepMs (timeoutMs : Int)
    : timeoutMs.toNat ⌈/⌉ usleepMs.toNat = (timeoutMs.toNat + 99) / 100 :=
  Nat.ceilDiv_eq_add_pred_div _ _

theorem Polled.overflows (h : Polled timeoutMs poll s) (hround : waitRound timeoutMs poll s = .inr none)
    : s.elapsed < timeoutMs ∧ poll s.polls = none ∧ ¬ s.elapsed + usleepMs < 2 ^ 31 := by
  have helapsed : s.elapsed = 100 * s.polls := h.elapsed
  unfold waitRound at hround
  split at hround
  . next htime =>
    split at hround
    . cases hround
    . next hpoll =>
      refine ⟨htime, hpoll, ?_⟩
      intro hlt
      have hadd : addInt s.elapsed usleepMs = some (s.elapsed + usleepMs) := by
        rw [addInt_eq_some_iff]
        unfold usleepMs at hlt ⊢
        omega
      rw [hadd] at hround
      cases hround
  . cases hround

theorem Polled.exact {res : Option Response × Nat} (h : Polled timeoutMs poll s)
    (hround : waitRound timeoutMs poll s = .inr (some res)) : Exact timeoutMs poll res := by
  have helapsed : s.elapsed = 100 * s.polls := h.elapsed
  unfold waitRound at hround
  split at hround
  . next htime =>
    split at hround
    . next resp hpoll =>
      obtain rfl := Option.some.inj (Sum.inr.inj hround)
      constructor
      . rw [ceilDiv_usleepMs]
        dsimp only
        omega
      . intro resp' hresp
        obtain rfl := Option.some.inj hresp
        exact ⟨s.polls, rfl, hpoll, h.sawNone⟩
      . intro hnone
        cases hnone
    . split at hround
      . cases hround
      . cases hround
  . next htime =>
    obtain rfl := Option.some.inj (Sum.inr.inj hround)
    have hpolls : s.polls = timeoutMs.toNat ⌈/⌉ usleepMs.toNat := by
      rw [ceilDiv_usleepMs]
      cases hcount : s.polls with
      | zero => omega
      | succ k =>
        have hlast : 100 * (k : Int) < timeoutMs := h.inTime k (by omega)
        omega
    constructor
    . exact Nat.le_of_eq hpolls
    . intro resp hresp
      cases hresp
    . intro _
      exact ⟨hpolls, h.sawNone⟩

/-- What keeps `elapsed` in the range: the timeout, or a response that comes before the overflow. -/
def InTime (timeoutMs : Int) (poll : Nat → Option Response) : Prop :=
  timeoutMs ≤ lastElapsed ∨ ∃ k, k ≤ lastPoll ∧ poll k ≠ none

theorem Polled.no_overflow (h : Polled timeoutMs poll s) (hin : InTime timeoutMs poll)
    (htime : s.elapsed < timeoutMs) (hpoll : poll s.polls = none) : s.elapsed + usleepMs < 2 ^ 31 := by
  have helapsed : s.elapsed = 100 * s.polls := h.elapsed
  unfold usleepMs
  cases hin with
  | inl hle =>
    unfold lastElapsed at hle
    omega
  | inr hseen =>
    obtain ⟨k, hk, hresp⟩ := hseen
    have hlt : s.polls < k := by
      by_contra hge
      cases Nat.lt_or_eq_of_le (Nat.not_lt.mp hge) with
      | inl hlt => exact hresp (h.sawNone k hlt)
      | inr heq => exact hresp (heq ▸ hpoll)
    unfold lastPoll at hk
    omega

/-- The loop comes to every poll before which the time is not over and nothing is seen. -/
theorem reaches_poll (k : Nat) (htime : ∀ j, j < k → usleepMs * j < timeoutMs)
    (hnone : ∀ j, j < k → poll j = none) (hk : usleepMs * k < 2 ^ 31)
    : Reaches (waitRound timeoutMs poll) .start ⟨usleepMs * k, k⟩ := by
  induction k with
  | zero => exact .refl
  | succ k ih =>
    rw [Nat.cast_succ, mul_add, mul_one] at hk ⊢
    have hless : usleepMs * k < 2 ^ 31 := lt_trans (lt_add_of_pos_right _ (by decide)) hk
    have hreaches := ih (fun j hj => htime j (by omega)) (fun j hj => hnone j (by omega)) hless
    have hadd : addInt (usleepMs * k) usleepMs = some (usleepMs * k + usleepMs) := by
      rw [addInt_eq_some_iff]
      unfold usleepMs at hk ⊢
      omega
    apply hreaches.tail
    exact waitRound_of_none (htime k (Nat.lt_succ_self k)) (hnone k (Nat.lt_succ_self k)) hadd

end Wait

/--
The wait for the response to a case: its timeout is positive, it ends with what the polls see, and no sum
that the loop makes of `elapsed` leaves the range of `int`.
-/
structure WaitsExactly (plan : RunPlan) (requestCase : RequestCase) (poll : Nat → Option Response)
    : Prop where
  positive : 0 < waitTimeout plan requestCase
  returns : ∃ rounds res,
    within (waitRound (waitTimeout plan requestCase) poll) rounds .start = some (some res) ∧
      Exact (waitTimeout plan requestCase) poll res
  inRange : ∀ s, Reaches (waitRound (waitTimeout plan requestCase) poll) .start s →
    s.elapsed < waitTimeout plan requestCase → poll s.polls = none → s.elapsed + usleepMs < 2 ^ 31

section Wait

variable {plan : RunPlan} {requestCase : RequestCase} {poll : Nat → Option Response}

theorem waitsExactly_of_inTime (h : InTime (waitTimeout plan requestCase) poll)
    : WaitsExactly plan requestCase poll := by
  have hpolled {s : Waiting} (hreaches : Reaches (waitRound (waitTimeout plan requestCase) poll) .start s)
      : Polled (waitTimeout plan requestCase) poll s :=
    hreaches.of_invariant (polled_start _ _) (fun _ _ hs hround => hs.next hround)
  have hround (s s' : Waiting) (hs : Polled (waitTimeout plan requestCase) poll s)
      (hnext : waitRound (waitTimeout plan requestCase) poll s = .inl s')
      : Polled (waitTimeout plan requestCase) poll s' ∧
          (waitTimeout plan requestCase - s'.elapsed).toNat <
            (waitTimeout plan requestCase - s.elapsed).toNat := by
    refine ⟨hs.next hnext, ?_⟩
    obtain ⟨htime, _, _, rfl⟩ := waitRound_goesOn hnext
    unfold usleepMs
    dsimp only
    omega
  constructor
  . exact waitTimeout_pos plan requestCase
  . obtain ⟨res, hres⟩ := @within_of_measure _ _ _ _ _
      (fun s => (waitTimeout plan requestCase - s.elapsed).toNat) (polled_start _ _) hround _
      (Nat.lt_succ_self _)
    obtain ⟨s, hreaches, hleaves⟩ := reaches_of_within hres
    cases res with
    | none =>
      obtain ⟨htime, hpoll, hover⟩ := (hpolled hreaches).overflows hleaves
      exact absurd ((hpolled hreaches).no_overflow h htime hpoll) hover
    | some res => exact ⟨_, res, hres, (hpolled hreaches).exact hleaves⟩
  . intro s hreaches htime hpoll
    exact (hpolled hreaches).no_overflow h htime hpoll

theorem inTime_of_waitsExactly (h : WaitsExactly plan requestCase poll)
    : InTime (waitTimeout plan requestCase) poll := by
  unfold InTime
  by_contra hnot
  rw [not_or, not_exists, not_le] at hnot
  obtain ⟨hlate, hnone⟩ := hnot
  have hsaw (k : Nat) (hk : k ≤ lastPoll) : poll k = none := by
    by_contra hresp
    exact hnone k ⟨hk, hresp⟩
  have hlast : usleepMs * lastPoll = lastElapsed := rfl
  have htime (j : Nat) (hj : j < lastPoll) : usleepMs * j < waitTimeout plan requestCase := by
    unfold usleepMs lastPoll at *
    omega
  have hreaches := @reaches_poll _ poll lastPoll htime (fun j hj => hsaw j (Nat.le_of_lt hj))
    (by rw [hlast]; decide)
  rw [hlast] at hreaches
  exact absurd (h.inRange _ hreaches hlate (hsaw lastPoll (Nat.le_refl _))) (by decide)

section Client

variable {sys : Engine} {env : ClientEnv} {i : Nat} {elapsed : Int}

-- What the database answers to a client that polls.
def Engine.polled (sys : Engine) (env : ClientEnv) (i : Nat) : Option Response × Conn :=
  (dbGetLatestResponseByRequestId (sys.client.requestIds i)).run answer env.calls sys.conn

theorem clientStep_wait (hpc : sys.client.pc = .wait i elapsed) (hcase : plan.cases[i]? = some requestCase)
    : (sys.clientStep plan env).client =
        if elapsed < waitTimeout plan requestCase then
          match (sys.polled env i).1 with
          | some resp =>
            let result := sys.client.result.receive i requestCase.assertions resp
            { sys.client with pc := .wait (i + 1) 0, result := result }
          | none => sys.client.goto (.wait i (elapsed + usleepMs))
        else
          { sys.client with pc := .wait (i + 1) 0, result := sys.client.result.timeOut i } := by
  unfold Engine.clientStep Engine.polled
  dsimp only
  rw [hpc]
  dsimp only
  rw [hcase]
  dsimp only
  split
  . cases ((dbGetLatestResponseByRequestId (sys.client.requestIds i)).run answer env.calls sys.conn).1 <;>
      rfl
  . rfl

/-- A step of a client that waits is a round of `wait_for_response`, as long as nothing overflows. -/
theorem clientStep_waitRound (hpc : sys.client.pc = .wait i elapsed)
    (hcase : plan.cases[i]? = some requestCase) (polls : Nat) (hpoll : poll polls = (sys.polled env i).1)
    : match waitRound (waitTimeout plan requestCase) poll ⟨elapsed, polls⟩ with
      | .inl s => (sys.clientStep plan env).client = sys.client.goto (.wait i s.elapsed)
      | .inr none => True
      | .inr (some (some resp, _)) =>
        (sys.clientStep plan env).client.pc = .wait (i + 1) 0 ∧
          (sys.clientStep plan env).client.result = sys.client.result.receive i requestCase.assertions resp
      | .inr (some (none, _)) =>
        (sys.clientStep plan env).client.pc = .wait (i + 1) 0 ∧
          (sys.clientStep plan env).client.result = sys.client.result.timeOut i := by
  rw [clientStep_wait hpc hcase]
  unfold waitRound
  dsimp only
  by_cases htime : elapsed < waitTimeout plan requestCase
  . rw [if_pos htime, if_pos htime, hpoll]
    cases (sys.polled env i).1 with
    | some resp => exact ⟨rfl, rfl⟩
    | none =>
      dsimp only
      cases hadd : addInt elapsed usleepMs with
      | none => trivial
      | some next =>
        obtain ⟨_, rfl⟩ := addInt_eq_some_iff.mp hadd
        rfl
  . rw [if_neg htime, if_neg htime]
    exact ⟨rfl, rfl⟩

end Client

/--
The wait is as it should be if and only if the timeout is one that `elapsed` can reach, or a response comes
before `elapsed` overflows.
-/
theorem waitForResponse_iff (plan : RunPlan) (requestCase : RequestCase) (poll : Nat → Option Response)
    : WaitsExactly plan requestCase poll ↔
        waitTimeout plan requestCase ≤ 2147483600 ∨ ∃ k, k ≤ 21474836 ∧ poll k ≠ none :=
  ⟨inTime_of_waitsExactly, waitsExactly_of_inTime⟩

-- A case that waits for `INT_MAX` milliseconds.
def patientCase : RequestCase where
  method := .get
  url := some [117]
  headers := none
  body := none
  bodyLen := 0
  assertions := []
  timeoutMs := 2147483647

theorem waitForResponse_overflows : ¬ WaitsExactly initRunPlan patientCase (fun _ => none) := by
  intro h
  cases inTime_of_waitsExactly h with
  | inl hle => exact absurd hle (by decide)
  | inr hseen =>
    obtain ⟨k, _, hresp⟩ := hseen
    exact hresp rfl

end Wait

end HttpRuntime
