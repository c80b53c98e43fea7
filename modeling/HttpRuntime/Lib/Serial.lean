import HttpRuntime.Lib.Prog
import Mathlib.Data.Fintype.Basic
import Mathlib.Data.List.Nodup

/-!
This module contains a discipline under which interleaved programs are serializable: every program
has one call at which it takes effect, or it works on the object alone while it holds it locked.
-/

namespace Lib
namespace Net

variable {Call Reply Env S α ι : Type} [Inhabited Env] [DecidableEq ι]

/--
The phases of a program. `Before`: nothing it did can be seen yet. `Holding`: it works on the locked
object. `Settled p s`: it has taken effect, and what it still does in `s` only reads. `Effect`
relates the states around the effect of a program, and `Compat p s s'` says that a change from `s`
to `s'` does not disturb what the settled program `p` is about to read. `Local` calls do not use the
object.
-/
structure Discipline (answer : Server Call Reply Env S) (locked : S → Bool) (Local : Call → Prop)
    (Before Holding : Prog Call Reply α → Prop) (Settled : Prog Call Reply α → S → Prop)
    (Effect : S → S → Prop) (Compat : Prog Call Reply α → S → S → Prop) : Prop where
  before_call : ∀ {c : Call} {k : Reply → Prog Call Reply α} (e : Env) (s : S),
    Before (.call c k) →
    locked s = false →
    let res := answer c e s
    ((∀ s', answer c e s' = (res.1, s')) ∧ Before (k res.1)) ∨
    (locked res.2 = false ∧ Settled (k res.1) res.2 ∧ Effect s res.2) ∨
    (locked res.2 = true ∧ (Holding (k res.1) ∨ ∃ a, k res.1 = .ret a))
  holding_ret : ∀ {a : α}, ¬ Holding (.ret a)
  holding_call : ∀ {c : Call} {k : Reply → Prog Call Reply α} (e : Env) (s : S),
    Holding (.call c k) →
    locked s = true →
    let res := answer c e s
    (Holding (k res.1) ∧ locked res.2 = true) ∨ ∃ a, k res.1 = .ret a
  settled_ret : ∀ (a : α) (s : S), Settled (.ret a) s
  settled_call : ∀ {c : Call} {k : Reply → Prog Call Reply α} (e : Env) {s : S},
    Settled (.call c k) s →
    (answer c e s).2 = s ∧ Settled (k (answer c e s).1) s
  settled_effect : ∀ {p : Prog Call Reply α} {s s' : S},
    Settled p s →
    Effect s s' →
    Compat p s s' →
    Settled p s' ∧ ∀ es, (p.run answer es s').1 = (p.run answer es s).1
  local_call : ∀ {c : Call} (e : Env) (s s' : S),
    Local c → answer c e s' = ((answer c e s).1, s')
  before_local : ∀ {c : Call} {k : Reply → Prog Call Reply α} (r : Reply),
    Before (.call c k) → Local c → Before (k r)
  compat_local : ∀ {c : Call} {k : Reply → Prog Call Reply α} {s : S} (r : Reply) (s' : S),
    Settled (.call c k) s → Local c → Compat (k r) s s'
  compat_trans : ∀ {p : Prog Call Reply α} {s s' s'' : S},
    Compat p s s' → Compat p s' s'' → Compat p s s''

variable {answer : Server Call Reply Env S} {locked : S → Bool} {Local : Call → Prop}
  {Before Holding : Prog Call Reply α → Prop} {Settled : Prog Call Reply α → S → Prop}
  {Effect : S → S → Prop} {Compat : Prog Call Reply α → S → S → Prop}

/-- Nobody but the program that locked the object uses it, and no step disturbs a reader. -/
def Allowed (answer : Server Call Reply Env S) (locked : S → Bool) (Local : Call → Prop)
    (Compat : Prog Call Reply α → S → S → Prop) (net : Net Call Reply Env S α ι) (i : ι) (e : Env)
    : Prop :=
  (locked net.shared = true →
    net.owner = some i ∨ ∀ c ∈ (net.threads i).prog.next, Local c) ∧
    ∀ j, j ≠ i → Compat (net.threads j).prog net.shared (net.step answer locked i e).shared

def AllowedRun (answer : Server Call Reply Env S) (locked : S → Bool) (Local : Call → Prop)
    (Compat : Prog Call Reply α → S → S → Prop) (net : Net Call Reply Env S α ι)
    (sched : List (ι × Env)) : Prop :=
  match sched with
  | [] => True
  | (i, e) :: sched =>
    Allowed answer locked Local Compat net i e ∧
      AllowedRun answer locked Local Compat (net.step answer locked i e) sched

instance [Fintype ι] [DecidablePred Local] [∀ (p : Prog Call Reply α) s s', Decidable (Compat p s s')]
    (net : Net Call Reply Env S α ι) (i : ι) (e : Env)
    : Decidable (Allowed answer locked Local Compat net i e) :=
  inferInstanceAs (Decidable ((_ → _ ∨ _) ∧ ∀ j, j ≠ i → _))

instance AllowedRun.decidable [Fintype ι] [DecidablePred Local]
    [∀ (p : Prog Call Reply α) s s', Decidable (Compat p s s')]
    (net : Net Call Reply Env S α ι) (sched : List (ι × Env))
    : Decidable (AllowedRun answer locked Local Compat net sched) :=
  match sched with
  | [] => isTrue trivial
  | (i, e) :: sched =>
    have := AllowedRun.decidable (net.step answer locked i e) sched
    inferInstanceAs (Decidable (Allowed answer locked Local Compat net i e ∧
      AllowedRun answer locked Local Compat (net.step answer locked i e) sched))

/-- So far the program `i` has learned nothing that depends on the object. -/
def Silent (answer : Server Call Reply Env S) (ops : ι → Prog Call Reply α)
    (net : Net Call Reply Env S α ι) (i : ι) : Prop :=
  ∀ es s,
    (ops i).run answer ((net.threads i).used ++ es) s = (net.threads i).prog.run answer es s

/--
Run alone from `s`, the program `i` ends in `s'` and returns what the rest of it returns now.
-/
def Replayed (answer : Server Call Reply Env S) (ops : ι → Prog Call Reply α)
    (net : Net Call Reply Env S α ι) (base : S) (i : ι) (s s' : S) : Prop :=
  ∀ es,
    (ops i).run answer ((net.threads i).used ++ es) s =
      (((net.threads i).prog.run answer es base).1, s')

def Replays (answer : Server Call Reply Env S) (ops : ι → Prog Call Reply α)
    (net : Net Call Reply Env S α ι) (base : S) (s : S) (order : List ι) (s' : S) : Prop :=
  match order with
  | [] => s = s'
  | i :: order =>
    ∃ s1, Replayed answer ops net base i s s1 ∧ Replays answer ops net base s1 order s'

section Replays

variable {ops : ι → Prog Call Reply α} {net net' : Net Call Reply Env S α ι} {base base' : S}

omit [DecidableEq ι] in
theorem Replays.mono {s s' : S} {order : List ι}
    (hmono : ∀ i ∈ order, ∀ b a,
      Replayed answer ops net base i b a → Replayed answer ops net' base' i b a)
    (h : Replays answer ops net base s order s') : Replays answer ops net' base' s order s' := by
  induction order generalizing s with
  | nil => exact h
  | cons i order ih =>
    rcases h with ⟨s1, hi, hrest⟩
    refine ⟨s1, hmono i (by simp) s s1 hi, ?_⟩
    apply ih _ hrest
    intro j hj
    exact hmono j (by simp [hj])

omit [DecidableEq ι] in
theorem Replays.snoc {s s1 s2 : S} {order : List ι} {i : ι}
    (h : Replays answer ops net base s order s1) (hi : Replayed answer ops net base i s1 s2)
    : Replays answer ops net base s (order ++ [i]) s2 := by
  induction order generalizing s with
  | nil =>
    cases h
    exact ⟨s2, hi, rfl⟩
  | cons j order ih =>
    rcases h with ⟨s', hj, hrest⟩
    exact ⟨s', hj, ih hrest⟩

omit [DecidableEq ι] in
theorem Replays.runAll_eq {v : ι → α} {s s' : S} {order : List ι} (hfin : net.Finished v)
    (h : Replays answer ops net base s order s')
    : runAll answer (order.map (fun i => (ops i, (net.threads i).used))) s =
        (order.map v, s') := by
  induction order generalizing s with
  | nil =>
    cases h
    rfl
  | cons i order ih =>
    rcases h with ⟨s1, hi, hrest⟩
    have hrun := hi []
    rw [List.append_nil, hfin i, Prog.run_ret] at hrun
    simp only [List.map_cons, runAll, hrun]
    rw [ih hrest]

end Replays

/-- What is known between two steps: who has taken effect, in which order, and who holds the object. -/
structure SerialInv (answer : Server Call Reply Env S) (locked : S → Bool)
    (Before Holding : Prog Call Reply α → Prop) (Settled : Prog Call Reply α → S → Prop)
    (Compat : Prog Call Reply α → S → S → Prop) (ops : ι → Prog Call Reply α) (s₀ : S)
    (net : Net Call Reply Env S α ι) (order : List ι) (holder : Option ι) (base : S) : Prop where
  nodup : order.Nodup
  replays : Replays answer ops net base s₀ order base
  settled : ∀ i ∈ order, Settled (net.threads i).prog base
  before : ∀ i, i ∉ order → holder ≠ some i →
    Before (net.threads i).prog ∧ Silent answer ops net i
  free : holder = none →
    net.shared = base ∧
    (locked base = true → ∀ i, net.owner = some i → ∃ a, (net.threads i).prog = .ret a)
  held : ∀ i, holder = some i →
    i ∉ order ∧
    Holding (net.threads i).prog ∧
    locked base = false ∧
    locked net.shared = true ∧
    net.owner = some i ∧
    (∀ es, (ops i).run answer ((net.threads i).used ++ es) base =
      (net.threads i).prog.run answer es net.shared) ∧
    ∀ j ∈ order, Compat (net.threads j).prog base net.shared

section Serial

variable {ops : ι → Prog Call Reply α} {s₀ : S} {net : Net Call Reply Env S α ι} {order : List ι}
  {holder : Option ι} {base : S}

theorem Discipline.settled_run
    (d : Discipline answer locked Local Before Holding Settled Effect Compat) {p : Prog Call Reply α}
    {s : S} (h : Settled p s) (es : List Env) : (p.run answer es s).2 = s := by
  induction p generalizing es s with
  | ret a => rfl
  | call c k ih =>
    have ⟨hs, hk⟩ := d.settled_call (es.headD default) h
    rw [Prog.run_call, hs]
    exact ih _ hk es.tail

omit [DecidableEq ι] in
/-- A change of the object that settled programs do not notice leaves their replay valid. -/
theorem Discipline.replayed_effect
    (d : Discipline answer locked Local Before Holding Settled Effect Compat) {base' b a : S} {i : ι}
    (hsettled : Settled (net.threads i).prog base) (heffect : Effect base base')
    (hcompat : Compat (net.threads i).prog base base')
    (h : Replayed answer ops net base i b a) : Replayed answer ops net base' i b a := by
  intro es
  rw [h es, (d.settled_effect hsettled heffect hcompat).2 es]

omit [DecidableEq ι] in
theorem Replayed.of_thread_eq {net' : Net Call Reply Env S α ι} {b a : S} {i : ι}
    (hthread : net'.threads i = net.threads i) (h : Replayed answer ops net base i b a)
    : Replayed answer ops net' base i b a := by
  intro es
  rw [hthread]
  exact h es

variable {i : ι} {e : Env} {c : Call} {k : Reply → Prog Call Reply α}

-- A step of program `i` leaves the other programs as they were.
theorem SerialInv.before_step
    (hinv : SerialInv answer locked Before Holding Settled Compat ops s₀ net order holder base)
    {j : ι} (hj : j ∉ order) (hholder : holder ≠ some j) (hji : j ≠ i)
    : Before ((net.step answer locked i e).threads j).prog ∧
        Silent answer ops (net.step answer locked i e) j := by
  have ⟨hbefore, hsilent⟩ := hinv.before j hj hholder
  unfold Silent
  rw [thread_step_of_ne hji]
  exact ⟨hbefore, hsilent⟩

theorem SerialInv.order_step
    (hinv : SerialInv answer locked Before Holding Settled Compat ops s₀ net order holder base)
    (hi : i ∉ order)
    : Replays answer ops (net.step answer locked i e) base s₀ order base ∧
        ∀ j ∈ order, Settled ((net.step answer locked i e).threads j).prog base := by
  have hne : ∀ j ∈ order, j ≠ i := by
    intro j hj heq
    exact hi (heq ▸ hj)
  constructor
  . apply hinv.replays.mono
    intro j hj b a h
    exact h.of_thread_eq (thread_step_of_ne (hne j hj))
  . intro j hj
    rw [thread_step_of_ne (hne j hj)]
    exact hinv.settled j hj

/--
The step at which program `i` takes its place at the end of the order. `hrun` relates the whole of
it, run alone from `base`, to what is left of it now.
-/
theorem Discipline.take_effect
    (d : Discipline answer locked Local Before Holding Settled Effect Compat)
    (hinv : SerialInv answer locked Before Holding Settled Compat ops s₀ net order holder base)
    (hcall : (net.threads i).prog = .call c k) (hi : i ∉ order)
    (hholder : ∀ j, holder = some j → j = i)
    (hsettled : Settled (k (answer c e net.shared).1) (answer c e net.shared).2)
    (heffect : Effect base (answer c e net.shared).2)
    (hcompat : ∀ j ∈ order, Compat (net.threads j).prog base (answer c e net.shared).2)
    (hrun : ∀ es,
      (ops i).run answer ((net.threads i).used ++ [e] ++ es) base =
        (k (answer c e net.shared).1).run answer es (answer c e net.shared).2)
    (hfree : locked (answer c e net.shared).2 = true →
      (net.step answer locked i e).owner = some i ∧ ∃ a, k (answer c e net.shared).1 = .ret a)
    : SerialInv answer locked Before Holding Settled Compat ops s₀ (net.step answer locked i e)
        (order ++ [i]) none (answer c e net.shared).2 := by
  have hne : ∀ j ∈ order, j ≠ i := by
    intro j hj heq
    exact hi (heq ▸ hj)
  have hself : (net.step answer locked i e).threads i = _ := thread_step_self hcall
  constructor
  . rw [List.nodup_append]
    refine ⟨hinv.nodup, by simp, ?_⟩
    intro j hj j' hj'
    rw [List.mem_singleton] at hj'
    rw [hj']
    exact hne j hj
  . apply Replays.snoc
    . apply hinv.replays.mono
      intro j hj b a h
      apply Replayed.of_thread_eq (thread_step_of_ne (hne j hj))
      exact d.replayed_effect (hinv.settled j hj) heffect (hcompat j hj) h
    . intro es
      rw [hself]
      dsimp only
      rw [hrun es]
      exact Prod.ext rfl (d.settled_run hsettled es)
  . intro j hj
    rw [List.mem_append, List.mem_singleton] at hj
    cases hj with
    | inl hj =>
      rw [thread_step_of_ne (hne j hj)]
      exact (d.settled_effect (hinv.settled j hj) heffect (hcompat j hj)).1
    | inr hj =>
      rw [hj, hself]
      exact hsettled
  . intro j hj _
    rw [List.mem_append, List.mem_singleton, not_or] at hj
    apply hinv.before_step hj.1 _ hj.2
    intro heq
    exact hj.2 (hholder j heq)
  . intro _
    refine ⟨shared_step hcall, ?_⟩
    intro hlocked j hj
    have ⟨howner, a, ha⟩ := hfree hlocked
    rw [howner, Option.some.injEq] at hj
    rw [← hj, hself]
    exact ⟨a, ha⟩
  . intro j hj
    cases hj

-- The program returns with the step at which it takes effect.
theorem Discipline.take_effect_of_ret
    (d : Discipline answer locked Local Before Holding Settled Effect Compat)
    (heffect : ∀ i es s, locked s = false → Effect s ((ops i).run answer es s).2)
    (hinv : SerialInv answer locked Before Holding Settled Compat ops s₀ net order holder base)
    (hcall : (net.threads i).prog = .call c k) (hi : i ∉ order)
    (hholder : ∀ j, holder = some j → j = i) (hunlocked : locked base = false)
    (hcompat : ∀ j ∈ order, Compat (net.threads j).prog base (answer c e net.shared).2)
    (hrun : ∀ es,
      (ops i).run answer ((net.threads i).used ++ [e] ++ es) base =
        (k (answer c e net.shared).1).run answer es (answer c e net.shared).2)
    (howner : (net.step answer locked i e).owner = some i) {a : α}
    (ha : k (answer c e net.shared).1 = .ret a)
    : SerialInv answer locked Before Holding Settled Compat ops s₀ (net.step answer locked i e)
        (order ++ [i]) none (answer c e net.shared).2 := by
  apply d.take_effect hinv hcall hi hholder
  . rw [ha]
    exact d.settled_ret _ _
  . have hstep := heffect i ((net.threads i).used ++ [e] ++ []) base hunlocked
    rw [hrun [], ha] at hstep
    exact hstep
  . exact hcompat
  . exact hrun
  . intro _
    exact ⟨howner, a, ha⟩

theorem Discipline.inv_settled_step
    (d : Discipline answer locked Local Before Holding Settled Effect Compat)
    (hinv : SerialInv answer locked Before Holding Settled Compat ops s₀ net order none base)
    (hcall : (net.threads i).prog = .call c k) (hi : i ∈ order) (hunlocked : locked base = false)
    : SerialInv answer locked Before Holding Settled Compat ops s₀ (net.step answer locked i e)
        order none base := by
  have hshared := (hinv.free rfl).1
  have hself : (net.step answer locked i e).threads i = _ := thread_step_self hcall
  have hsettled := hinv.settled i hi
  rw [hcall] at hsettled
  have ⟨hsame, hnext⟩ := d.settled_call e hsettled
  constructor
  . exact hinv.nodup
  . apply hinv.replays.mono
    intro j hj b a h
    by_cases hji : j = i
    . intro es
      have hthis := h (e :: es)
      rw [hji] at hthis ⊢
      rw [hcall, Prog.run_call_cons, hsame] at hthis
      rw [hself, hshared, List.append_assoc]
      exact hthis
    . exact h.of_thread_eq (thread_step_of_ne hji)
  . intro j hj
    by_cases hji : j = i
    . rw [hji, hself, hshared]
      exact hnext
    . rw [thread_step_of_ne hji]
      exact hinv.settled j hj
  . intro j hj hj'
    apply hinv.before_step hj hj'
    intro heq
    exact hj (heq ▸ hi)
  . intro _
    refine ⟨?_, ?_⟩
    . rw [shared_step hcall, hshared, hsame]
    . intro hlocked
      rw [hunlocked] at hlocked
      cases hlocked
  . intro j hj
    cases hj

theorem SerialInv.silent_step
    (hinv : SerialInv answer locked Before Holding Settled Compat ops s₀ net order none base)
    (hcall : (net.threads i).prog = .call c k) (hi : i ∉ order) (hunlocked : locked base = false)
    (hsilent : ∀ s', answer c e s' = ((answer c e net.shared).1, s'))
    (hbefore : Before (k (answer c e net.shared).1))
    : SerialInv answer locked Before Holding Settled Compat ops s₀ (net.step answer locked i e)
        order none base := by
  have hself : (net.step answer locked i e).threads i = _ := thread_step_self hcall
  constructor
  . exact hinv.nodup
  . exact (hinv.order_step hi).1
  . exact (hinv.order_step hi).2
  . intro j hj hj'
    by_cases hji : j = i
    . have hsilent' := (hinv.before j hj hj').2
      rw [hji] at hsilent' ⊢
      rw [hself]
      refine ⟨hbefore, ?_⟩
      intro es s
      rw [hself, List.append_assoc, List.singleton_append, hsilent' (e :: es) s, hcall,
        Prog.run_call_cons, hsilent s]
    . exact hinv.before_step hj hj' hji
  . intro _
    refine ⟨?_, ?_⟩
    . rw [shared_step hcall, ← (hinv.free rfl).1, hsilent]
    . intro hlocked
      rw [hunlocked] at hlocked
      cases hlocked
  . intro j hj
    cases hj

theorem SerialInv.hold_step
    (hinv : SerialInv answer locked Before Holding Settled Compat ops s₀ net order holder base)
    (hcall : (net.threads i).prog = .call c k) (hi : i ∉ order)
    (hholder : ∀ j, holder = some j → j = i) (hunlocked : locked base = false)
    (hlocked : locked (answer c e net.shared).2 = true)
    (hholding : Holding (k (answer c e net.shared).1))
    (howner : (net.step answer locked i e).owner = some i)
    (hcompat : ∀ j ∈ order, Compat (net.threads j).prog base (answer c e net.shared).2)
    (hrun : ∀ es,
      (ops i).run answer ((net.threads i).used ++ [e] ++ es) base =
        (k (answer c e net.shared).1).run answer es (answer c e net.shared).2)
    : SerialInv answer locked Before Holding Settled Compat ops s₀ (net.step answer locked i e)
        order (some i) base := by
  have hself : (net.step answer locked i e).threads i = _ := thread_step_self hcall
  have hne : ∀ j ∈ order, j ≠ i := by
    intro j hj heq
    exact hi (heq ▸ hj)
  constructor
  . exact hinv.nodup
  . exact (hinv.order_step hi).1
  . exact (hinv.order_step hi).2
  . intro j hj hj'
    have hji : j ≠ i := by
      intro heq
      exact hj' (by rw [heq])
    apply hinv.before_step hj _ hji
    intro heq
    exact hji (hholder j heq)
  . intro h
    cases h
  . intro j hj
    rw [Option.some.injEq] at hj
    rw [← hj, hself, shared_step hcall]
    refine ⟨hi, hholding, hunlocked, hlocked, howner, hrun, ?_⟩
    intro j' hj'
    rw [thread_step_of_ne (hne j' hj')]
    exact hcompat j' hj'

theorem Discipline.inv_local_step
    (d : Discipline answer locked Local Before Holding Settled Effect Compat)
    (hinv : SerialInv answer locked Before Holding Settled Compat ops s₀ net order holder base)
    (hcall : (net.threads i).prog = .call c k) (hholder : holder ≠ some i) (hlocal : Local c)
    : SerialInv answer locked Before Holding Settled Compat ops s₀ (net.step answer locked i e)
        order holder base := by
  have hself : (net.step answer locked i e).threads i = _ := thread_step_self hcall
  have hanswer (s : S) : answer c e s = ((answer c e net.shared).1, s) :=
    d.local_call e net.shared s hlocal
  have hshared : (net.step answer locked i e).shared = net.shared := by
    rw [shared_step hcall, hanswer]
  have howner : (net.step answer locked i e).owner = net.owner := by
    rw [owner_step hcall, hanswer]
    cases locked net.shared <;> rfl
  constructor
  . exact hinv.nodup
  . apply hinv.replays.mono
    intro j' hj' b a h
    by_cases hj'i : j' = i
    . intro es
      have hthis := h (e :: es)
      rw [hj'i] at hthis ⊢
      rw [hcall, Prog.run_call_cons, hanswer base] at hthis
      rw [hself, List.append_assoc]
      exact hthis
    . exact h.of_thread_eq (thread_step_of_ne hj'i)
  . intro j' hj'
    by_cases hj'i : j' = i
    . have hsettled := hinv.settled i (hj'i ▸ hj')
      rw [hcall] at hsettled
      have hnext := (d.settled_call e hsettled).2
      rw [hanswer base] at hnext
      rw [hj'i, hself]
      exact hnext
    . rw [thread_step_of_ne hj'i]
      exact hinv.settled j' hj'
  . intro j' hj' hne
    have ⟨hbefore, hsilent⟩ := hinv.before j' hj' hne
    by_cases hj'i : j' = i
    . rw [hj'i] at hbefore hsilent ⊢
      rw [hcall] at hbefore
      rw [hself]
      refine ⟨d.before_local _ hbefore hlocal, ?_⟩
      intro es s
      rw [hself, List.append_assoc, List.singleton_append, hsilent (e :: es) s, hcall,
        Prog.run_call_cons, hanswer s]
    . unfold Silent
      rw [thread_step_of_ne hj'i]
      exact ⟨hbefore, hsilent⟩
  . intro hnone
    have ⟨hbase, hfree⟩ := hinv.free hnone
    refine ⟨hshared.trans hbase, ?_⟩
    intro hlocked j' hj'
    rw [howner] at hj'
    by_cases hj'i : j' = i
    . rcases hfree hlocked j' hj' with ⟨a, ha⟩
      rw [hj'i, hcall] at ha
      cases ha
    . rw [thread_step_of_ne hj'i]
      exact hfree hlocked j' hj'
  . intro j hj
    have ⟨hjorder, hholding, hunlocked, hlocked, hown, hrun, hcompat⟩ := hinv.held j hj
    have hji : j ≠ i := by
      intro heq
      exact hholder (heq ▸ hj)
    rw [thread_step_of_ne hji, hshared, howner]
    refine ⟨hjorder, hholding, hunlocked, hlocked, hown, hrun, ?_⟩
    intro j' hj'
    by_cases hj'i : j' = i
    . have hsettled := hinv.settled i (hj'i ▸ hj')
      rw [hcall] at hsettled
      rw [hj'i, hself]
      exact d.compat_local _ _ hsettled hlocal
    . rw [thread_step_of_ne hj'i]
      exact hcompat j' hj'

theorem Discipline.inv_step
    (d : Discipline answer locked Local Before Holding Settled Effect Compat)
    (heffect : ∀ i es s, locked s = false → Effect s ((ops i).run answer es s).2)
    (hinv : SerialInv answer locked Before Holding Settled Compat ops s₀ net order holder base)
    (hallowed : Allowed answer locked Local Compat net i e)
    : ∃ order' holder' base',
        SerialInv answer locked Before Holding Settled Compat ops s₀ (net.step answer locked i e)
          order' holder' base' := by
  cases hcall : (net.threads i).prog with
  | ret a =>
    rw [step_of_ret hcall]
    exact ⟨order, holder, base, hinv⟩
  | call c k =>
    have hshared : (net.step answer locked i e).shared = _ := shared_step hcall
    have howner : (net.step answer locked i e).owner = _ := owner_step hcall
    have happend (es : List Env)
        : (net.threads i).used ++ [e] ++ es = (net.threads i).used ++ e :: es := by simp
    cases holder with
    | some j =>
      have ⟨hj, hholding, hunlocked, hlocked, hown, hrun, hcompat⟩ := hinv.held j rfl
      by_cases hji : j ≠ i
      . refine ⟨order, some j, base, d.inv_local_step hinv hcall (by simpa using hji) ?_⟩
        cases hallowed.1 hlocked with
        | inl howns =>
          rw [hown, Option.some.injEq] at howns
          exact absurd howns hji
        | inr hlocal => exact hlocal c (by rw [hcall]; rfl)
      rw [not_not] at hji
      subst hji
      have hrun' (es : List Env)
          : (ops j).run answer ((net.threads j).used ++ [e] ++ es) base =
              (k (answer c e net.shared).1).run answer es (answer c e net.shared).2 := by
        rw [happend, hrun (e :: es), hcall, Prog.run_call_cons]
      have hcompat' : ∀ j' ∈ order,
          Compat (net.threads j').prog base (answer c e net.shared).2 := by
        intro j' hj'
        have hne : j' ≠ j := by
          intro heq
          exact hj (heq ▸ hj')
        have := hallowed.2 j' hne
        rw [hshared] at this
        exact d.compat_trans (hcompat j' hj') this
      have howner' : (net.step answer locked j e).owner = some j := by
        rw [howner, hlocked, Bool.not_true, Bool.and_false]
        simpa using hown
      rw [hcall] at hholding
      cases d.holding_call e net.shared hholding hlocked with
      | inl h =>
        refine ⟨order, some j, base, ?_⟩
        apply hinv.hold_step hcall hj _ hunlocked h.2 h.1 howner' hcompat' hrun'
        intro j' hj'
        rw [Option.some.injEq] at hj'
        exact hj'.symm
      | inr h =>
        rcases h with ⟨a, ha⟩
        refine ⟨order ++ [j], none, (answer c e net.shared).2, ?_⟩
        apply d.take_effect_of_ret heffect hinv hcall hj _ hunlocked hcompat' hrun' howner' ha
        intro j' hj'
        rw [Option.some.injEq] at hj'
        exact hj'.symm
    | none =>
      have ⟨hbase, hfree⟩ := hinv.free rfl
      by_cases hlocal : Local c
      . exact ⟨order, none, base, d.inv_local_step hinv hcall (by simp) hlocal⟩
      have hunlocked : locked base = false := by
        cases hlocked : locked base with
        | false => rfl
        | true =>
          rw [← hbase] at hlocked
          cases hallowed.1 hlocked with
          | inl howns =>
            rcases hfree (hbase ▸ hlocked) i howns with ⟨a, ha⟩
            rw [hcall] at ha
            cases ha
          | inr hcalls => exact absurd (hcalls c (by rw [hcall]; rfl)) hlocal
      by_cases hi : i ∈ order
      . exact ⟨order, none, base, d.inv_settled_step hinv hcall hi hunlocked⟩
      . have ⟨hbefore, hsilent⟩ := hinv.before i hi (by simp)
        rw [hcall] at hbefore
        have hrun' (es : List Env)
            : (ops i).run answer ((net.threads i).used ++ [e] ++ es) base =
                (k (answer c e net.shared).1).run answer es (answer c e net.shared).2 := by
          rw [happend, hsilent (e :: es) base, hcall, Prog.run_call_cons, hbase]
        have hcompat' : ∀ j ∈ order,
            Compat (net.threads j).prog base (answer c e net.shared).2 := by
          intro j hj
          have hne : j ≠ i := by
            intro heq
            exact hi (heq ▸ hj)
          have := hallowed.2 j hne
          rw [hshared, hbase] at this
          rw [hbase]
          exact this
        rw [← hbase] at hunlocked
        rcases d.before_call e net.shared hbefore hunlocked with h | h | h
        . refine ⟨order, none, base, ?_⟩
          exact hinv.silent_step hcall hi (hbase ▸ hunlocked) h.1 h.2
        . refine ⟨order ++ [i], none, (answer c e net.shared).2, ?_⟩
          apply d.take_effect hinv hcall hi (by simp) h.2.1 (hbase ▸ h.2.2) hcompat' hrun'
          intro hlocked
          rw [h.1] at hlocked
          cases hlocked
        . have howner' : (net.step answer locked i e).owner = some i := by
            rw [howner, h.1, hunlocked]
            rfl
          cases h.2 with
          | inl hholding =>
            refine ⟨order, some i, base, ?_⟩
            exact hinv.hold_step hcall hi (by simp) (hbase ▸ hunlocked) h.1 hholding howner'
              hcompat' hrun'
          | inr hret =>
            rcases hret with ⟨a, ha⟩
            refine ⟨order ++ [i], none, (answer c e net.shared).2, ?_⟩
            exact d.take_effect_of_ret heffect hinv hcall hi (by simp) (hbase ▸ hunlocked) hcompat'
              hrun' howner' ha

theorem Discipline.inv_exec
    (d : Discipline answer locked Local Before Holding Settled Effect Compat)
    (heffect : ∀ i es s, locked s = false → Effect s ((ops i).run answer es s).2)
    (hinv : SerialInv answer locked Before Holding Settled Compat ops s₀ net order holder base)
    {sched : List (ι × Env)} (hallowed : AllowedRun answer locked Local Compat net sched)
    : ∃ order' holder' base',
        SerialInv answer locked Before Holding Settled Compat ops s₀ (net.exec answer locked sched)
          order' holder' base' := by
  induction sched generalizing net order holder base with
  | nil => exact ⟨order, holder, base, hinv⟩
  | cons act sched ih =>
    rcases d.inv_step heffect hinv hallowed.1 with ⟨order', holder', base', hinv'⟩
    exact ih hinv' hallowed.2

omit [DecidableEq ι] in
theorem Replays.extend {s s' : S} (rest : List ι)
    (hrest : ∀ i ∈ rest, ∀ b, Replayed answer ops net base i b b)
    (h : Replays answer ops net base s order s')
    : Replays answer ops net base s (order ++ rest) s' := by
  induction rest generalizing order with
  | nil => simpa using h
  | cons i rest ih =>
    rw [List.append_cons]
    apply ih
    . intro j hj
      exact hrest j (by simp [hj])
    . exact h.snoc (hrest i (by simp) s')

/-- A finished run under the discipline is serializable. -/
theorem Discipline.serializable [Fintype ι]
    (d : Discipline answer locked Local Before Holding Settled Effect Compat)
    (heffect : ∀ i es s, locked s = false → Effect s ((ops i).run answer es s).2)
    (hbefore : ∀ i, Before (ops i)) {sched : List (ι × Env)}
    (hallowed : AllowedRun answer locked Local Compat (start ops s₀) sched) {v : ι → α}
    (hfin : ((start ops s₀).exec answer locked sched).Finished v)
    : Serializable answer ops s₀ ((start ops s₀).exec answer locked sched) v := by
  have hstart : SerialInv answer locked Before Holding Settled Compat ops s₀ (start ops s₀) [] none
      s₀ := by
    constructor
    . simp
    . rfl
    . simp
    . intro i _ _
      exact ⟨hbefore i, fun es s => rfl⟩
    . intro _
      refine ⟨rfl, ?_⟩
      intro _ i hi
      cases hi
    . intro i hi
      cases hi
  rcases d.inv_exec heffect hstart hallowed with ⟨order, holder, base, hinv⟩
  have hnone : holder = none := by
    cases holder with
    | none => rfl
    | some i =>
      have := (hinv.held i rfl).2.1
      rw [hfin i] at this
      exact absurd this d.holding_ret
  subst hnone
  -- whoever never took effect may stand at the end
  let rest := Finset.univ.toList.filter (fun i => i ∉ order)
  have hrest : ∀ i ∈ rest, i ∉ order := by
    intro i hi
    simpa using (List.mem_filter.mp hi).2
  refine ⟨order ++ rest, ?_, ?_, ?_⟩
  . rw [List.nodup_append]
    refine ⟨hinv.nodup, (Finset.nodup_toList _).filter _, ?_⟩
    intro i hi j hj heq
    exact hrest j hj (heq ▸ hi)
  . intro i
    by_cases hi : i ∈ order
    . simp [hi]
    . simp [rest, hi]
  . have hreplays := hinv.replays.extend rest <| by
      intro i hi b es
      have hsilent := (hinv.before i (hrest i hi) (by simp)).2 es b
      rw [hsilent, hfin i]
      rfl
    rw [hreplays.runAll_eq hfin, (hinv.free rfl).1]

end Serial

end Net
end Lib
