import Mathlib.Data.List.Basic
import Mathlib.Logic.Function.Basic
import Mathlib.Tactic.Common

/-!
This module contains programs that work on a shared object through calls, and the execution of
several programs with their calls interleaved. A program is the tree of its calls, so it can be run
alone as well as one call at a time between the calls of others.
-/

namespace Lib

/-- How a program ends that may read or write where it must not. -/
inductive Outcome (α : Type) where
  | returned (a : α)
  | crashed
  deriving DecidableEq, Repr

namespace Outcome

def map {α β : Type} (f : α → β) (out : Outcome α) : Outcome β :=
  match out with
  | .returned a => .returned (f a)
  | .crashed => .crashed

def elim {α β : Type} (out : Outcome α) (crash : β) (k : α → β) : β :=
  match out with
  | .returned a => k a
  | .crashed => crash

-- What is returned, where a null pointer and a crash return nothing.
def toOption {α : Type} (out : Outcome (Option α)) : Option α :=
  match out with
  | .returned a => a
  | .crashed => none

theorem toOption_eq_some_iff {α : Type} {out : Outcome (Option α)} {a : α}
    : out.toOption = some a ↔ out = .returned (some a) := by
  cases out <;> simp [toOption]

theorem toOption_ne_none_iff {α : Type} {out : Outcome (Option α)}
    : out.toOption ≠ none ↔ ∃ a, out = .returned (some a) := by
  rw [Option.ne_none_iff_exists']
  exact exists_congr fun a => toOption_eq_some_iff

end Outcome

inductive Prog (Call Reply α : Type) where
  | ret (a : α)
  | call (c : Call) (k : Reply → Prog Call Reply α)

variable {Call Reply Env S α ι : Type}

/--
An object that answers calls one at a time. The environment of a call is everything that decides its
reply besides the state of the object.
-/
abbrev Server (Call Reply Env S : Type) := Call → Env → S → Reply × S

namespace Prog

variable [Inhabited Env]

-- A list of environments that is too short goes on with the default environment.
def run (answer : Server Call Reply Env S) (p : Prog Call Reply α) (es : List Env) (s : S)
    : α × S :=
  match p with
  | .ret a => (a, s)
  | .call c k =>
    let res := answer c (es.headD default) s
    (k res.1).run answer es.tail res.2

@[simp]
theorem run_ret (answer : Server Call Reply Env S) (a : α) (es : List Env) (s : S)
    : (Prog.ret a : Prog Call Reply α).run answer es s = (a, s) := rfl

theorem run_call_cons (answer : Server Call Reply Env S) (c : Call)
    (k : Reply → Prog Call Reply α) (e : Env) (es : List Env) (s : S)
    : (Prog.call c k).run answer (e :: es) s =
        (k (answer c e s).1).run answer es (answer c e s).2 := rfl

theorem run_call (answer : Server Call Reply Env S) (c : Call) (k : Reply → Prog Call Reply α)
    (es : List Env) (s : S)
    : (Prog.call c k).run answer es s =
        (k (answer c (es.headD default) s).1).run answer es.tail
          (answer c (es.headD default) s).2 := rfl

def map {β : Type} (f : α → β) (p : Prog Call Reply α) : Prog Call Reply β :=
  match p with
  | .ret a => .ret (f a)
  | .call c k => .call c (fun r => (k r).map f)

theorem run_map {β : Type} (f : α → β) (answer : Server Call Reply Env S) (p : Prog Call Reply α)
    (es : List Env) (s : S)
    : (p.map f).run answer es s = (f (p.run answer es s).1, (p.run answer es s).2) := by
  induction p generalizing es s with
  | ret a => rfl
  | call c k ih => exact ih _ _ _

def next (p : Prog Call Reply α) : Option Call :=
  match p with
  | .ret _ => none
  | .call c _ => some c

def result? (p : Prog Call Reply α) : Option α :=
  match p with
  | .ret a => some a
  | .call _ _ => none

theorem eq_ret_of_result? {p : Prog Call Reply α} {a : α} (h : p.result? = some a) : p = .ret a := by
  cases p with
  | ret b =>
    cases h
    rfl
  | call c k => cases h

def Calls (P : Call → Prop) (p : Prog Call Reply α) : Prop :=
  match p with
  | .ret _ => True
  | .call c k => P c ∧ ∀ r, (k r).Calls P

theorem Calls.mono {P Q : Call → Prop} (h : ∀ c, P c → Q c) {p : Prog Call Reply α}
    (hp : p.Calls P) : p.Calls Q := by
  induction p with
  | ret a => trivial
  | call c k ih => exact ⟨h c hp.1, fun r => ih r (hp.2 r)⟩

theorem Calls.and {P Q : Call → Prop} {p : Prog Call Reply α} (hp : p.Calls P) (hq : p.Calls Q)
    : p.Calls (fun c => P c ∧ Q c) := by
  induction p with
  | ret a => trivial
  | call c k ih => exact ⟨⟨hp.1, hq.1⟩, fun r => ih r (hp.2 r) (hq.2 r)⟩

theorem Calls.run {P : Call → Prop} {I : S → Prop} {answer : Server Call Reply Env S}
    (hstep : ∀ c e s, P c → I s → I (answer c e s).2) {p : Prog Call Reply α} (hp : p.Calls P)
    (es : List Env) {s : S} (h : I s) : I (p.run answer es s).2 := by
  induction p generalizing es s with
  | ret a => exact h
  | call c k ih =>
    rw [run_call]
    exact ih _ (hp.2 _) _ (hstep _ _ _ hp.1 h)

theorem run_keeps {I : S → Prop} {answer : Server Call Reply Env S}
    (hstep : ∀ c e s, I s → I (answer c e s).2) (p : Prog Call Reply α) (es : List Env) {s : S} (h : I s)
    : I (p.run answer es s).2 := by
  induction p generalizing es s with
  | ret a => exact h
  | call c k ih =>
    rw [run_call]
    exact ih _ _ (hstep _ _ _ h)

theorem Calls.run_eq {answer answer' : Server Call Reply Env S} {p : Prog Call Reply α}
    (hp : p.Calls fun c => ∀ e s, answer' c e s = answer c e s) (es : List Env) (s : S)
    : p.run answer' es s = p.run answer es s := by
  induction p generalizing es s with
  | ret a => rfl
  | call c k ih =>
    rw [run_call, run_call, hp.1]
    exact ih _ (hp.2 _) _ _

/-- A server that answers as another does in other environments has only runs of the other. -/
theorem exists_run_eq {answer answer' : Server Call Reply Env S}
    (h : ∀ c e s, ∃ e', answer' c e s = answer c e' s) (p : Prog Call Reply α) (es : List Env) (s : S)
    : ∃ es', p.run answer' es s = p.run answer es' s := by
  induction p generalizing es s with
  | ret a => exact ⟨[], rfl⟩
  | call c k ih =>
    rcases h c (es.headD default) s with ⟨e', he'⟩
    rcases ih (answer c e' s).1 es.tail (answer c e' s).2 with ⟨es', hes'⟩
    use e' :: es'
    rw [run_call, he', hes', run_call_cons]

/-- Two runs go the same way as long as each call is answered alike. -/
theorem Calls.run_rel {P : Call → Prop} {R : S → S → Prop} {answer : Server Call Reply Env S}
    (hstep : ∀ c e s s', P c → R s s' →
      (answer c e s).1 = (answer c e s').1 ∧ R (answer c e s).2 (answer c e s').2)
    {p : Prog Call Reply α} (hp : p.Calls P) (es : List Env) {s s' : S} (h : R s s')
    : (p.run answer es s).1 = (p.run answer es s').1 ∧
        R (p.run answer es s).2 (p.run answer es s').2 := by
  induction p generalizing es s s' with
  | ret a => exact ⟨rfl, h⟩
  | call c k ih =>
    have ⟨hreply, hrel⟩ := hstep c (es.headD default) s s' hp.1 h
    rw [run_call, run_call, ← hreply]
    exact ih _ (hp.2 _) _ hrel

theorem Calls.map {β : Type} {P : Call → Prop} {f : α → β} {p : Prog Call Reply α}
    (hp : p.Calls P) : (p.map f).Calls P := by
  induction p with
  | ret a => trivial
  | call c k ih => exact ⟨hp.1, fun r => ih r (hp.2 r)⟩

end Prog

/-- What is left of a program, and the environments its calls so far have met. -/
structure Thread (Call Reply Env α : Type) where
  prog : Prog Call Reply α
  used : List Env

/--
Several programs on one object. `owner` remembers which of them put the object into its locked
state.
-/
structure Net (Call Reply Env S α ι : Type) where
  shared : S
  threads : ι → Thread Call Reply Env α
  owner : Option ι

namespace Net

variable [DecidableEq ι]

def start (ops : ι → Prog Call Reply α) (s : S) : Net Call Reply Env S α ι where
  shared := s
  threads := fun i => { prog := ops i, used := [] }
  owner := none

-- One call of program `i`. A program that has returned stutters.
def step (answer : Server Call Reply Env S) (locked : S → Bool) (net : Net Call Reply Env S α ι)
    (i : ι) (e : Env) : Net Call Reply Env S α ι :=
  match (net.threads i).prog with
  | .ret _ => net
  | .call c k =>
    let res := answer c e net.shared
    {
      shared := res.2
      threads :=
        Function.update net.threads i { prog := k res.1, used := (net.threads i).used ++ [e] }
      owner := if locked res.2 && !locked net.shared then some i else net.owner
    }

section Step

variable {answer : Server Call Reply Env S} {locked : S → Bool} {net : Net Call Reply Env S α ι}
variable {i j : ι} {e : Env} {c : Call} {k : Reply → Prog Call Reply α}

theorem step_of_ret {a : α} (h : (net.threads i).prog = .ret a)
    : net.step answer locked i e = net := by
  simp [step, h]

theorem shared_step (h : (net.threads i).prog = .call c k)
    : (net.step answer locked i e).shared = (answer c e net.shared).2 := by
  simp [step, h]

theorem owner_step (h : (net.threads i).prog = .call c k)
    : (net.step answer locked i e).owner =
        if locked (answer c e net.shared).2 && !locked net.shared then some i else net.owner := by
  simp [step, h]

theorem thread_step_self (h : (net.threads i).prog = .call c k)
    : (net.step answer locked i e).threads i =
        { prog := k (answer c e net.shared).1, used := (net.threads i).used ++ [e] } := by
  simp [step, h]

theorem thread_step_of_ne (h : j ≠ i)
    : (net.step answer locked i e).threads j = net.threads j := by
  unfold step
  split
  . rfl
  . simp [h]

theorem step_keeps {I : S → Prop} (hstep : ∀ c e s, I s → I (answer c e s).2) (h : I net.shared) (i : ι)
    (e : Env) : I (net.step answer locked i e).shared := by
  unfold step
  split
  . exact h
  . exact hstep _ _ _ h

end Step

def exec (answer : Server Call Reply Env S) (locked : S → Bool) (net : Net Call Reply Env S α ι)
    (sched : List (ι × Env)) : Net Call Reply Env S α ι :=
  sched.foldl (fun net act => net.step answer locked act.1 act.2) net

theorem exec_keeps {answer : Server Call Reply Env S} {locked : S → Bool} {I : S → Prop}
    (hstep : ∀ c e s, I s → I (answer c e s).2) {net : Net Call Reply Env S α ι} (h : I net.shared)
    (sched : List (ι × Env)) : I (net.exec answer locked sched).shared := by
  induction sched generalizing net with
  | nil => exact h
  | cons act sched ih =>
    apply ih
    exact step_keeps hstep h act.1 act.2

def Finished (net : Net Call Reply Env S α ι) (v : ι → α) : Prop :=
  ∀ i, (net.threads i).prog = .ret (v i)

-- The given calls one after the other, each with the environments it is given.
def runAll [Inhabited Env] (answer : Server Call Reply Env S)
    (calls : List (Prog Call Reply α × List Env)) (s : S) : List α × S :=
  match calls with
  | [] => ([], s)
  | (p, es) :: calls =>
    let res := p.run answer es s
    let rest := runAll answer calls res.2
    (res.1 :: rest.1, rest.2)

/--
The results and the final state are those of the same programs run one after the other, in some
order, with the same environments.
-/
def Serializable [Inhabited Env] (answer : Server Call Reply Env S) (ops : ι → Prog Call Reply α)
    (s : S) (net : Net Call Reply Env S α ι) (v : ι → α) : Prop :=
  ∃ order : List ι,
    order.Nodup ∧
    (∀ i, i ∈ order) ∧
    runAll answer (order.map (fun i => (ops i, (net.threads i).used))) s =
      (order.map v, net.shared)

end Net
end Lib
