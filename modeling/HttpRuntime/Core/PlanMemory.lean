import HttpRuntime.Core.RunPlan
import HttpRuntime.Lib.Heap

/-!
This module contains the plans of `run_plan.h` on a heap, where every string is a block of its own, and
how `free_run_plan` gives the blocks of a plan back.
-/

open Lib

namespace HttpRuntime
namespace OnHeap

/-- `free_run_plan` looks at the type of an assertion to find its blocks. -/
inductive Assertion where
  | statusEq (n : Int)
  | bodyContains (data : Ptr Bytes) (len : Nat)
  | headerContains (name value : Ptr Bytes)

structure RequestCase where
  method : Method
  url : Ptr Bytes
  headers : Ptr Bytes
  body : Ptr Bytes
  bodyLen : Nat
  assertions : List Assertion
  timeoutMs : Int

structure RunPlan where
  cases : List RequestCase
  workerCount : Nat
  saveHistory : Bool
  dbPath : Ptr Bytes
  collectionName : Ptr Bytes
  defaultTimeoutMs : Int

def RunPlan.zero : RunPlan where
  cases := []
  workerCount := 0
  saveHistory := false
  dbPath := none
  collectionName := none
  defaultTimeoutMs := 0

def initRunPlan : RunPlan :=
  { RunPlan.zero with workerCount := 4, saveHistory := true, defaultTimeoutMs := 5000 }

def freeAssertion (as : Assertion) : HeapProg Unit :=
  match as with
  | .bodyContains data _ => Heap.delete data
  | .headerContains name value => do
    Heap.delete name
    Heap.delete value
  | .statusEq _ => pure ()

def freeAssertions (assertions : List Assertion) : HeapProg Unit :=
  match assertions with
  | [] => pure ()
  | as :: assertions => do
    freeAssertion as
    freeAssertions assertions

def freeCase (requestCase : RequestCase) : HeapProg Unit := do
  Heap.delete requestCase.url
  Heap.delete requestCase.headers
  Heap.delete requestCase.body
  freeAssertions requestCase.assertions

def freeCases (cases : List RequestCase) : HeapProg Unit :=
  match cases with
  | [] => pure ()
  | requestCase :: cases => do
    freeCase requestCase
    freeCases cases

def freeRunPlan (plan : RunPlan) : HeapProg RunPlan := do
  freeCases plan.cases
  Heap.delete plan.dbPath
  Heap.delete plan.collectionName
  pure .zero

section Blocks

def Assertion.blocks (as : Assertion) : Multiset Nat :=
  match as with
  | .statusEq _ => 0
  | .bodyContains data _ => data.blocks
  | .headerContains name value => name.blocks + value.blocks

def RequestCase.blocks (requestCase : RequestCase) : Multiset Nat :=
  requestCase.url.blocks + requestCase.headers.blocks + requestCase.body.blocks +
    (requestCase.assertions.map Assertion.blocks).sum

def RunPlan.blocks (plan : RunPlan) : Multiset Nat :=
  (plan.cases.map RequestCase.blocks).sum + plan.dbPath.blocks + plan.collectionName.blocks

/-- The assertion without its blocks. -/
def Assertion.erase (as : Assertion) : HttpRuntime.Assertion :=
  match as with
  | .statusEq n => ⟨.statusEq, .int n⟩
  | .bodyContains data len => ⟨.bodyContains, .bytes data.val len⟩
  | .headerContains name value => ⟨.headerContains, .header ⟨name.val, value.val⟩⟩

def RequestCase.erase (requestCase : RequestCase) : HttpRuntime.RequestCase where
  method := requestCase.method
  url := requestCase.url.val
  headers := requestCase.headers.val
  body := requestCase.body.val
  bodyLen := requestCase.bodyLen
  assertions := requestCase.assertions.map Assertion.erase
  timeoutMs := requestCase.timeoutMs

def RunPlan.erase (plan : RunPlan) : HttpRuntime.RunPlan where
  cases := plan.cases.map RequestCase.erase
  workerCount := plan.workerCount
  saveHistory := plan.saveHistory
  dbPath := plan.dbPath.val
  collectionName := plan.collectionName.val
  defaultTimeoutMs := plan.defaultTimeoutMs

@[simp]
theorem erase_zero : RunPlan.zero.erase = .zero := rfl

@[simp]
theorem erase_initRunPlan : initRunPlan.erase = HttpRuntime.initRunPlan := rfl

@[simp]
theorem blocks_zero : RunPlan.zero.blocks = 0 := rfl

@[simp]
theorem blocks_initRunPlan : initRunPlan.blocks = 0 := rfl

end Blocks

section Free

variable {refuses : Nat → Bool}

theorem triple_freeAssertion (as : Assertion) (bs : Multiset Nat)
    : Heap.Triple refuses (as.blocks + bs) (freeAssertion as) fun _ bs' => bs' = bs := by
  cases as with
  | statusEq n =>
    apply Heap.Triple.pure
    exact zero_add bs
  | bodyContains data len => exact Heap.triple_delete data bs
  | headerContains name value =>
    unfold Assertion.blocks freeAssertion
    dsimp only
    rw [add_assoc]
    apply (Heap.triple_delete name _).bind
    rintro _ _ rfl
    exact Heap.triple_delete value bs

theorem triple_freeAssertions (assertions : List Assertion) (bs : Multiset Nat)
    : Heap.Triple refuses ((assertions.map Assertion.blocks).sum + bs) (freeAssertions assertions)
        fun _ bs' => bs' = bs := by
  induction assertions with
  | nil =>
    apply Heap.Triple.pure
    exact zero_add bs
  | cons as assertions ih =>
    rw [List.map_cons, List.sum_cons, add_assoc]
    apply (triple_freeAssertion as _).bind
    rintro _ _ rfl
    exact ih

theorem triple_freeCase (requestCase : RequestCase) (bs : Multiset Nat)
    : Heap.Triple refuses (requestCase.blocks + bs) (freeCase requestCase) fun _ bs' => bs' = bs := by
  unfold RequestCase.blocks freeCase
  rw [add_assoc, add_assoc, add_assoc]
  apply (Heap.triple_delete requestCase.url _).bind
  rintro _ _ rfl
  apply (Heap.triple_delete requestCase.headers _).bind
  rintro _ _ rfl
  apply (Heap.triple_delete requestCase.body _).bind
  rintro _ _ rfl
  exact triple_freeAssertions requestCase.assertions bs

theorem triple_freeCases (cases : List RequestCase) (bs : Multiset Nat)
    : Heap.Triple refuses ((cases.map RequestCase.blocks).sum + bs) (freeCases cases)
        fun _ bs' => bs' = bs := by
  induction cases with
  | nil =>
    apply Heap.Triple.pure
    exact zero_add bs
  | cons requestCase cases ih =>
    rw [List.map_cons, List.sum_cons, add_assoc]
    apply (triple_freeCase requestCase _).bind
    rintro _ _ rfl
    exact ih

theorem triple_freeRunPlan (plan : RunPlan) (bs : Multiset Nat)
    : Heap.Triple refuses (plan.blocks + bs) (freeRunPlan plan)
        fun plan' bs' => plan' = .zero ∧ bs' = bs := by
  unfold RunPlan.blocks freeRunPlan
  rw [add_assoc, add_assoc]
  apply (triple_freeCases plan.cases _).bind
  rintro _ _ rfl
  apply (Heap.triple_delete plan.dbPath _).bind
  rintro _ _ rfl
  apply (Heap.triple_delete plan.collectionName bs).bind
  rintro _ _ rfl
  apply Heap.Triple.pure
  exact ⟨rfl, rfl⟩

end Free

end OnHeap
end HttpRuntime
