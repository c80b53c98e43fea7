import HttpRuntime.Core.Assertion
import HttpRuntime.Lib.Scan

/-!
This module contains the body assertions: `bytes_contains` decides whether the pattern occurs in the
body, and its loop reads nothing but the body and the pattern.
-/

open Lib

namespace HttpRuntime

/-- `a - b` of two `size_t`, which has no result where it would wrap around. -/
def sizeSub (a b : Nat) : Option Nat :=
  if b ≤ a then some (a - b) else none

-- The loop of `bytes_contains` from `i` on, up to and including `len`.
def memcmpLoop (haystack needle : Bytes) (needleLen len i : Nat) : Option Bool :=
  if i ≤ len then
    match readSlice haystack i needleLen, readSlice needle 0 needleLen with
    | some block, some pattern =>
      if block == pattern then some true else memcmpLoop haystack needle needleLen len (i + 1)
    | _, _ => none
  else
    some false
termination_by len + 1 - i

/-- `bytes_contains` on two buffers, with every read and the subtraction checked. -/
def bytesContainsScan (haystack : Bytes) (haystackLen : Nat) (needle : Bytes) (needleLen : Nat)
    : Option Bool :=
  if needleLen = 0 then
    some true
  else if haystackLen < needleLen then
    some false
  else
    match sizeSub haystackLen needleLen with
    | some len => memcmpLoop haystack needle needleLen len 0
    | none => none

/-- The bytes that `body` and `body_len` of a response stand for. -/
def Response.bodyBytes (resp : Response) : Bytes := (resp.body.getD []).take resp.bodyLen

/-- The evaluation of a body assertion, where the scan sees the body and not what is behind it. -/
def bodyContainsScan (resp : Response) (data : Bytes) (len : Nat) : Option Bool :=
  if resp.body = none ∨ resp.bodyLen = 0 then
    some false
  else
    bytesContainsScan resp.bodyBytes resp.bodyLen data len

theorem isInfix_iff_offset {needle haystack : Bytes}
    : needle <:+: haystack ↔
        ∃ i, i + needle.length ≤ haystack.length ∧ (haystack.drop i).take needle.length = needle := by
  constructor
  . rintro ⟨before, after, rfl⟩
    refine ⟨before.length, by simp, ?_⟩
    rw [List.append_assoc, List.drop_left, List.take_left]
  . rintro ⟨i, _, h⟩
    have hprefix : needle <+: haystack.drop i := by
      rw [List.prefix_iff_eq_take]
      exact h.symm
    exact hprefix.isInfix.trans (List.drop_suffix i haystack).isInfix

theorem memcmpLoop_eq (haystack : Bytes) {needle : Bytes} {needleLen len : Nat}
    (hlen : len + needleLen = haystack.length) (hneedle : needleLen ≤ needle.length) (i : Nat)
    : ∃ found, memcmpLoop haystack needle needleLen len i = some found ∧
        (found = true ↔
          ∃ j, i ≤ j ∧ j ≤ len ∧ (haystack.drop j).take needleLen = needle.take needleLen) := by
  fun_induction memcmpLoop haystack needle needleLen len i with
  | case1 i hi block pattern hpattern hblock heq =>
    unfold readSlice at hblock hpattern
    rw [if_pos (by omega), Option.some.injEq] at hblock hpattern
    refine ⟨true, rfl, iff_of_true rfl ⟨i, le_rfl, hi, ?_⟩⟩
    rw [hblock, eq_of_beq heq, ← hpattern, List.drop_zero]
  | case2 i hi block pattern hpattern hblock hne ih =>
    unfold readSlice at hblock hpattern
    rw [if_pos (by omega), Option.some.injEq] at hblock hpattern
    obtain ⟨found, hfound, hiff⟩ := ih
    refine ⟨found, hfound, hiff.trans ?_⟩
    constructor
    . rintro ⟨j, hij, hj, h⟩
      exact ⟨j, by omega, hj, h⟩
    . rintro ⟨j, hij, hj, h⟩
      refine ⟨j, ?_, hj, h⟩
      -- The block at `i` is not the pattern, so the first occurrence is behind it.
      rcases Nat.eq_or_lt_of_le hij with rfl | hlt
      . rw [hblock] at h
        rw [List.drop_zero] at hpattern
        rw [h, hpattern, beq_self_eq_true] at hne
        cases hne rfl
      . exact hlt
  | case3 i hi hreads =>
    have hblock : readSlice haystack i needleLen = some ((haystack.drop i).take needleLen) := by
      unfold readSlice
      rw [if_pos (by omega)]
    have hpattern : readSlice needle 0 needleLen = some ((needle.drop 0).take needleLen) := by
      unfold readSlice
      rw [if_pos (by omega)]
    cases hreads _ _ hblock hpattern
  | case4 i hi =>
    refine ⟨false, rfl, iff_of_false (by decide) ?_⟩
    rintro ⟨j, hij, hj, _⟩
    omega

theorem bytesContainsScan_correct (haystack : Bytes) {needle : Bytes} {needleLen : Nat}
    (hneedle : needleLen ≤ needle.length)
    : ∃ found, bytesContainsScan haystack haystack.length needle needleLen = some found ∧
        (found = true ↔ needle.take needleLen <:+: haystack) := by
  have hpattern : (needle.take needleLen).length = needleLen := List.length_take_of_le hneedle
  unfold bytesContainsScan
  split
  . next hzero =>
    refine ⟨true, rfl, iff_of_true rfl ?_⟩
    rw [hzero, List.take_zero]
    exact List.nil_infix
  split
  . next hshort =>
    refine ⟨false, rfl, iff_of_false (by decide) ?_⟩
    intro hinfix
    have hle := hinfix.length_le
    omega
  . next hlong =>
    have hsub : sizeSub haystack.length needleLen = some (haystack.length - needleLen) := by
      unfold sizeSub
      rw [if_pos (by omega)]
    obtain ⟨found, hfound, hiff⟩ :=
      memcmpLoop_eq haystack (Nat.sub_add_cancel (Nat.le_of_not_lt hlong)) hneedle 0
    rw [hsub]
    refine ⟨found, hfound, hiff.trans ?_⟩
    rw [isInfix_iff_offset, hpattern]
    constructor
    . rintro ⟨j, _, hj, h⟩
      exact ⟨j, by omega, h⟩
    . rintro ⟨j, hj, h⟩
      exact ⟨j, by omega, by omega, h⟩

theorem bytesContains_eq_true_iff {haystack needle : Bytes} {haystackLen needleLen : Nat}
    (hhaystack : haystackLen ≤ haystack.length) (hneedle : needleLen ≤ needle.length)
    : bytesContains (.bytes (some haystack) haystackLen) (.bytes (some needle) needleLen) = true ↔
        needle.take needleLen <:+: haystack.take haystackLen := by
  have hbody : (haystack.take haystackLen).length = haystackLen := List.length_take_of_le hhaystack
  have hpattern : (needle.take needleLen).length = needleLen := List.length_take_of_le hneedle
  unfold bytesContains
  dsimp only
  split
  . next hzero =>
    refine iff_of_true rfl ?_
    rw [hzero, List.take_zero]
    exact List.nil_infix
  split
  . next hshort =>
    refine iff_of_false (by decide) ?_
    intro hinfix
    have hle := hinfix.length_le
    omega
  . next hlong =>
    -- A block that ends inside of the body is the same block of the buffer.
    have hblock (i : Nat) (hi : i + needleLen ≤ haystackLen)
        : ((haystack.take haystackLen).drop i).take needleLen = (haystack.drop i).take needleLen := by
      rw [List.drop_take, List.take_take, min_eq_left (by omega)]
    rw [isInfix_iff_offset, hbody, hpattern, List.any_eq_true]
    constructor
    . rintro ⟨i, hi, h⟩
      rw [List.mem_range] at hi
      exact ⟨i, by omega, by rw [hblock i (by omega), eq_of_beq h]⟩
    . rintro ⟨i, hi, h⟩
      rw [hblock i hi] at h
      exact ⟨i, List.mem_range.mpr (by omega), by rw [h, beq_self_eq_true]⟩

theorem bodyContains_correct (resp : Response) (data : Bytes) (len : Nat)
    (hbody : ∀ body, resp.body = some body → resp.bodyLen ≤ body.length) (hdata : len ≤ data.length)
    : ((evalAssertion (some resp) (some ⟨.bodyContains, .bytes (some data) len⟩)).passed = true ↔
          resp.bodyBytes ≠ [] ∧ data.take len <:+: resp.bodyBytes) ∧
        bodyContainsScan resp data len =
          some (evalAssertion (some resp) (some ⟨.bodyContains, .bytes (some data) len⟩)).passed := by
  unfold bodyContainsScan evalAssertion
  dsimp only
  split
  . next hempty =>
    refine ⟨iff_of_false (by simp) ?_, rfl⟩
    rintro ⟨hne, _⟩
    apply hne
    unfold Response.bodyBytes
    cases hempty with
    | inl hnone =>
      rw [hnone]
      exact List.take_nil
    | inr hzero =>
      rw [hzero]
      exact List.take_zero
  . next hsome =>
    rw [not_or] at hsome
    obtain ⟨body, hbodyEq⟩ := Option.ne_none_iff_exists'.mp hsome.1
    have hle := hbody body hbodyEq
    have hbytes : resp.bodyBytes = body.take resp.bodyLen := by
      unfold Response.bodyBytes
      rw [hbodyEq, Option.getD_some]
    have hlength : resp.bodyBytes.length = resp.bodyLen := by
      rw [hbytes]
      exact List.length_take_of_le hle
    have hne : resp.bodyBytes ≠ [] := by
      intro hnil
      rw [hnil, List.length_nil] at hlength
      exact hsome.2 hlength.symm
    have hcontains := bytesContains_eq_true_iff hle hdata
    rw [← hbodyEq, ← hbytes] at hcontains
    refine ⟨?_, ?_⟩
    . rw [hcontains]
      exact (and_iff_right hne).symm
    . obtain ⟨found, hfound, hiff⟩ := bytesContainsScan_correct resp.bodyBytes hdata
      rw [hlength] at hfound
      rw [hfound, Option.some.injEq, Bool.eq_iff_iff, hiff]
      exact hcontains.symm

theorem bodyContains_correct_last :
    (evalAssertion (some { Response.zero with body := some [7, 0, 8, 9, 0], bodyLen := 4 })
        (some ⟨.bodyContains, .bytes (some [8, 9]) 2⟩)).passed = true ∧
      bodyContainsScan { Response.zero with body := some [7, 0, 8, 9, 0], bodyLen := 4 } [8, 9] 2 =
        some true := by
  obtain ⟨hiff, hscan⟩ :=
    bodyContains_correct { Response.zero with body := some [7, 0, 8, 9, 0], bodyLen := 4 } [8, 9] 2
      (by intro body h; cases h; decide) (by decide)
  have hpassed := hiff.mpr ⟨by decide, by decide⟩
  exact ⟨hpassed, by rw [hscan, hpassed]⟩

end HttpRuntime
