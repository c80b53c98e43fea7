import HttpRuntime.Core.Assertion
import Mathlib.Data.List.TakeWhile

/-!
This module contains how `header_contains` goes through a text line by line.
-/

namespace HttpRuntime

variable {name value : Bytes}

theorem cstring_eq_self {text : Bytes} (h : ∀ c ∈ text, c ≠ 0) : cstring text = text := by
  unfold cstring
  rw [List.takeWhile_eq_self_iff]
  intro c hc
  simpa using h c hc

theorem headerLinesContain_nil : headerLinesContain [] name value = false := by
  rw [headerLinesContain]

theorem headerLinesContain_cons {line : Bytes} (hline : 10 ∉ line) (rest : Bytes)
    : headerLinesContain (line ++ 10 :: rest) name value =
        (headerLineMatches line name value || headerLinesContain rest name value) := by
  have hmem : ∀ c ∈ line, (c != 10) = true := by
    intro c hc
    rw [bne_iff_ne]
    intro heq
    exact hline (heq ▸ hc)
  have htake : (line ++ 10 :: rest).takeWhile (fun c => c != 10) = line := by
    rw [List.takeWhile_append_of_pos hmem, List.takeWhile_cons_of_neg (by decide), List.append_nil]
  have hdrop : (line ++ 10 :: rest).drop (line.length + 1) = rest := by
    rw [List.drop_append, List.drop_of_length_le (by omega), List.nil_append, Nat.add_sub_cancel_left]
    rfl
  cases hcons : line ++ 10 :: rest with
  | nil => simp at hcons
  | cons c tail =>
    rw [headerLinesContain, ← hcons, htake, hdrop]
    cases headerLineMatches line name value <;> rfl

theorem headerLinesContain_flatMap {lines : List Bytes} (hlines : ∀ line ∈ lines, 10 ∉ line)
    : headerLinesContain (lines.flatMap (fun line => line ++ [10])) name value =
        lines.any (fun line => headerLineMatches line name value) := by
  induction lines with
  | nil =>
    rw [List.flatMap_nil, headerLinesContain_nil]
    rfl
  | cons line lines ih =>
    rw [List.forall_mem_cons] at hlines
    rw [List.flatMap_cons, List.append_assoc, List.singleton_append, headerLinesContain_cons hlines.1,
      ih hlines.2, List.any_cons]

theorem headerContains_of_empty {headers : Option Bytes} (h : cstring (headers.getD []) = [])
    (expected : HeaderExpect) : headerContains headers expected = false := by
  unfold headerContains
  split
  . next text _ _ =>
    rw [Option.getD_some] at h
    rw [h, headerLinesContain_nil]
  . rfl

theorem passed_headerContains (resp : Response) (expected : HeaderExpect)
    : (evalAssertion (some resp) (some ⟨.headerContains, .header expected⟩)).passed =
        headerContains resp.headers expected := by
  unfold evalAssertion
  dsimp only
  split
  . next hempty =>
    have hstring : cstring (resp.headers.getD []) = [] := by
      rcases hempty with hnone | hlength
      . rw [hnone]
        rfl
      . cases hheaders : resp.headers with
        | none => rfl
        | some text =>
          rw [hheaders, Option.map_some, Option.getD_some] at hlength
          exact List.eq_nil_of_length_eq_zero hlength
    exact (headerContains_of_empty hstring expected).symm
  . rfl

end HttpRuntime
