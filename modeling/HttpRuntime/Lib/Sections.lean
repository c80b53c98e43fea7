import Mathlib.Data.List.Forall2

/-!
This module contains texts made of headings and clauses, where a clause belongs to the last heading
before it. Reading such a text clause by clause, with the last group at hand, builds what its
sections say.
-/

namespace Lib.Sections

variable {α β γ : Type}

def leading (stmts : List (α ⊕ β)) : List β :=
  match stmts with
  | .inr b :: stmts => b :: leading stmts
  | _ => []

def sections (stmts : List (α ⊕ β)) : List (α × List β) :=
  match stmts with
  | [] => []
  | .inl a :: stmts => (a, leading stmts) :: sections stmts
  | .inr _ :: stmts => sections stmts

theorem mem_of_mem_leading {stmts : List (α ⊕ β)} {b : β} (h : b ∈ leading stmts) : .inr b ∈ stmts := by
  fun_induction leading stmts with
  | case1 b' stmts ih =>
    cases List.mem_cons.mp h with
    | inl heq =>
      rw [heq]
      exact List.mem_cons_self
    | inr h => exact List.mem_cons_of_mem _ (ih h)
  | case2 => cases h

theorem mem_of_mem_sections {stmts : List (α ⊕ β)} {sec : α × List β} (hsec : sec ∈ sections stmts)
    {b : β} (h : b ∈ sec.2) : .inr b ∈ stmts := by
  fun_induction sections stmts with
  | case1 => cases hsec
  | case2 a stmts ih =>
    apply List.mem_cons_of_mem
    cases List.mem_cons.mp hsec with
    | inl heq =>
      rw [heq] at h
      exact mem_of_mem_leading h
    | inr hsec => exact ih hsec
  | case3 b' stmts ih => exact List.mem_cons_of_mem _ (ih hsec)

theorem leading_map_inr (bs : List β) : leading (bs.map (.inr : β → α ⊕ β)) = bs := by
  induction bs with
  | nil => rfl
  | cons b bs ih =>
    rw [List.map_cons, leading, ih]

theorem sections_map_inr (bs : List β) : sections (bs.map (.inr : β → α ⊕ β)) = [] := by
  induction bs with
  | nil => rfl
  | cons b bs ih =>
    rw [List.map_cons, sections, ih]

theorem leading_append_of_nil {xs : List (α ⊕ β)} (h : sections xs = []) (ys : List (α ⊕ β))
    : leading (xs ++ ys) = leading xs ++ leading ys := by
  induction xs with
  | nil => rfl
  | cons x xs ih =>
    cases x with
    | inl a => cases h
    | inr b =>
      simp only [List.cons_append, leading]
      rw [ih h]

theorem leading_append_of_ne {xs : List (α ⊕ β)} (h : sections xs ≠ []) (ys : List (α ⊕ β))
    : leading (xs ++ ys) = leading xs := by
  induction xs with
  | nil => exact absurd rfl h
  | cons x xs ih =>
    cases x with
    | inl a => rfl
    | inr b =>
      simp only [List.cons_append, leading]
      rw [ih h]

theorem sections_append_of_nil {xs : List (α ⊕ β)} (h : sections xs = []) (ys : List (α ⊕ β))
    : sections (xs ++ ys) = sections ys := by
  induction xs with
  | nil => rfl
  | cons x xs ih =>
    cases x with
    | inl a => cases h
    | inr b => exact ih h

/-- The last section takes the clauses up to the next heading. -/
theorem sections_append {xs : List (α ⊕ β)} {a : α} {bs : List β}
    (h : (sections xs).getLast? = some (a, bs)) (ys : List (α ⊕ β))
    : sections (xs ++ ys) = (sections xs).dropLast ++ (a, bs ++ leading ys) :: sections ys := by
  induction xs with
  | nil => cases h
  | cons x xs ih =>
    cases x with
    | inr b => exact ih h
    | inl a' =>
      simp only [List.cons_append, sections] at h ⊢
      cases hsections : sections xs with
      | nil =>
        rw [hsections, List.getLast?_singleton, Option.some.injEq, Prod.mk.injEq] at h
        rw [leading_append_of_nil hsections, sections_append_of_nil hsections, h.1, h.2]
        rfl
      | cons sec secs =>
        have hne : sections xs ≠ [] := by
          rw [hsections]
          simp
        rw [hsections, List.getLast?_cons_cons, ← hsections] at h
        rw [leading_append_of_ne hne, ih h, hsections, List.dropLast_cons_cons]
        rfl

theorem sections_concat_inl (xs : List (α ⊕ β)) (a : α)
    : sections (xs ++ [.inl a]) = sections xs ++ [(a, [])] := by
  cases hlast : (sections xs).getLast? with
  | none =>
    have hnil := List.getLast?_eq_none_iff.mp hlast
    rw [sections_append_of_nil hnil, hnil]
    rfl
  | some sec =>
    rw [sections_append hlast]
    simp only [leading, sections, List.append_nil]
    obtain ⟨secs, hsecs⟩ := List.getLast?_eq_some_iff.mp hlast
    rw [hsecs, List.dropLast_concat, List.append_assoc]
    rfl

-- A text without a clause before its first heading adds nothing to the text before it.
theorem leading_append_of_leading {ys : List (α ⊕ β)} (h : leading ys = []) (xs : List (α ⊕ β))
    : leading (xs ++ ys) = leading xs := by
  by_cases hxs : sections xs = []
  . rw [leading_append_of_nil hxs, h, List.append_nil]
  . exact leading_append_of_ne hxs ys

theorem sections_append_of_leading {ys : List (α ⊕ β)} (h : leading ys = []) (xs : List (α ⊕ β))
    : sections (xs ++ ys) = sections xs ++ sections ys := by
  induction xs with
  | nil => rfl
  | cons x xs ih =>
    cases x with
    | inl a =>
      simp only [List.cons_append, sections]
      rw [leading_append_of_leading h, ih]
    | inr b => exact ih

variable (start : α → γ) (extend : γ → β → Option γ) (limit : Nat)

/-- A heading starts a group as long as there is room, a clause extends the last group. -/
def attach (groups : List γ) (stmt : α ⊕ β) : Option (List γ) :=
  match stmt with
  | .inl a => if groups.length < limit then some (groups ++ [start a]) else none
  | .inr b =>
    match groups.getLast? with
    | none => none
    | some g => (extend g b).map (fun g => groups.dropLast ++ [g])

def Builds (sec : α × List β) (g : γ) : Prop := sec.2.foldlM extend (start sec.1) = some g

theorem foldlM_attach_snoc (stmts : List (α ⊕ β)) {groups : List γ} (g : γ) (res : List γ)
    (hlimit : groups.length < limit)
    : stmts.foldlM (attach start extend limit) (groups ++ [g]) = some res ↔
        ∃ g' rest,
          (leading stmts).foldlM extend g = some g' ∧
          List.Forall₂ (Builds start extend) (sections stmts) rest ∧
          groups.length + 1 + rest.length ≤ limit ∧
          res = groups ++ g' :: rest := by
  induction stmts generalizing groups g with
  | nil =>
    simp only [leading, sections, List.foldlM_nil, List.forall₂_nil_left_iff]
    constructor
    . intro h
      refine ⟨g, [], rfl, rfl, ?_, (Option.some.inj h).symm⟩
      rw [List.length_nil]
      omega
    . rintro ⟨g', rest, hg, hrest, _, hres⟩
      rw [Option.pure_def, Option.some.injEq] at hg
      rw [hres, hrest, ← hg]
      rfl
  | cons stmt stmts ih =>
    rw [List.foldlM_cons]
    cases stmt with
    | inl a =>
      simp only [attach, leading, sections, List.foldlM_nil, List.length_append, List.length_singleton]
      by_cases hroom : groups.length + 1 < limit
      . rw [if_pos hroom, Option.bind_eq_bind, Option.bind_some, ih _ (by simpa using hroom)]
        constructor
        . rintro ⟨g', rest, hg, hrest, hlen, hres⟩
          refine ⟨g, g' :: rest, rfl, List.Forall₂.cons hg hrest, ?_, ?_⟩
          . rw [List.length_append, List.length_singleton] at hlen
            rw [List.length_cons]
            omega
          . rw [hres, List.append_assoc]
            rfl
        . rintro ⟨g', rest, hg, hrest, hlen, hres⟩
          rw [Option.pure_def, Option.some.injEq] at hg
          cases hrest with
          | @cons _ r _ rest hr hrest =>
            refine ⟨r, rest, hr, hrest, ?_, ?_⟩
            . rw [List.length_cons] at hlen
              rw [List.length_append, List.length_singleton]
              omega
            . rw [hres, ← hg, List.append_assoc]
              rfl
      . rw [if_neg hroom]
        constructor
        . intro h
          cases h
        . rintro ⟨g', rest, _, hrest, hlen, _⟩
          cases hrest with
          | cons hr hrest =>
            rw [List.length_cons] at hlen
            omega
    | inr b =>
      simp only [attach, leading, sections, List.getLast?_concat, List.dropLast_concat]
      rw [List.foldlM_cons]
      cases hextend : extend g b with
      | none =>
        constructor
        . intro h
          cases h
        . rintro ⟨g', rest, hg, _⟩
          cases hg
      | some g₁ =>
        rw [Option.map_some, Option.bind_eq_bind, Option.bind_some, ih _ hlimit]
        rfl

/--
Reading succeeds if and only if there is no clause before the first heading, there is room for every
section, and every section can be built.
-/
theorem foldlM_attach_iff {stmts : List (α ⊕ β)} {res : List γ}
    : stmts.foldlM (attach start extend limit) [] = some res ↔
        leading stmts = [] ∧ (sections stmts).length ≤ limit ∧
          List.Forall₂ (Builds start extend) (sections stmts) res := by
  cases stmts with
  | nil =>
    simp only [leading, sections, List.foldlM_nil, List.length_nil, Nat.zero_le, true_and,
      List.forall₂_nil_left_iff]
    rw [Option.pure_def, Option.some.injEq]
    exact eq_comm
  | cons stmt stmts =>
    rw [List.foldlM_cons]
    cases stmt with
    | inl a =>
      simp only [attach, leading, sections, List.length_nil, List.nil_append, true_and, List.length_cons]
      by_cases hroom : 0 < limit
      . rw [if_pos hroom, Option.bind_eq_bind, Option.bind_some]
        have hsnoc := foldlM_attach_snoc start extend limit stmts (start a) res
          (show List.length [] < limit from hroom)
        rw [List.nil_append] at hsnoc
        rw [hsnoc]
        constructor
        . rintro ⟨g', rest, hg, hrest, hlen, hres⟩
          rw [List.nil_append] at hres
          rw [List.length_nil] at hlen
          refine ⟨?_, hres ▸ List.Forall₂.cons hg hrest⟩
          rw [hrest.length_eq]
          omega
        . rintro ⟨hlen, hall⟩
          cases hall with
          | @cons _ r _ rest hr hrest =>
            refine ⟨r, rest, hr, hrest, ?_, rfl⟩
            rw [hrest.length_eq] at hlen
            simp only [List.length_nil]
            omega
      . rw [if_neg hroom]
        constructor
        . intro h
          cases h
        . rintro ⟨hlen, _⟩
          omega
    | inr b =>
      constructor
      . intro h
        cases h
      . rintro ⟨h, _⟩
        cases h

end Lib.Sections
