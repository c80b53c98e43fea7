import HttpRuntime.Dsl.Memory.Follows

/-!
This module contains the rules for a part of the parser on a heap that does what this part of the parser
of `Dsl.Parser.Basic` does.
-/

open Lib

namespace HttpRuntime
namespace OnHeap

-- The types of the tokens that have a text.
def Texted (type : DslTokenType) : Prop := type ≠ .eof ∧ type ≠ .newline ∧ type ≠ .error

instance (type : DslTokenType) : Decidable (Texted type) := inferInstanceAs (Decidable (_ ∧ _))

namespace DslParser

variable {refuses : Nat → Bool} {parser : DslParser}

theorem exists_current {type : DslTokenType} (h : parser.check type = true)
    : ∃ token, parser.current = some token ∧ token.type = type := by
  unfold check at h
  split at h
  . cases h
  . next token hcurrent => exact ⟨token, hcurrent, of_decide_eq_true h⟩

theorem exists_previousStr {type : DslTokenType} (htype : Texted type) {token : DslToken}
    (hprevious : parser.previous = some token) (heq : token.type = type)
    : ∃ s, parser.previousStr.val = some s := by
  unfold previousStr
  rw [hprevious, Option.bind_some]
  cases hstr : token.str with
  | none =>
    rw [← heq] at htype
    exact absurd hstr (token.str_ne htype.1 htype.2.1 htype.2.2)
  | some x => exact ⟨x.val, rfl⟩

theorem blocks_previousStr_le (parser : DslParser) : parser.previousStr.blocks ≤ parser.blocks := by
  unfold previousStr blocks tokenBlocks
  cases parser.previous with
  | none => exact Multiset.zero_le _
  | some token => exact Multiset.le_add_left _ _

theorem triple_consume (parser : DslParser) {type : DslTokenType} (htype : Texted type) (message : String)
    (bs : Multiset Nat)
    : Heap.Triple refuses (parser.blocks + bs) (parser.consume type message) fun res bs' =>
        bs' = res.1.blocks + bs ∧ (parser.Lost refuses → res.1.Lost refuses) ∧
          (res.2 = true → ∃ s, res.1.previousStr.val = some s) ∧
          ∀ parser', parser.Follows refuses parser' →
            res.2 = (parser'.consume type message).2 ∧
              (res.1.Lost refuses ∨ res.1.Follows refuses (parser'.consume type message).1) := by
  unfold consume HttpRuntime.DslParser.consume
  split
  . next hcheck =>
    apply (parser.triple_advance bs).bind
    rintro next _ ⟨rfl, hlost, hprevious, hnext⟩
    apply Heap.Triple.pure
    refine ⟨rfl, hlost, ?_, ?_⟩
    . intro _
      obtain ⟨token, hcurrent, heq⟩ := exists_current hcheck
      rw [hcurrent] at hprevious
      exact exists_previousStr htype hprevious heq
    . intro parser' h
      rw [← h.check, if_pos hcheck]
      exact ⟨rfl, hnext parser' h⟩
  . next hcheck =>
    apply Heap.Triple.pure
    refine ⟨?_, ?_, ?_, ?_⟩
    . rw [blocks_parserError]
    . exact fun hlost => ⟨hadError_parserError _ _, hlost.2⟩
    . exact fun hok => nomatch hok
    . intro parser' h
      rw [← h.check, if_neg hcheck]
      exact ⟨rfl, Or.inr (h.parserError message)⟩

end DslParser

section Tracks

variable {γ γ' : Type} (refuses : Nat → Bool) (blocks : γ → Multiset Nat) (erase : γ → γ')

/-- A `consume` of the other parser with what comes behind it. -/
def consumeThen (parser : HttpRuntime.DslParser) (type : DslTokenType) (message : String) (c : γ')
    (k : HttpRuntime.DslParser → Option (HttpRuntime.DslParser × γ' × Bool))
    : Option (HttpRuntime.DslParser × γ' × Bool) :=
  if !(parser.consume type message).2 then some ((parser.consume type message).1, c, false)
  else k (parser.consume type message).1

/-- An `advance` of the other parser with what comes behind it. -/
def advanceThen (parser : HttpRuntime.DslParser)
    (k : HttpRuntime.DslParser → Option (HttpRuntime.DslParser × γ' × Bool))
    : Option (HttpRuntime.DslParser × γ' × Bool) :=
  k parser.advance

/-- A look at the current token of the other parser with what comes behind it. -/
def typeThen (parser : HttpRuntime.DslParser)
    (k : Option DslTokenType → HttpRuntime.DslParser → Option (HttpRuntime.DslParser × γ' × Bool))
    : Option (HttpRuntime.DslParser × γ' × Bool) :=
  k (parser.current.map HttpRuntime.DslToken.type) parser

/-- What the other parser comes to, unless an allocation was refused. -/
def Outcome (res : DslParser × γ × Bool) (res' : Option (HttpRuntime.DslParser × γ' × Bool)) : Prop :=
  res.1.Lost refuses ∨
    ∃ parser', res' = some (parser', erase res.2.1, res.2.2) ∧ res.1.Follows refuses parser'

/-- `own` are the blocks of what is being built. -/
def Tracks (parser : DslParser) (own : Multiset Nat) (m : HeapProg (DslParser × γ × Bool))
    (m' : HttpRuntime.DslParser → Option (HttpRuntime.DslParser × γ' × Bool)) : Prop :=
  ∀ bs, Heap.Triple refuses (parser.blocks + own + bs) m fun res bs' =>
    bs' = res.1.blocks + blocks res.2.1 + bs ∧ (parser.Lost refuses → res.1.Lost refuses) ∧
      ∀ parser', parser.Follows refuses parser' → Outcome refuses erase res (m' parser')

variable {refuses blocks erase} {parser : DslParser} {own : Multiset Nat} {c : γ}
variable {m n : HeapProg (DslParser × γ × Bool)}
variable {m' n' : HttpRuntime.DslParser → Option (HttpRuntime.DslParser × γ' × Bool)}

theorem Tracks.done (ok : Bool)
    : Tracks refuses blocks erase parser (blocks c) (pure (parser, c, ok)) fun parser' =>
        some (parser', erase c, ok) := by
  intro bs
  apply Heap.Triple.pure
  exact ⟨rfl, id, fun parser' h => Or.inr ⟨parser', rfl, h⟩⟩

theorem Tracks.fail (message : String)
    : Tracks refuses blocks erase parser (blocks c) (pure (parser.parserError message, c, false))
        fun parser' => some (parser'.parserError message, erase c, false) := by
  intro bs
  apply Heap.Triple.pure
  refine ⟨?_, ?_, ?_⟩
  . rw [DslParser.blocks_parserError]
  . exact fun hlost => ⟨DslParser.hadError_parserError _ _, hlost.2⟩
  . exact fun parser' h => Or.inr ⟨_, rfl, h.parserError message⟩

/-- The error of a refused allocation. -/
theorem Tracks.lost (hrefused : ∃ k, refuses k = true) (message : String)
    : Tracks refuses blocks erase parser (blocks c) (pure (parser.parserError message, c, false)) m' := by
  intro bs
  have hlost : (parser.parserError message).Lost refuses := ⟨DslParser.hadError_parserError _ _, hrefused⟩
  apply Heap.Triple.pure
  refine ⟨?_, fun _ => hlost, fun _ _ => Or.inl hlost⟩
  rw [DslParser.blocks_parserError]

/-- Where both parsers take the same way. -/
theorem Tracks.of_follows
    (h : Tracks refuses blocks erase parser own m m')
    (heq : ∀ parser', parser.Follows refuses parser' → n' parser' = m' parser')
    : Tracks refuses blocks erase parser own m n' := by
  intro bs
  apply (h bs).mono
  rintro res _ ⟨rfl, hlost, hres⟩
  refine ⟨rfl, hlost, ?_⟩
  intro parser' hfollows
  rw [heq parser' hfollows]
  exact hres parser' hfollows

theorem Tracks.of_cond {b : Bool} {b' : HttpRuntime.DslParser → Bool}
    (hb : ∀ parser', parser.Follows refuses parser' → b = b' parser')
    (hm : b = true → Tracks refuses blocks erase parser own m m')
    (hn : b = false → Tracks refuses blocks erase parser own n n')
    : Tracks refuses blocks erase parser own (if b then m else n) fun parser' =>
        if b' parser' then m' parser' else n' parser' := by
  cases b with
  | true =>
    apply (hm rfl).of_follows
    intro parser' h
    rw [← hb parser' h, if_pos rfl]
  | false =>
    apply (hn rfl).of_follows
    intro parser' h
    rw [← hb parser' h, if_neg Bool.false_ne_true]

theorem Tracks.of_type
    {k' : Option DslTokenType → HttpRuntime.DslParser → Option (HttpRuntime.DslParser × γ' × Bool)}
    (hm : Tracks refuses blocks erase parser own m (k' (parser.current.map DslToken.type)))
    : Tracks refuses blocks erase parser own m fun parser' => typeThen parser' k' := by
  apply hm.of_follows
  intro parser' h
  unfold typeThen
  rw [h.currentType]

theorem Tracks.of_own {own' : Multiset Nat} (h : Tracks refuses blocks erase parser own m m')
    (hown : own' = own) : Tracks refuses blocks erase parser own' m m' := by
  rw [hown]
  exact h

theorem Tracks.advance {k : DslParser → HeapProg (DslParser × γ × Bool)}
    {k' : HttpRuntime.DslParser → Option (HttpRuntime.DslParser × γ' × Bool)}
    (hk : ∀ next : DslParser, next.previous = parser.current →
      Tracks refuses blocks erase next own (k next) k')
    : Tracks refuses blocks erase parser own (parser.advance >>= k) fun parser' =>
        advanceThen parser' k' := by
  intro bs
  rw [add_assoc]
  apply (parser.triple_advance (own + bs)).bind
  rintro next _ ⟨rfl, hlost, hprevious, hnext⟩
  rw [← add_assoc]
  apply (hk next hprevious bs).mono
  rintro res _ ⟨rfl, hlost', hres⟩
  refine ⟨rfl, hlost' ∘ hlost, ?_⟩
  intro parser' h
  cases hnext parser' h with
  | inl hlostNext => exact Or.inl (hlost' hlostNext)
  | inr hfollows => exact hres _ hfollows

theorem Tracks.consume {type : DslTokenType} {message : String}
    {k : DslParser × Bool → HeapProg (DslParser × γ × Bool)}
    {k' : HttpRuntime.DslParser → Option (HttpRuntime.DslParser × γ' × Bool)} (htype : Texted type)
    (hk : ∀ (next : DslParser) (s : Bytes), next.previousStr.val = some s →
      Tracks refuses blocks erase next (blocks c) (k (next, true)) k')
    : Tracks refuses blocks erase parser (blocks c)
        (do
          let res ← parser.consume type message
          if !res.2 then pure (res.1, c, false) else k res)
        fun parser' => consumeThen parser' type message (erase c) k' := by
  intro bs
  rw [add_assoc]
  apply (parser.triple_consume htype message (blocks c + bs)).bind
  rintro ⟨next, ok⟩ _ ⟨rfl, hlost, hprevious, hnext⟩
  rw [← add_assoc]
  cases ok with
  | false =>
    apply Heap.Triple.pure
    refine ⟨rfl, hlost, ?_⟩
    intro parser' h
    obtain ⟨hok, hres⟩ := hnext parser' h
    cases hres with
    | inl hlostNext => exact Or.inl hlostNext
    | inr hfollows =>
      dsimp only [consumeThen]
      rw [← hok]
      exact Or.inr ⟨_, rfl, hfollows⟩
  | true =>
    obtain ⟨s, hs⟩ := hprevious rfl
    apply (hk next s hs bs).mono
    rintro res _ ⟨rfl, hlost', hres⟩
    refine ⟨rfl, hlost' ∘ hlost, ?_⟩
    intro parser' h
    obtain ⟨hok, hcases⟩ := hnext parser' h
    cases hcases with
    | inl hlostNext => exact Or.inl (hlost' hlostNext)
    | inr hfollows =>
      dsimp only [consumeThen]
      rw [← hok]
      exact hres _ hfollows

theorem Tracks.of_previous {s : Bytes}
    {k' : Bytes → HttpRuntime.DslParser → Option (HttpRuntime.DslParser × γ' × Bool)}
    (hs : parser.previousStr.val = some s) (hm : Tracks refuses blocks erase parser own m (k' s))
    : Tracks refuses blocks erase parser own m fun parser' =>
        parser'.previousStr >>= fun s => k' s parser' := by
  apply hm.of_follows
  intro parser' h
  rw [h.previousStr hs]
  rfl

theorem Tracks.read {s : Bytes} {k : Bytes → HeapProg (DslParser × γ × Bool)}
    (hs : parser.previousStr.val = some s) (hk : Tracks refuses blocks erase parser own (k s) m')
    : Tracks refuses blocks erase parser own (Heap.read parser.previousStr >>= k) m' := by
  intro bs
  have hlive : parser.previousStr.blocks ≤ parser.blocks + own + bs := by
    rw [add_assoc]
    exact le_trans parser.blocks_previousStr_le (Multiset.le_add_right _ _)
  apply (Heap.triple_read hs hlive).bind
  rintro _ _ ⟨rfl, rfl⟩
  exact hk bs

theorem Tracks.new {α : Type} {a : α} {k : Ptr α → HeapProg (DslParser × γ × Bool)}
    (hnone : (∃ k, refuses k = true) → Tracks refuses blocks erase parser own (k none) m')
    (hsome : ∀ b, Tracks refuses blocks erase parser ({b} + own) (k (some ⟨b, a⟩)) m')
    : Tracks refuses blocks erase parser own (Heap.new a >>= k) m' := by
  intro bs
  apply (Heap.triple_new a _).bind
  rintro p _ ⟨rfl, hp⟩
  cases p with
  | none =>
    rw [Ptr.blocks_none, zero_add]
    cases hp with
    | inl hval => cases hval
    | inr hrefused => exact hnone hrefused.2 bs
  | some x =>
    obtain ⟨b, val⟩ := x
    cases hp with
    | inl hval =>
      cases hval
      apply (hsome b bs).congr
      rw [Ptr.blocks_some]
      abel
    | inr hrefused => cases hrefused.1

theorem Tracks.strdup {s : Bytes} {k : Ptr Bytes → HeapProg (DslParser × γ × Bool)}
    (hs : parser.previousStr.val = some s)
    (hnone : (∃ k, refuses k = true) → Tracks refuses blocks erase parser own (k none) m')
    (hsome : ∀ b, Tracks refuses blocks erase parser ({b} + own) (k (some ⟨b, s⟩)) m')
    : Tracks refuses blocks erase parser own (OnHeap.strdup parser.previousStr >>= k) m' := by
  unfold OnHeap.strdup
  rw [bind_assoc]
  apply Tracks.read hs
  exact Tracks.new hnone hsome

theorem Tracks.delete {p : Ptr Bytes} (hm : Tracks refuses blocks erase parser own m m')
    : Tracks refuses blocks erase parser (p.blocks + own) (Heap.delete p >>= fun _ => m) m' := by
  intro bs
  have hsplit : parser.blocks + (p.blocks + own) + bs = p.blocks + (parser.blocks + own + bs) := by abel
  rw [hsplit]
  apply (Heap.triple_delete p _).bind
  rintro _ _ rfl
  exact hm bs

end Tracks

end OnHeap
end HttpRuntime
