import HttpRuntime.Core.Worker

/-!
This module contains that the two callbacks gather what they are given: the buffers hold the chunks
one after the other, however they are cut.
-/

namespace HttpRuntime

structure Response.Buffers (r : Response) : Prop where
  body : (r.body.getD []).length = r.bodyLen
  bodyCapacity : r.bodyLen ≤ r.bodyCapacity
  noBody : r.body = none → r.bodyCapacity = 0
  headers : (r.headers.getD []).length = r.headersLen
  headersCapacity : r.headers ≠ none → r.headersLen + 1 ≤ r.headersCapacity
  noHeaders : r.headers = none → r.headersCapacity = 0

structure Response.Fresh (r : Response) : Prop where
  body : r.body = none
  bodyLen : r.bodyLen = 0
  bodyCapacity : r.bodyCapacity = 0
  headers : r.headers = none
  headersLen : r.headersLen = 0
  headersCapacity : r.headersCapacity = 0

theorem Response.Fresh.buffers {r : Response} (h : r.Fresh) : r.Buffers where
  body := by rw [h.body, h.bodyLen]; rfl
  bodyCapacity := by rw [h.bodyLen]; exact Nat.zero_le _
  noBody := fun _ => h.bodyCapacity
  headers := by rw [h.headers, h.headersLen]; rfl
  headersCapacity := fun hne => absurd h.headers hne
  noHeaders := fun _ => h.headersCapacity

theorem le_maxSize (a b c : Nat) : c ≤ maxSize a b c := by
  unfold maxSize
  split
  . split <;> omega
  . split <;> omega

-- The fields of a response that make up one of its buffers.
structure Buffer where
  data : Option Bytes
  len : Nat
  capacity : Nat

namespace Buffer

/-- What both callbacks do. `reserve` bytes stay free behind the data. -/
def append (reserve : Nat) (b : Buffer) (chunk : Bytes) (alloc : Bool) : Buffer × Nat :=
  let requiredSize := b.len + chunk.length + reserve
  if requiredSize > b.capacity then
    if !alloc then
      (b, 0)
    else
      let newCapacity := maxSize initialCapacity (b.capacity * 2) requiredSize
      (⟨some (b.data.getD [] ++ chunk), b.len + chunk.length, newCapacity⟩, chunk.length)
  else
    (⟨b.data.map (fun data => data ++ chunk), b.len + chunk.length, b.capacity⟩, chunk.length)

structure Valid (reserve : Nat) (b : Buffer) : Prop where
  len : (b.data.getD []).length = b.len
  capacity : b.data ≠ none → b.len + reserve ≤ b.capacity
  noData : b.data = none → b.capacity = 0

variable {reserve : Nat} {b : Buffer} {chunk : Bytes} {alloc : Bool}

-- Where there is no buffer, only an empty chunk is appended without `realloc`.
theorem Valid.eq_nil_of_fits (h : b.Valid reserve) (hnone : b.data = none)
    (hfits : ¬ b.len + chunk.length + reserve > b.capacity) : chunk = [] := by
  have := h.noData hnone
  rw [← List.length_eq_zero_iff]
  omega

theorem Valid.append (h : b.Valid reserve) (chunk : Bytes) (alloc : Bool)
    : (b.append reserve chunk alloc).1.Valid reserve := by
  have hlen := h.len
  unfold Buffer.append
  dsimp only
  split
  . split
    . exact h
    . constructor
      . rw [Option.getD_some, List.length_append, hlen]
      . intro _
        apply le_maxSize
      . simp
  . next hfits =>
    cases hdata : b.data with
    | none =>
      rw [h.eq_nil_of_fits hdata hfits]
      rw [hdata] at hlen
      exact ⟨hlen, fun hne => absurd rfl hne, fun _ => h.noData hdata⟩
    | some data =>
      rw [hdata, Option.getD_some] at hlen
      constructor
      . rw [Option.map_some, Option.getD_some, List.length_append, hlen]
      . exact fun _ => Nat.not_lt.mp hfits
      . simp

theorem Valid.append_gathers (h : b.Valid reserve)
    (hres : (b.append reserve chunk alloc).2 = chunk.length)
    : (b.append reserve chunk alloc).1.data.getD [] = b.data.getD [] ++ chunk := by
  unfold Buffer.append at hres ⊢
  dsimp only at hres ⊢
  split at hres
  . next hgrows =>
    rw [if_pos hgrows]
    split at hres
    . next hfailed =>
      rw [if_pos hfailed, List.eq_nil_of_length_eq_zero hres.symm, List.append_nil]
    . next halloc =>
      rw [if_neg halloc]
      rfl
  . next hfits =>
    rw [if_neg hfits]
    cases hdata : b.data with
    | none =>
      rw [h.eq_nil_of_fits hdata hfits]
      rfl
    | some data => rfl

-- What is not taken leaves the buffer as it is.
theorem append_of_ne (h : (b.append reserve chunk alloc).2 ≠ chunk.length)
    : (b.append reserve chunk alloc).1 = b := by
  unfold Buffer.append at h ⊢
  dsimp only at h ⊢
  split at h
  . next hgrows =>
    rw [if_pos hgrows]
    split at h
    . next hfailed => rw [if_pos hfailed]
    . exact absurd rfl h
  . exact absurd rfl h

theorem append_taken (h : ¬ (b.len + chunk.length + reserve > b.capacity ∧ alloc = false))
    : (b.append reserve chunk alloc).2 = chunk.length := by
  unfold Buffer.append
  dsimp only
  split
  . next hgrows =>
    cases alloc with
    | false => exact absurd ⟨hgrows, rfl⟩ h
    | true => rfl
  . rfl

theorem capacity_le_append (reserve : Nat) (b : Buffer) (chunk : Bytes) (alloc : Bool)
    : b.capacity ≤ (b.append reserve chunk alloc).1.capacity := by
  unfold Buffer.append
  dsimp only
  split
  . split
    . exact Nat.le_refl _
    . have hle := le_maxSize initialCapacity (b.capacity * 2) (b.len + chunk.length + reserve)
      dsimp only
      omega
  . exact Nat.le_refl _

theorem append_of_alloc (reserve : Nat) (b : Buffer) (chunk : Bytes)
    : (b.append reserve chunk true).2 = chunk.length := by
  unfold append
  dsimp only
  split <;> rfl

end Buffer

section Callbacks

variable {r : Response} {chunk : Bytes} {alloc : Bool}

def Response.bodyBuffer (r : Response) : Buffer :=
  ⟨r.body, r.bodyLen, r.bodyCapacity⟩

-- The headers end in a NUL.
def Response.headersBuffer (r : Response) : Buffer :=
  ⟨r.headers, r.headersLen, r.headersCapacity⟩

theorem Response.buffers_iff (r : Response)
    : r.Buffers ↔ r.bodyBuffer.Valid 0 ∧ r.headersBuffer.Valid 1 := by
  constructor
  . intro h
    exact ⟨⟨h.body, fun _ => h.bodyCapacity, h.noBody⟩, ⟨h.headers, h.headersCapacity, h.noHeaders⟩⟩
  . rintro ⟨hbody, hheaders⟩
    refine ⟨hbody.len, ?_, hbody.noData, hheaders.len, hheaders.capacity, hheaders.noData⟩
    cases hnone : r.body with
    | none =>
      have hlen : (r.body.getD []).length = r.bodyLen := hbody.len
      rw [← hlen, hnone]
      apply Nat.zero_le
    | some body =>
      apply hbody.capacity
      unfold bodyBuffer
      rw [hnone]
      simp

theorem writeCallback_eq (r : Response) (chunk : Bytes) (alloc : Bool)
    : (writeCallback r chunk alloc).1.bodyBuffer = (r.bodyBuffer.append 0 chunk alloc).1 ∧
        (writeCallback r chunk alloc).1.headersBuffer = r.headersBuffer ∧
        (writeCallback r chunk alloc).2 = (r.bodyBuffer.append 0 chunk alloc).2 := by
  unfold writeCallback Buffer.append Response.bodyBuffer
  dsimp only
  rw [Nat.add_zero]
  split
  . split <;> exact ⟨rfl, rfl, rfl⟩
  . exact ⟨rfl, rfl, rfl⟩

theorem headerCallback_eq (r : Response) (chunk : Bytes) (alloc : Bool)
    : (headerCallback r chunk alloc).1.headersBuffer = (r.headersBuffer.append 1 chunk alloc).1 ∧
        (headerCallback r chunk alloc).1.bodyBuffer = r.bodyBuffer ∧
        (headerCallback r chunk alloc).2 = (r.headersBuffer.append 1 chunk alloc).2 := by
  unfold headerCallback Buffer.append Response.headersBuffer
  dsimp only
  split
  . split <;> exact ⟨rfl, rfl, rfl⟩
  . exact ⟨rfl, rfl, rfl⟩

theorem Response.Buffers.writeCallback (h : r.Buffers) (chunk : Bytes) (alloc : Bool)
    : (writeCallback r chunk alloc).1.Buffers := by
  have ⟨hbody, hheaders, _⟩ := writeCallback_eq r chunk alloc
  rw [Response.buffers_iff] at h ⊢
  rw [hbody, hheaders]
  exact ⟨h.1.append chunk alloc, h.2⟩

theorem Response.Buffers.headerCallback (h : r.Buffers) (chunk : Bytes) (alloc : Bool)
    : (headerCallback r chunk alloc).1.Buffers := by
  have ⟨hheaders, hbody, _⟩ := headerCallback_eq r chunk alloc
  rw [Response.buffers_iff] at h ⊢
  rw [hbody, hheaders]
  exact ⟨h.1, h.2.append chunk alloc⟩

theorem writeCallback_gathers (h : r.Buffers) (hres : (writeCallback r chunk alloc).2 = chunk.length)
    : (writeCallback r chunk alloc).1.body.getD [] = r.body.getD [] ++ chunk ∧
        (writeCallback r chunk alloc).1.headers = r.headers := by
  have ⟨hbody, hheaders, hlen⟩ := writeCallback_eq r chunk alloc
  rw [hlen] at hres
  have hgathers := (r.buffers_iff.mp h).1.append_gathers hres
  rw [← hbody] at hgathers
  exact ⟨hgathers, congrArg Buffer.data hheaders⟩

theorem headerCallback_gathers (h : r.Buffers)
    (hres : (headerCallback r chunk alloc).2 = chunk.length)
    : (headerCallback r chunk alloc).1.headers.getD [] = r.headers.getD [] ++ chunk ∧
        (headerCallback r chunk alloc).1.body = r.body := by
  have ⟨hheaders, hbody, hlen⟩ := headerCallback_eq r chunk alloc
  rw [hlen] at hres
  have hgathers := (r.buffers_iff.mp h).2.append_gathers hres
  rw [← hheaders] at hgathers
  exact ⟨hgathers, congrArg Buffer.data hbody⟩

theorem writeCallback_of_alloc (r : Response) (chunk : Bytes)
    : (writeCallback r chunk true).2 = chunk.length := by
  rw [(writeCallback_eq r chunk true).2.2]
  apply Buffer.append_of_alloc

theorem headerCallback_of_alloc (r : Response) (chunk : Bytes)
    : (headerCallback r chunk true).2 = chunk.length := by
  rw [(headerCallback_eq r chunk true).2.2]
  apply Buffer.append_of_alloc

end Callbacks

section Events

namespace TransferEvent

def bodyChunk (event : TransferEvent) : Option Bytes :=
  match event with
  | .body chunk _ => some chunk
  | .header _ _ => none

def headerChunk (event : TransferEvent) : Option Bytes :=
  match event with
  | .body _ _ => none
  | .header chunk _ => some chunk

def alloc (event : TransferEvent) : Bool :=
  match event with
  | .body _ alloc => alloc
  | .header _ alloc => alloc

end TransferEvent

def bodyChunks (events : List TransferEvent) : List Bytes :=
  events.filterMap TransferEvent.bodyChunk

def headerChunks (events : List TransferEvent) : List Bytes :=
  events.filterMap TransferEvent.headerChunk

structure Gathered (r : Response) (events : List TransferEvent) (r' : Response) : Prop where
  buffers : r'.Buffers
  body : r'.body.getD [] = r.body.getD [] ++ (bodyChunks events).flatten
  headers : r'.headers.getD [] = r.headers.getD [] ++ (headerChunks events).flatten

variable {r : Response} {events : List TransferEvent}

/-- A transfer that no callback stops gathers all of its chunks. -/
theorem runEvents_gathers (h : r.Buffers) (hres : (runEvents r events).2 = true)
    : Gathered r events (runEvents r events).1 := by
  induction events generalizing r with
  | nil =>
    refine ⟨h, ?_, ?_⟩
    all_goals exact (List.append_nil _).symm
  | cons event events ih =>
    cases event with
    | body chunk alloc =>
      simp only [runEvents] at hres ⊢
      by_cases htaken : (writeCallback r chunk alloc).2 = chunk.length
      . rw [if_pos htaken] at hres ⊢
        have ⟨hbody, hheaders⟩ := writeCallback_gathers h htaken
        have hrest := ih (h.writeCallback chunk alloc) hres
        refine ⟨hrest.buffers, ?_, ?_⟩
        . rw [hrest.body, hbody, List.append_assoc]
          rfl
        . rw [hrest.headers, hheaders]
          rfl
      . rw [if_neg htaken] at hres
        cases hres
    | header chunk alloc =>
      simp only [runEvents] at hres ⊢
      by_cases htaken : (headerCallback r chunk alloc).2 = chunk.length
      . rw [if_pos htaken] at hres ⊢
        have ⟨hheaders, hbody⟩ := headerCallback_gathers h htaken
        have hrest := ih (h.headerCallback chunk alloc) hres
        refine ⟨hrest.buffers, ?_, ?_⟩
        . rw [hrest.body, hbody]
          rfl
        . rw [hrest.headers, hheaders, List.append_assoc]
          rfl
      . rw [if_neg htaken] at hres
        cases hres

theorem runEvents_of_alloc (r : Response) (h : ∀ event ∈ events, event.alloc = true)
    : (runEvents r events).2 = true := by
  induction events generalizing r with
  | nil => rfl
  | cons event events ih =>
    rw [List.forall_mem_cons] at h
    cases event with
    | body chunk alloc =>
      have halloc : alloc = true := h.1
      simp only [runEvents]
      rw [halloc, if_pos (writeCallback_of_alloc r chunk)]
      exact ih _ h.2
    | header chunk alloc =>
      have halloc : alloc = true := h.1
      simp only [runEvents]
      rw [halloc, if_pos (headerCallback_of_alloc r chunk)]
      exact ih _ h.2

end Events

end HttpRuntime
