import HttpRuntime.Core.Worker.Buffers
import HttpRuntime.Lib.Automaton
import HttpRuntime.Lib.Block
import Mathlib.Data.List.Induction

/-!
This module contains the two callbacks of `worker.c` over the memory of a response: the blocks with
their capacities, the arithmetic of `size_t`, and every copy with the bound of its block.
-/

open Lib Lib.Block Lib.Automaton

namespace HttpRuntime

-- A number of 64 bits.
def sizeT (n : Nat) : Nat := n % 2 ^ 64

theorem sizeT_of_lt {n : Nat} (h : n < 2 ^ 64) : sizeT n = n := Nat.mod_eq_of_lt h

/-- What libcurl calls back with: `nmemb` pieces of `size` bytes. -/
structure Chunk where
  bytes : Bytes
  size : Nat
  nmemb : Nat
  length_eq : bytes.length = size * nmemb

structure ResponseMemory where
  body : Option (Block UInt8)
  bodyLen : Nat
  bodyCapacity : Nat
  headers : Option (Block UInt8)
  headersLen : Nat
  headersCapacity : Nat

def ResponseMemory.zero : ResponseMemory where
  body := none
  bodyLen := 0
  bodyCapacity := 0
  headers := none
  headersLen := 0
  headersCapacity := 0

def memcpy (dest : Option (Block UInt8)) (offset : Nat) (ptr : Bytes) (n : Nat)
    : Option (Option (Block UInt8)) :=
  if n ≤ ptr.length then write dest offset (ptr.take n) else none

namespace ResponseMemory

-- `realloc` of the body for the size, which may fail.
def growBody (r : ResponseMemory) (requiredSize : Nat) (alloc : Bool) : Option ResponseMemory :=
  if requiredSize > r.bodyCapacity then
    let doubleCap := sizeT (r.bodyCapacity * 2)
    let newCapacity := maxSize initialCapacity doubleCap requiredSize
    if alloc then some { r with body := some (realloc r.body newCapacity), bodyCapacity := newCapacity }
    else none
  else
    some r

def growHeaders (r : ResponseMemory) (requiredSize : Nat) (alloc : Bool) : Option ResponseMemory :=
  if requiredSize > r.headersCapacity then
    let doubleCap := sizeT (r.headersCapacity * 2)
    let newCapacity := maxSize initialCapacity doubleCap requiredSize
    if alloc then
      some { r with headers := some (realloc r.headers newCapacity), headersCapacity := newCapacity }
    else none
  else
    some r

-- No result is an access outside of a block.
def writeCallback (r : ResponseMemory) (chunk : Chunk) (alloc : Bool) : Option (ResponseMemory × Nat) :=
  let totalSize := sizeT (chunk.size * chunk.nmemb)
  let requiredSize := sizeT (r.bodyLen + totalSize)
  match r.growBody requiredSize alloc with
  | none => some (r, 0)
  | some r =>
    (memcpy r.body r.bodyLen chunk.bytes totalSize).map fun body =>
      ({ r with body := body, bodyLen := sizeT (r.bodyLen + totalSize) }, totalSize)

def headerCallback (r : ResponseMemory) (chunk : Chunk) (alloc : Bool) : Option (ResponseMemory × Nat) :=
  let totalSize := sizeT (chunk.size * chunk.nmemb)
  let requiredSize := sizeT (r.headersLen + totalSize + 1)
  match r.growHeaders requiredSize alloc with
  | none => some (r, 0)
  | some r => do
    let headers ← memcpy r.headers r.headersLen chunk.bytes totalSize
    let headersLen := sizeT (r.headersLen + totalSize)
    let headers ← write headers headersLen [0]
    some ({ r with headers := headers, headersLen := headersLen }, totalSize)

end ResponseMemory

-- A block with its counters.
structure Region where
  block : Option (Block UInt8)
  len : Nat
  capacity : Nat

namespace Region

def grow (g : Region) (requiredSize : Nat) (alloc : Bool) : Option Region :=
  if requiredSize > g.capacity then
    let newCapacity := maxSize initialCapacity (sizeT (g.capacity * 2)) requiredSize
    if alloc then some ⟨some (realloc g.block newCapacity), g.len, newCapacity⟩ else none
  else
    some g

/-- What both callbacks do. The `tail` is written behind the data. -/
def append (tail : Bytes) (g : Region) (chunk : Chunk) (alloc : Bool) : Option (Region × Nat) :=
  let totalSize := sizeT (chunk.size * chunk.nmemb)
  match g.grow (sizeT (g.len + totalSize + tail.length)) alloc with
  | none => some (g, 0)
  | some g => do
    let block ← memcpy g.block g.len chunk.bytes totalSize
    let len := sizeT (g.len + totalSize)
    let block ← write block len tail
    some (⟨block, len, g.capacity⟩, totalSize)

/-- The block holds the data, and the tail behind it. -/
structure Stores (tail : Bytes) (g : Region) (b : Buffer) : Prop where
  len : g.len = b.len
  capacity : g.capacity = b.capacity
  null : g.block = none ↔ b.data = none
  holds : Holds g.block b.capacity (b.data.getD [] ++ (b.data.map fun _ => tail).getD [])

variable {tail : Bytes} {g : Region} {b : Buffer} {chunk : Chunk} {alloc : Bool}

theorem totalSize_eq (chunk : Chunk) (h : chunk.bytes.length < 2 ^ 64)
    : sizeT (chunk.size * chunk.nmemb) = chunk.bytes.length := by
  rw [← chunk.length_eq]
  exact sizeT_of_lt h

-- The copy of the chunk and the tail, when there is room for both.
theorem copy_spec {block : Option (Block UInt8)} {capacity : Nat} {data bytes : Bytes}
    (h : Holds block capacity data) (hroom : data.length + bytes.length + tail.length ≤ capacity)
    : ∃ block₁ block₂, memcpy block data.length bytes bytes.length = some block₁ ∧
        write block₁ (data.length + bytes.length) tail = some block₂ ∧
        Holds block₂ capacity (data ++ bytes ++ tail) ∧ (block₂ = none ↔ block = none) := by
  obtain ⟨block₁, hcopy, hholds, hnull⟩ := @Holds.write _ _ _ _ bytes h (by omega)
  have hlength : (data ++ bytes).length = data.length + bytes.length := List.length_append
  obtain ⟨block₂, hwrite, hholds', hnull'⟩ := @Holds.write _ _ _ _ tail hholds (by omega)
  rw [hlength] at hwrite
  refine ⟨block₁, block₂, ?_, hwrite, hholds', hnull'.trans hnull⟩
  unfold memcpy
  rw [if_pos (Nat.le_refl _), List.take_length]
  exact hcopy

/-- Every access lies in the block, and what is stored is what the lists have. -/
theorem Stores.append (h : g.Stores tail b) (hb : b.Valid tail.length)
    (hrange : b.len + chunk.bytes.length < 2 ^ 63) (htail : tail.length ≤ 1)
    : ∃ g', g.append tail chunk alloc = some (g', (b.append tail.length chunk.bytes alloc).2) ∧
        g'.Stores tail (b.append tail.length chunk.bytes alloc).1 := by
  have hlen := hb.len
  have hrequired : sizeT (b.len + chunk.bytes.length + tail.length) =
      b.len + chunk.bytes.length + tail.length := sizeT_of_lt (by omega)
  have hend : sizeT (b.len + chunk.bytes.length) = b.len + chunk.bytes.length := sizeT_of_lt (by omega)
  unfold Region.append grow Buffer.append
  dsimp only
  rw [totalSize_eq chunk (by omega), h.len, h.capacity, hrequired]
  by_cases hgrows : b.len + chunk.bytes.length + tail.length > b.capacity
  . have hdouble : sizeT (b.capacity * 2) = b.capacity * 2 := sizeT_of_lt (by omega)
    have hle := le_maxSize initialCapacity (b.capacity * 2) (b.len + chunk.bytes.length + tail.length)
    rw [if_pos hgrows, if_pos hgrows, hdouble]
    generalize maxSize initialCapacity (b.capacity * 2) (b.len + chunk.bytes.length + tail.length) =
      newCapacity at hle ⊢
    cases alloc with
    | false => exact ⟨g, rfl, h⟩
    | true =>
      have hgrown : Holds (some (realloc g.block newCapacity)) newCapacity (b.data.getD []) :=
        h.holds.of_append.realloc (by omega)
      obtain ⟨block₁, block₂, hcopy, hwrite, hholds, hnull⟩ :=
        @copy_spec tail _ _ _ chunk.bytes hgrown (by omega)
      rw [hlen] at hcopy hwrite
      rw [if_pos rfl]
      dsimp only
      rw [hcopy, Option.bind_eq_bind, Option.bind_some, hend, hwrite]
      exact ⟨_, rfl, rfl, rfl, hnull.trans (by simp), hholds⟩
  . obtain ⟨block₁, block₂, hcopy, hwrite, hholds, hnull⟩ :=
      @copy_spec tail _ _ _ chunk.bytes h.holds.of_append (by omega)
    rw [hlen] at hcopy hwrite
    rw [if_neg hgrows, if_neg hgrows]
    dsimp only
    rw [h.len, hcopy, Option.bind_eq_bind, Option.bind_some, hend, hwrite]
    refine ⟨_, rfl, rfl, h.capacity, ?_, ?_⟩
    . rw [hnull, h.null, Option.map_eq_none_iff]
    . cases hdata : b.data with
      | none =>
        have hempty := hb.noData hdata
        have hchunk : chunk.bytes = [] := List.eq_nil_of_length_eq_zero (by omega)
        have htail : tail = [] := List.eq_nil_of_length_eq_zero (by omega)
        rw [hdata, hchunk, htail] at hholds
        exact hholds
      | some data =>
        rw [hdata] at hholds
        exact hholds

/-- What an append returns, and that a capacity never shrinks. -/
structure Answers (tail : Bytes) (g : Region) (chunk : Chunk) (alloc : Bool) (res : Region × Nat)
    : Prop where
  failed : g.len + chunk.bytes.length + tail.length > g.capacity ∧ alloc = false → res = (g, 0)
  taken : ¬ (g.len + chunk.bytes.length + tail.length > g.capacity ∧ alloc = false) →
    res.2 = chunk.bytes.length
  capacity : g.capacity ≤ res.1.capacity

theorem append_of_failed (htotal : g.len + chunk.bytes.length < 2 ^ 63) (htail : tail.length ≤ 1)
    (hgrows : g.len + chunk.bytes.length + tail.length > g.capacity)
    : g.append tail chunk false = some (g, 0) := by
  have hrequired : sizeT (g.len + chunk.bytes.length + tail.length) =
      g.len + chunk.bytes.length + tail.length := sizeT_of_lt (by omega)
  unfold Region.append grow
  dsimp only
  rw [totalSize_eq chunk (by omega), hrequired, if_pos hgrows]
  rfl

theorem Stores.answers (h : g.Stores tail b) (hrange : b.len + chunk.bytes.length < 2 ^ 63)
    (htail : tail.length ≤ 1) {g' : Region}
    (hres : g.append tail chunk alloc = some (g', (b.append tail.length chunk.bytes alloc).2))
    (hafter : g'.Stores tail (b.append tail.length chunk.bytes alloc).1)
    : g.Answers tail chunk alloc (g', (b.append tail.length chunk.bytes alloc).2) := by
  constructor
  . rintro ⟨hgrows, rfl⟩
    rw [append_of_failed (h.len ▸ hrange) htail hgrows] at hres
    exact (Option.some.inj hres).symm
  . intro htaken
    rw [h.len, h.capacity] at htaken
    exact Buffer.append_taken htaken
  . rw [h.capacity, hafter.capacity]
    exact Buffer.capacity_le_append _ _ _ _

end Region

section Callbacks

variable {mem : ResponseMemory} {r : Response} {chunk : Chunk} {alloc : Bool}

namespace ResponseMemory

def bodyRegion (mem : ResponseMemory) : Region := ⟨mem.body, mem.bodyLen, mem.bodyCapacity⟩

def headersRegion (mem : ResponseMemory) : Region := ⟨mem.headers, mem.headersLen, mem.headersCapacity⟩

def withBody (mem : ResponseMemory) (g : Region) : ResponseMemory :=
  { mem with body := g.block, bodyLen := g.len, bodyCapacity := g.capacity }

def withHeaders (mem : ResponseMemory) (g : Region) : ResponseMemory :=
  { mem with headers := g.block, headersLen := g.len, headersCapacity := g.capacity }

/-- The headers have a terminator behind them. -/
structure Stores (mem : ResponseMemory) (r : Response) : Prop where
  body : mem.bodyRegion.Stores [] r.bodyBuffer
  headers : mem.headersRegion.Stores [0] r.headersBuffer

theorem growBody_eq (mem : ResponseMemory) (requiredSize : Nat) (alloc : Bool)
    : mem.growBody requiredSize alloc = (mem.bodyRegion.grow requiredSize alloc).map mem.withBody := by
  unfold growBody Region.grow bodyRegion
  dsimp only
  split
  . split <;> rfl
  . rfl

theorem growHeaders_eq (mem : ResponseMemory) (requiredSize : Nat) (alloc : Bool)
    : mem.growHeaders requiredSize alloc =
        (mem.headersRegion.grow requiredSize alloc).map mem.withHeaders := by
  unfold growHeaders Region.grow headersRegion
  dsimp only
  split
  . split <;> rfl
  . rfl

theorem writeCallback_eq_append (mem : ResponseMemory) (chunk : Chunk) (alloc : Bool)
    : mem.writeCallback chunk alloc =
        (mem.bodyRegion.append [] chunk alloc).map (fun res => (mem.withBody res.1, res.2)) := by
  unfold writeCallback Region.append
  dsimp only
  rw [growBody_eq, List.length_nil, Nat.add_zero]
  unfold bodyRegion
  dsimp only
  cases Region.grow ⟨mem.body, mem.bodyLen, mem.bodyCapacity⟩ _ alloc with
  | none => rfl
  | some g =>
    dsimp only [Option.map_some, withBody]
    cases memcpy g.block g.len chunk.bytes (sizeT (chunk.size * chunk.nmemb)) <;> rfl

theorem headerCallback_eq_append (mem : ResponseMemory) (chunk : Chunk) (alloc : Bool)
    : mem.headerCallback chunk alloc =
        (mem.headersRegion.append [0] chunk alloc).map (fun res => (mem.withHeaders res.1, res.2)) := by
  unfold headerCallback Region.append
  dsimp only
  rw [growHeaders_eq, List.length_singleton]
  unfold headersRegion
  dsimp only
  cases Region.grow ⟨mem.headers, mem.headersLen, mem.headersCapacity⟩ _ alloc with
  | none => rfl
  | some g =>
    dsimp only [Option.map_some, withHeaders]
    cases memcpy g.block g.len chunk.bytes (sizeT (chunk.size * chunk.nmemb)) with
    | none => rfl
    | some block =>
      simp only [Option.bind_eq_bind, Option.bind_some]
      cases write block (sizeT (g.len + sizeT (chunk.size * chunk.nmemb))) [0] <;> rfl

end ResponseMemory

/-- `write_callback` copies inside of the block, and does what it does on lists. -/
theorem stores_writeCallback (h : mem.Stores r) (hr : r.Buffers)
    (hrange : r.bodyLen + chunk.bytes.length < 2 ^ 63)
    : ∃ g, mem.writeCallback chunk alloc =
          some (mem.withBody g, (writeCallback r chunk.bytes alloc).2) ∧
        (mem.withBody g).Stores (writeCallback r chunk.bytes alloc).1 ∧
        mem.bodyRegion.Answers [] chunk alloc (g, (writeCallback r chunk.bytes alloc).2) := by
  obtain ⟨hbody, hheaders, hres⟩ := writeCallback_eq r chunk.bytes alloc
  obtain ⟨g, hg, hstores⟩ := h.body.append (r.buffers_iff.mp hr).1 hrange (by simp)
  have hanswers := h.body.answers hrange (by simp) hg hstores
  rw [mem.writeCallback_eq_append, hg, hres]
  refine ⟨g, rfl, ⟨?_, ?_⟩, hanswers⟩
  . rw [hbody]
    exact hstores
  . rw [hheaders]
    exact h.headers

theorem stores_headerCallback (h : mem.Stores r) (hr : r.Buffers)
    (hrange : r.headersLen + chunk.bytes.length < 2 ^ 63)
    : ∃ g, mem.headerCallback chunk alloc =
          some (mem.withHeaders g, (headerCallback r chunk.bytes alloc).2) ∧
        (mem.withHeaders g).Stores (headerCallback r chunk.bytes alloc).1 ∧
        mem.headersRegion.Answers [0] chunk alloc (g, (headerCallback r chunk.bytes alloc).2) := by
  obtain ⟨hheaders, hbody, hres⟩ := headerCallback_eq r chunk.bytes alloc
  obtain ⟨g, hg, hstores⟩ := h.headers.append (r.buffers_iff.mp hr).2 hrange (by simp)
  have hanswers := h.headers.answers hrange (by simp) hg hstores
  rw [mem.headerCallback_eq_append, hg, hres]
  refine ⟨g, rfl, ⟨?_, ?_⟩, hanswers⟩
  . rw [hbody]
    exact h.body
  . rw [hheaders]
    exact hstores

end Callbacks

section Runs

/-- A call of one of the callbacks, and whether its `realloc` succeeds. -/
inductive Callback where
  | body (chunk : Chunk) (alloc : Bool)
  | header (chunk : Chunk) (alloc : Bool)

namespace Callback

def chunk (c : Callback) : Chunk :=
  match c with
  | .body chunk _ => chunk
  | .header chunk _ => chunk

def call (c : Callback) (mem : ResponseMemory) : Option (ResponseMemory × Nat) :=
  match c with
  | .body chunk alloc => mem.writeCallback chunk alloc
  | .header chunk alloc => mem.headerCallback chunk alloc

/-- The call asks for a larger block, and does not get it. -/
def Fails (c : Callback) (mem : ResponseMemory) : Prop :=
  match c with
  | .body chunk alloc => mem.bodyLen + chunk.bytes.length > mem.bodyCapacity ∧ alloc = false
  | .header chunk alloc => mem.headersLen + chunk.bytes.length + 1 > mem.headersCapacity ∧ alloc = false

end Callback

/-- A response with the chunks that the callbacks accepted so far. -/
structure Gathering where
  memory : ResponseMemory
  body : Bytes
  headers : Bytes

namespace Gathering

def zero : Gathering := ⟨.zero, [], []⟩

def gathered (g : Gathering) (c : Callback) : Bytes :=
  match c with
  | .body _ _ => g.body
  | .header _ _ => g.headers

def accept (g : Gathering) (c : Callback) : Gathering :=
  match c with
  | .body chunk _ => { g with body := g.body ++ chunk.bytes }
  | .header chunk _ => { g with headers := g.headers ++ chunk.bytes }

-- A chunk is accepted if its size is returned.
def next (g : Gathering) (c : Callback) : Option Gathering :=
  (c.call g.memory).map fun res =>
    { if res.2 = c.chunk.bytes.length then g.accept c else g with memory := res.1 }

/-- The buffers hold what was accepted, and the headers are a string. -/
structure WellFormed (g : Gathering) : Prop where
  bodyLen : g.memory.bodyLen = g.body.length
  bodyLen_le : g.memory.bodyLen ≤ g.memory.bodyCapacity
  body : Holds g.memory.body g.memory.bodyCapacity g.body
  headersLen : g.memory.headersLen = g.headers.length
  headersLen_lt : g.memory.headers ≠ none → g.memory.headersLen < g.memory.headersCapacity
  headers : Holds g.memory.headers g.memory.headersCapacity g.headers
  terminator : g.memory.headers ≠ none → (cells g.memory.headers)[g.memory.headersLen]? = some (some 0)

-- The response that a gathering stores.
structure Stores (g : Gathering) (r : Response) : Prop where
  memory : g.memory.Stores r
  buffers : r.Buffers
  body : r.body.getD [] = g.body
  headers : r.headers.getD [] = g.headers

end Gathering

/-- What is accepted and the chunk behind it stay below 2^63 bytes, in each of the buffers. -/
def InRange (calls : List Callback) : Prop :=
  ∀ before c after, calls = before ++ c :: after → ∀ g, run Gathering.next .zero before = some g →
    (g.gathered c).length + c.chunk.bytes.length < 2 ^ 63

/-- What a call returns and what it leaves behind. -/
structure Answers (c : Callback) (mem : ResponseMemory) (res : ResponseMemory × Nat) : Prop where
  failed : c.Fails mem → res = (mem, 0)
  taken : ¬ c.Fails mem → res.2 = c.chunk.bytes.length
  bodyCapacity : mem.bodyCapacity ≤ res.1.bodyCapacity
  headersCapacity : mem.headersCapacity ≤ res.1.headersCapacity

theorem Gathering.Stores.wellFormed {g : Gathering} {r : Response} (h : g.Stores r) : g.WellFormed := by
  have hbody := h.memory.body
  have hheaders := h.memory.headers
  have hbodyLen := h.buffers.body
  have hbodyCapacity : g.memory.bodyCapacity = r.bodyCapacity := hbody.capacity
  have hheadersLen := h.buffers.headers
  have hheadersCapacity : g.memory.headersCapacity = r.headersCapacity := hheaders.capacity
  have hnull : g.memory.headers ≠ none → ∃ headers, r.headers = some headers := by
    intro hne
    apply Option.ne_none_iff_exists'.mp
    intro hnone
    exact hne (hheaders.null.mpr hnone)
  rw [h.body] at hbodyLen
  rw [h.headers] at hheadersLen
  constructor
  . exact hbody.len.trans hbodyLen.symm
  . exact (hbody.len.trans_le h.buffers.bodyCapacity).trans_eq hbody.capacity.symm
  . have hholds : Holds g.memory.body r.bodyCapacity (r.body.getD []) := hbody.holds.of_append
    rw [hbodyCapacity, ← h.body]
    exact hholds
  . exact hheaders.len.trans hheadersLen.symm
  . intro hne
    obtain ⟨headers, hsome⟩ := hnull hne
    have hcapacity := h.buffers.headersCapacity (by rw [hsome]; simp)
    have hlen : g.memory.headersLen = r.headersLen := hheaders.len
    omega
  . have hholds : Holds g.memory.headers r.headersCapacity (r.headers.getD []) := hheaders.holds.of_append
    rw [hheadersCapacity, ← h.headers]
    exact hholds
  . intro hne
    obtain ⟨headers, hsome⟩ := hnull hne
    have hholds : Holds g.memory.headers r.headersCapacity (headers ++ [0]) := by
      have hheld := hheaders.holds
      unfold Response.headersBuffer at hheld
      rw [hsome] at hheld
      exact hheld
    have hlen : g.memory.headersLen = headers.length := by
      rw [← h.headers, hsome] at hheadersLen
      exact hheaders.len.trans hheadersLen.symm
    have hget := hholds.getElem headers.length (by simp)
    rw [hlen, hget, List.getElem_concat_length rfl]

-- What a call does to a response, on lists.
def Callback.callOn (c : Callback) (r : Response) : Response × Nat :=
  match c with
  | .body chunk alloc => writeCallback r chunk.bytes alloc
  | .header chunk alloc => headerCallback r chunk.bytes alloc

theorem Gathering.Stores.answers {g : Gathering} {r : Response} (h : g.Stores r) (c : Callback)
    (hrange : (g.gathered c).length + c.chunk.bytes.length < 2 ^ 63)
    : ∃ mem, c.call g.memory = some (mem, (c.callOn r).2) ∧ mem.Stores (c.callOn r).1 ∧
        Answers c g.memory (mem, (c.callOn r).2) := by
  cases c with
  | body chunk alloc =>
    have hgathered : (r.body.getD []).length + chunk.bytes.length < 2 ^ 63 := h.body ▸ hrange
    rw [h.buffers.body] at hgathered
    obtain ⟨region, hcall, hstores, hanswers⟩ :=
      @stores_writeCallback _ _ chunk alloc h.memory h.buffers hgathered
    refine ⟨_, hcall, hstores, ?_, hanswers.taken, hanswers.capacity, Nat.le_refl _⟩
    intro hfails
    have hsame := hanswers.failed hfails
    rw [Prod.mk.injEq] at hsame
    exact congrArg₂ Prod.mk (congrArg g.memory.withBody hsame.1) hsame.2
  | header chunk alloc =>
    have hgathered : (r.headers.getD []).length + chunk.bytes.length < 2 ^ 63 := h.headers ▸ hrange
    rw [h.buffers.headers] at hgathered
    obtain ⟨region, hcall, hstores, hanswers⟩ :=
      @stores_headerCallback _ _ chunk alloc h.memory h.buffers hgathered
    refine ⟨_, hcall, hstores, ?_, hanswers.taken, Nat.le_refl _, hanswers.capacity⟩
    intro hfails
    have hsame := hanswers.failed hfails
    rw [Prod.mk.injEq] at hsame
    exact congrArg₂ Prod.mk (congrArg g.memory.withHeaders hsame.1) hsame.2

theorem callOn_gathers (c : Callback) {r : Response} (h : r.Buffers) {g : Gathering}
    (hbody : r.body.getD [] = g.body) (hheaders : r.headers.getD [] = g.headers)
    : (c.callOn r).1.Buffers ∧
        ((c.callOn r).1.body.getD [] =
            (if (c.callOn r).2 = c.chunk.bytes.length then g.accept c else g).body ∧
          (c.callOn r).1.headers.getD [] =
            (if (c.callOn r).2 = c.chunk.bytes.length then g.accept c else g).headers) := by
  cases c with
  | body chunk alloc =>
    refine ⟨h.writeCallback chunk.bytes alloc, ?_⟩
    split
    . next htaken =>
      obtain ⟨hgathers, hsame⟩ := writeCallback_gathers h htaken
      exact ⟨hgathers.trans (by rw [hbody]; rfl), (congrArg (Option.getD · []) hsame).trans hheaders⟩
    . next htaken =>
      obtain ⟨hbuffer, hsame, hres⟩ := writeCallback_eq r chunk.bytes alloc
      have hkept := Buffer.append_of_ne (hres ▸ htaken)
      rw [hkept] at hbuffer
      exact ⟨(congrArg (fun b => b.data.getD []) hbuffer).trans hbody,
        (congrArg (fun b => b.data.getD []) hsame).trans hheaders⟩
  | header chunk alloc =>
    refine ⟨h.headerCallback chunk.bytes alloc, ?_⟩
    split
    . next htaken =>
      obtain ⟨hgathers, hsame⟩ := headerCallback_gathers h htaken
      exact ⟨(congrArg (Option.getD · []) hsame).trans hbody, hgathers.trans (by rw [hheaders]; rfl)⟩
    . next htaken =>
      obtain ⟨hbuffer, hsame, hres⟩ := headerCallback_eq r chunk.bytes alloc
      have hkept := Buffer.append_of_ne (hres ▸ htaken)
      rw [hkept] at hbuffer
      exact ⟨(congrArg (fun b => b.data.getD []) hsame).trans hbody,
        (congrArg (fun b => b.data.getD []) hbuffer).trans hheaders⟩

theorem Gathering.Stores.next {g : Gathering} {r : Response} (h : g.Stores r) (c : Callback)
    (hrange : (g.gathered c).length + c.chunk.bytes.length < 2 ^ 63)
    : ∃ g', g.next c = some g' ∧ g'.Stores (c.callOn r).1 := by
  obtain ⟨mem, hcall, hstores, _⟩ := h.answers c hrange
  obtain ⟨hbuffers, hbody, hheaders⟩ := callOn_gathers c h.buffers h.body h.headers
  unfold Gathering.next
  rw [hcall]
  exact ⟨_, rfl, hstores, hbuffers, hbody, hheaders⟩

theorem stores_zero : Gathering.zero.Stores .zero where
  memory := ⟨⟨rfl, rfl, iff_of_true rfl rfl, holds_none⟩, ⟨rfl, rfl, iff_of_true rfl rfl, holds_none⟩⟩
  buffers := by
    apply Response.Fresh.buffers
    constructor <;> rfl
  body := rfl
  headers := rfl

theorem InRange.of_append {calls calls' : List Callback} (h : InRange (calls ++ calls'))
    : InRange calls := by
  intro before c after hcalls
  apply h before c (after ++ calls')
  rw [hcalls, List.append_assoc, List.cons_append]

theorem stores_of_run {calls : List Callback} (h : InRange calls)
    : ∃ g r, run Gathering.next .zero calls = some g ∧ g.Stores r := by
  induction calls using List.reverseRecOn with
  | nil => exact ⟨.zero, .zero, rfl, stores_zero⟩
  | append_singleton calls c ih =>
    obtain ⟨g, r, hrun, hstores⟩ := ih h.of_append
    obtain ⟨g', hnext, hstores'⟩ := hstores.next c (h calls c [] rfl g hrun)
    exact ⟨g', _, (run_concat hrun c).trans hnext, hstores'⟩

theorem length_gathered_next {g g' : Gathering} {c : Callback} (h : g.next c = some g')
    : g'.body.length ≤ g.body.length + c.chunk.bytes.length ∧
        g'.headers.length ≤ g.headers.length + c.chunk.bytes.length := by
  obtain ⟨res, _, rfl⟩ := Option.map_eq_some_iff.mp h
  dsimp only
  split
  . cases c with
    | body chunk alloc =>
      unfold Gathering.accept Callback.chunk
      dsimp only
      rw [List.length_append]
      omega
    | header chunk alloc =>
      unfold Gathering.accept Callback.chunk
      dsimp only
      rw [List.length_append]
      omega
  . omega

theorem length_gathered_run {calls : List Callback} {g : Gathering}
    (h : run Gathering.next .zero calls = some g)
    : g.body.length ≤ (calls.map fun c => c.chunk.bytes.length).sum ∧
        g.headers.length ≤ (calls.map fun c => c.chunk.bytes.length).sum := by
  induction calls using List.reverseRecOn generalizing g with
  | nil =>
    obtain rfl := Option.some.inj h
    exact ⟨Nat.le_refl _, Nat.le_refl _⟩
  | append_singleton calls c ih =>
    rw [run_append, Option.bind_eq_some_iff] at h
    obtain ⟨g', hrun, hlast⟩ := h
    rw [run_cons, Option.bind_eq_some_iff] at hlast
    obtain ⟨g₁, hnext, hlast⟩ := hlast
    obtain rfl := Option.some.inj hlast
    have hlength := length_gathered_next hnext
    have hbefore := ih hrun
    rw [List.map_append, List.sum_append]
    simp only [List.map_cons, List.map_nil, List.sum_cons, List.sum_nil]
    omega

/-- Chunks of less than 2^63 bytes together stay in range, whatever is accepted of them. -/
theorem inRange_of_total {calls : List Callback}
    (h : (calls.map fun c => c.chunk.bytes.length).sum < 2 ^ 63) : InRange calls := by
  rintro before c after rfl g hrun
  have hlength := length_gathered_run hrun
  rw [List.map_append, List.map_cons, List.sum_append, List.sum_cons] at h
  cases c with
  | body chunk alloc =>
    unfold Gathering.gathered
    dsimp only
    omega
  | header chunk alloc =>
    unfold Gathering.gathered
    dsimp only
    omega

/--
After every sequence of calls the buffers hold what the callbacks accepted, and the headers are a
string. A call that does not get a larger block changes nothing, and every other call takes its chunk.
-/
theorem callbacks_wellFormed {calls : List Callback} (h : InRange calls)
    : ∃ g, run Gathering.next .zero calls = some g ∧ g.WellFormed ∧
        ∀ c, InRange (calls ++ [c]) → ∃ res, c.call g.memory = some res ∧ Answers c g.memory res := by
  obtain ⟨g, r, hrun, hstores⟩ := stores_of_run h
  refine ⟨g, hrun, hstores.wellFormed, ?_⟩
  intro c hrange
  obtain ⟨mem, hcall, _, hanswers⟩ := hstores.answers c (hrange calls c [] rfl g hrun)
  exact ⟨_, hcall, hanswers⟩

-- The second call does not get its block.
def exampleCalls : List Callback :=
  [.header ⟨[88, 58, 13, 10], 1, 4, rfl⟩ true, .body ⟨[104, 105], 2, 1, rfl⟩ false,
    .body ⟨[111, 107], 1, 2, rfl⟩ true]

theorem callbacks_wellFormed_example
    : ∃ g, run Gathering.next .zero exampleCalls = some g ∧ g.WellFormed ∧
        ∀ c, InRange (exampleCalls ++ [c]) → ∃ res, c.call g.memory = some res ∧ Answers c g.memory res :=
  callbacks_wellFormed (inRange_of_total (by decide))

end Runs

end HttpRuntime
