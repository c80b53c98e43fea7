import HttpRuntime.Core.Sqlite.Lemmas
import Mathlib.Data.Nat.Log

/-!
This module contains the limit that SQLite puts on the length of a record. A single text or blob is
compared with it when it is bound, and the whole row when it is written. A row that is too long is one
of the reasons for which a step fails, so everything about `answer` holds with the limit as well.
-/

open Lib Lib.Sql

namespace HttpRuntime

-- A big-endian number with seven bits in each byte.
def varintLen (n : Nat) : Nat := Nat.log 128 n + 1

-- A `size_t` is bound as a 64-bit integer. 0 and 1 have serial types of their own.
def integerPayload (n : Int) : Nat :=
  let m := n.bmod (2 ^ 64)
  let u := if m < 0 then -m - 1 else m
  if m = 0 ∨ m = 1 then 0
  else if u < 2 ^ 7 then 1
  else if u < 2 ^ 15 then 2
  else if u < 2 ^ 23 then 3
  else if u < 2 ^ 31 then 4
  else if u < 2 ^ 47 then 6
  else 8

-- The integer that a double is, if it is one.
def realInteger (bits : UInt64) : Option Int :=
  let exponent := ((bits >>> 52) &&& 0x7ff).toNat
  let fraction := (bits &&& 0xfffffffffffff).toNat
  let mantissa := if exponent = 0 then fraction else 2 ^ 52 + fraction
  let sign : Int := if bits >>> 63 = 0 then 1 else -1
  if exponent = 0x7ff then none
  else if exponent < 1075 then
    if mantissa % 2 ^ (1075 - exponent) = 0 then
      some (sign * (mantissa / 2 ^ (1075 - exponent) : Nat))
    else
      none
  else
    some (sign * (mantissa * 2 ^ (exponent - 1075) : Nat))

-- A REAL column holds an integral value as an integer, where that is shorter.
def realPayload (bits : UInt64) : Nat :=
  match realInteger bits with
  | some n => if n.natAbs < 2 ^ 47 then integerPayload n else 8
  | none => 8

-- The serial type of `v` in the header and its content behind it.
def columnSize (v : Value) : Nat :=
  match v with
  | .null => 1
  | .integer n => 1 + integerPayload n
  | .real bits => 1 + realPayload bits
  | .text s => varintLen (2 * s.length + 13) + s.length
  | .blob s => varintLen (2 * s.length + 12) + s.length

-- The length of the header takes one byte, `id` stands in the header as NULL, and `created_at` is a text
-- of nineteen characters.
def recordSize (cols : List Value) : Nat := 1 + 1 + (cols.map columnSize).sum + 20

def CollectionRow.columns (r : CollectionRow) : List Value := [r.name, r.nameLen]

def RequestRow.columns (r : RequestRow) : List Value :=
  [r.collectionId, r.method, r.url, r.urlLen, r.headers, r.headersLen, r.body, r.bodyLen, r.status]

def ResponseRow.columns (r : ResponseRow) : List Value :=
  [r.requestId, r.statusCode, r.result, r.duration, r.headers, r.body, r.bodyLen, r.contentType]

def Writable (cols : List Value) : Prop := recordSize cols ≤ sqliteMaxLength

instance (cols : List Value) : Decidable (Writable cols) :=
  inferInstanceAs (Decidable (recordSize cols ≤ sqliteMaxLength))

/-- The rows of `new` that `old` does not have can be written. -/
structure RecordsFit (old new : Database) : Prop where
  collections : ∀ row ∈ new.collections.rows, row ∈ old.collections.rows ∨ Writable row.2.columns
  requests : ∀ row ∈ new.requests.rows, row ∈ old.requests.rows ∨ Writable row.2.columns
  responses : ∀ row ∈ new.responses.rows, row ∈ old.responses.rows ∨ Writable row.2.columns

instance (old new : Database) : Decidable (RecordsFit old new) :=
  decidable_of_iff
    ((∀ row ∈ new.collections.rows, row ∈ old.collections.rows ∨ Writable row.2.columns) ∧
      (∀ row ∈ new.requests.rows, row ∈ old.requests.rows ∨ Writable row.2.columns) ∧
      (∀ row ∈ new.responses.rows, row ∈ old.responses.rows ∨ Writable row.2.columns))
    ⟨fun h => ⟨h.1, h.2.1, h.2.2⟩, fun h => ⟨h.collections, h.requests, h.responses⟩⟩

/--
SQLite with its limit on the length of a record. The records of `uq_request_identity` are shorter than
those of the rows.
-/
def limited : Server Call Reply CallEnv Conn := fun c env s =>
  match c with
  | .step sql params =>
    let res := answer (.step sql params) env s
    if RecordsFit s.db res.2.db then res else (.error, s)
  | c => answer c env s

-- A row that is too long is a step that fails.
theorem limited_eq_answer (c : Call) (env : CallEnv) (s : Conn)
    : ∃ env', limited c env s = answer c env' s := by
  cases c with
  | step sql params =>
    by_cases hfit : RecordsFit s.db (answer (.step sql params) env s).2.db
    . exact ⟨env, if_pos hfit⟩
    . exact ⟨{ env with fault := true }, if_neg hfit⟩
  | _ => exact ⟨env, rfl⟩

/-- Each run under the limit is a run without it. -/
theorem run_limited {α : Type} (p : DbProg α) (es : List CallEnv) (s : Conn)
    : ∃ es', p.run limited es s = p.run answer es' s :=
  Prog.exists_run_eq limited_eq_answer p es s

theorem RecordsFit.refl (db : Database) : RecordsFit db db where
  collections _ hrow := .inl hrow
  requests _ hrow := .inl hrow
  responses _ hrow := .inl hrow

theorem RecordsFit.trans {db db' db'' : Database} (h : RecordsFit db db') (h' : RecordsFit db' db'')
    : RecordsFit db db'' where
  collections row hrow := (h'.collections row hrow).elim (h.collections row) .inr
  requests row hrow := (h'.requests row hrow).elim (h.requests row) .inr
  responses row hrow := (h'.responses row hrow).elim (h.responses row) .inr

theorem recordsFit_limited {c : Call} (hexec : ∀ cmd, c ≠ .exec cmd) (env : CallEnv) (s : Conn)
    : RecordsFit s.db (limited c env s).2.db := by
  have hstutter (c : Reply × Conn) (h : c.2.db = s.db) : RecordsFit s.db c.2.db := by
    rw [h]
    exact .refl s.db
  cases c with
  | exec cmd => exact absurd rfl (hexec cmd)
  | step sql params =>
    by_cases hfit : RecordsFit s.db (answer (.step sql params) env s).2.db
    . rw [limited, if_pos hfit]
      exact hfit
    . rw [limited, if_neg hfit]
      exact .refl s.db
  | lastInsertRowid => exact .refl s.db
  | bind param =>
    apply hstutter
    cases param with
    | none => rfl
    | some v =>
      unfold limited answer
      dsimp only
      split <;> rfl
  | _ =>
    apply hstutter
    unfold limited answer
    dsimp only
    split <;> rfl

/-- Outside of transactions, what a program writes is short enough. -/
theorem recordsFit_run {α : Type} {p : DbProg α} (hp : p.Calls fun c => ∀ cmd, c ≠ .exec cmd)
    (es : List CallEnv) (s : Conn) : RecordsFit s.db (p.run limited es s).2.db :=
  Prog.Calls.run (I := fun s' : Conn => RecordsFit s.db s'.db)
    (fun _ env s' hc hs' => hs'.trans (recordsFit_limited hc env s')) hp es (.refl s.db)

section Sizes

theorem integerPayload_le (n : Int) : integerPayload n ≤ 8 := by
  unfold integerPayload
  dsimp only
  repeat' split
  all_goals decide

theorem varintLen_pos (n : Nat) : 1 ≤ varintLen n := by
  unfold varintLen
  omega

theorem columnSize_pos (v : Value) : 1 ≤ columnSize v := by
  cases v with
  | null => exact Nat.le_refl 1
  | integer n => exact Nat.le_add_right 1 _
  | real bits => exact Nat.le_add_right 1 _
  | text s => exact Nat.le_add_right_of_le (varintLen_pos _)
  | blob s => exact Nat.le_add_right_of_le (varintLen_pos _)

-- A text or blob and the integer next to it, among the other columns.
theorem recordSize_append (pre post : List Value) (v : Value) (n : Int)
    : recordSize (pre ++ v :: .integer n :: post) =
        columnSize v + integerPayload n + 23 + (pre.map columnSize).sum + (post.map columnSize).sum := by
  unfold recordSize
  rw [List.map_append, List.sum_append, List.map_cons, List.sum_cons, List.map_cons, List.sum_cons,
    columnSize.eq_2]
  omega

theorem length_le_sum_columnSize (cols : List Value) : cols.length ≤ (cols.map columnSize).sum := by
  induction cols with
  | nil => exact Nat.le_refl 0
  | cons v cols ih =>
    have hv := columnSize_pos v
    rw [List.map_cons, List.sum_cons, List.length_cons]
    omega

theorem le_varintLen {n : Nat} (h : 2 ^ 28 ≤ n) : 5 ≤ varintLen n := by
  have hlog : 4 ≤ Nat.log 128 n := Nat.le_log_of_pow_le (by decide) (by omega)
  unfold varintLen
  omega

theorem varintLen_le {n : Nat} (h : n < 2 ^ 35) : varintLen n ≤ 5 := by
  have hlog : Nat.log 128 n < 5 := Nat.log_lt_of_lt_pow' (by decide) (by omega)
  unfold varintLen
  omega

-- The columns of a body.
variable {v : Value} (hv : ∃ s, v = .text s ∨ v = .blob s)

include hv

theorem le_columnSize (h : 2 ^ 27 ≤ v.size) : 5 + v.size ≤ columnSize v := by
  rcases hv with ⟨s, rfl | rfl⟩
  . have hlen := @le_varintLen (2 * s.length + 13) (by simp only [Value.size] at h; omega)
    simp only [columnSize, Value.size]
    omega
  . have hlen := @le_varintLen (2 * s.length + 12) (by simp only [Value.size] at h; omega)
    simp only [columnSize, Value.size]
    omega

theorem columnSize_le (h : v.size ≤ sqliteMaxLength) : columnSize v ≤ 5 + v.size := by
  unfold sqliteMaxLength at h
  rcases hv with ⟨s, rfl | rfl⟩
  . have hlen := @varintLen_le (2 * s.length + 13) (by simp only [Value.size] at h; omega)
    simp only [columnSize, Value.size]
    omega
  . have hlen := @varintLen_le (2 * s.length + 12) (by simp only [Value.size] at h; omega)
    simp only [columnSize, Value.size]
    omega

end Sizes

end HttpRuntime
