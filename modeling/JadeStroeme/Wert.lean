/-
  File:      JadeStroeme/Wert.lean
  Subject:   The Lisp values Jade's streams.c inspects, its string objects, and the byte reads,
             stores and copies it makes in their storage.

  * `Wert` -- the value tags the dispatchers switch over (`VTYPE`); a cons carries its car and
    cdr, so the cons shapes of the stream table are patterns over `Wert`; `Signal` -- the
    errors the stream functions signal;
  * `LString` -- a string object: its storage as allocated, `STRING_LEN`,
    `STRING_WRITABLE_P` and the address `make_string` gave it; `LString.Wf` is the value
    system's own invariant (the terminating zero at `STRING_LEN`, inside the storage);
  * `lesen`, `speichern`, `memcpy`, `strlen` -- one read, one store, a copy and a length scan,
    each `none` where C touches a byte outside the storage (undefined behaviour);
  * `speichern_anhaengen`, `memcpy_anhaengen` -- the two ways the accumulator appends, computed
    on a storage `w ++ r` whose first `|w|` bytes are kept.
-/
import Mathlib.Data.List.Basic

namespace JadeStroeme

/-! ## 1. Values -/

/-- The symbols the stream code compares by address (`sym_nil`, `sym_t`, `sym_lambda`); every
    other symbol is `andere`. -/
inductive Symbol
  | nil | t | lambda | andere (n : Nat)
  deriving DecidableEq, Repr

/-- A string object. `bytes` is the storage as allocated (its length is the allocation), `len` is
    `STRING_LEN`, `schreibbar` is `STRING_WRITABLE_P`, `adr` is the object's identity. -/
structure LString where
  adr : Nat
  bytes : List UInt8
  len : Nat
  schreibbar : Bool
  deriving DecidableEq, Repr

/-- A buffer position, `make_pos (col, row)`. -/
structure Pos where
  col : Int
  row : Int
  deriving DecidableEq, Repr

/-- The values the stream code tells apart by `VTYPE`. Files, buffers, marks and processes are
    named by their object number; every other tag (vectors, subrs, ...) is `sonst`. -/
inductive Wert
  | int (i : Int)
  | str (s : LString)
  | cons (car cdr : Wert)
  | sym (s : Symbol)
  | datei (f : Nat)
  | puffer (b : Nat)
  | marke (m : Nat)
  | prozess (p : Nat)
  | pos (p : Pos)
  | sonst (tag : Nat)
  deriving DecidableEq, Repr

/-- `sym_nil`. -/
def Wert.nil : Wert := .sym .nil

/-- The errors the stream functions signal: `bad-arg` with the argument and its position
    (`signal_arg_error`), `invalid-stream` with the stream, and `missing-arg` with the position
    `signal_missing_arg` is given. -/
inductive Signal
  | badArg (arg : Wert) (pos : Nat)
  | invalidStream (stream : Wert)
  | missingArg (pos : Nat)
  deriving DecidableEq, Repr

/-- `INTP`. -/
def Wert.intp : Wert → Bool
  | .int _ => true
  | _ => false

/-- `STRINGP`. -/
def Wert.stringp : Wert → Bool
  | .str _ => true
  | _ => false

/-- `BUFFERP`. -/
def Wert.bufferp : Wert → Bool
  | .puffer _ => true
  | _ => false

/-- `POSP`. -/
def Wert.posp : Wert → Bool
  | .pos _ => true
  | _ => false

/-- The string's bytes: the first `STRING_LEN` bytes of its storage. -/
def LString.inhalt (s : LString) : List UInt8 := s.bytes.take s.len

/-- The value system's invariant of a string object: `STRING_LEN` bytes and then the
    terminating zero, inside the storage. -/
def LString.Wf (s : LString) : Prop := s.bytes[s.len]? = some 0

instance (s : LString) : Decidable s.Wf := inferInstanceAs (Decidable (_ = _))

/-- A well formed string's terminating zero lies inside its storage. -/
theorem LString.Wf.len_lt {s : LString} (h : s.Wf) : s.len < s.bytes.length :=
  (List.getElem?_eq_some_iff.1 h).fst

/-- A well formed string's storage: its bytes, the terminating zero, then the rest. -/
theorem LString.Wf.zerlegen {s : LString} (h : s.Wf) : ∃ r, s.bytes = s.inhalt ++ 0 :: r := by
  have hl := h.len_lt
  have h0 : s.bytes[s.len] = 0 := by
    rw [LString.Wf, List.getElem?_eq_getElem hl] at h
    exact Option.some.inj h
  refine ⟨s.bytes.drop (s.len + 1), ?_⟩
  conv_lhs => rw [← List.take_append_drop s.len s.bytes, List.drop_eq_getElem_cons hl, h0]
  rfl

/-- `string_dupn (b, |b|)`: a fresh writable string holding `b` and its terminating zero. -/
def stringDupn (frei : Nat) (b : List UInt8) : LString := ⟨frei, b ++ [0], b.length, true⟩

@[simp] theorem stringDupn_inhalt (frei : Nat) (b : List UInt8) :
    (stringDupn frei b).inhalt = b := by
  simp [stringDupn, LString.inhalt]

theorem stringDupn_wf (frei : Nat) (b : List UInt8) : (stringDupn frei b).Wf := by
  simp [stringDupn, LString.Wf]

/-! ## 2. Reads, stores and copies -/

/-- The read `p[i]`: `none` when `i` lies outside the storage. -/
def lesen (p : List UInt8) (i : Int) : Option UInt8 := if 0 ≤ i then p[i.toNat]? else none

/-- The store `p[i] = v`: `none` when `i` lies outside the storage. -/
def speichern (p : List UInt8) (i : Nat) (v : UInt8) : Option (List UInt8) :=
  if i < p.length then some (p.set i v) else none

/-- `memcpy (p + off, q, n)`: the first `n` bytes of `q` into `p` from `off` on. `none` when `n`
    is negative (as a `size_t` it reaches past all memory) or a byte lies outside `p` or `q`. -/
def memcpy (p : List UInt8) (off : Nat) (q : List UInt8) (n : Int) : Option (List UInt8) :=
  if 0 ≤ n ∧ off + n.toNat ≤ p.length ∧ n.toNat ≤ q.length then
    some (p.take off ++ q.take n.toNat ++ p.drop (off + n.toNat))
  else none

/-- `strlen (q)`: the bytes before the first zero of `q`; `none` when `q` holds no zero and the
    scan runs past it. -/
def strlen (q : List UInt8) : Option Nat :=
  if 0 ∈ q then some (q.takeWhile (· ≠ 0)).length else none

theorem speichern_eq_some {p : List UInt8} {i : Nat} (h : i < p.length) (v : UInt8) :
    speichern p i v = some (p.set i v) := if_pos h

theorem speichern_eq_none {p : List UInt8} {i : Nat} (h : p.length ≤ i) (v : UInt8) :
    speichern p i v = none := if_neg (by omega)

theorem memcpy_eq_some {p q : List UInt8} {off n : Nat} (hp : off + n ≤ p.length)
    (hq : n ≤ q.length) :
    memcpy p off q n = some (p.take off ++ q.take n ++ p.drop (off + n)) := by
  simp only [memcpy, Int.toNat_ofNat]
  exact if_pos ⟨by omega, hp, hq⟩

theorem memcpy_neg (p q : List UInt8) (off : Nat) {n : Int} (h : n < 0) :
    memcpy p off q n = none := by
  simp [memcpy]; omega

/-- `memcpy` reads only the first `n` bytes of its source. -/
theorem memcpy_take (p q : List UInt8) (off n : Nat) (hn : n ≤ q.length) :
    memcpy p off q n = memcpy p off (q.take n) (q.take n).length := by
  have e : (q.take n).length = n := List.length_take_of_le hn
  simp only [memcpy, e, Int.toNat_ofNat, List.take_take, min_self, hn, le_refl, and_true]

/-- A store at `|w|` into `w ++ x :: r` replaces `x`. -/
theorem speichern_mitte (w r : List UInt8) (x v : UInt8) :
    speichern (w ++ x :: r) w.length v = some (w ++ v :: r) := by
  rw [speichern_eq_some (by simp)]
  simp [List.set_append]

/-- **A run and the terminating zero appended** into a storage `w ++ r` with room for both: the
    `memcpy` and the store of `stream_puts`, then whatever follows. -/
theorem memcpy_anhaengen {β : Type} (w r b : List UInt8) (h : b.length < r.length)
    (k : List UInt8 → Option β) :
    (memcpy (w ++ r) w.length b b.length >>= fun p => speichern p (w.length + b.length) 0 >>= k) =
      k ((w ++ b) ++ 0 :: r.drop (b.length + 1)) := by
  have hp : w.length + b.length ≤ (w ++ r).length := by simp; omega
  simp only [memcpy_eq_some hp (Nat.le_refl _), Option.bind_eq_bind, Option.some_bind]
  obtain ⟨x, r', hr⟩ : ∃ x r', r.drop b.length = x :: r' := by
    cases e : r.drop b.length with
    | nil => have := congrArg List.length e; simp at this; omega
    | cons x r' => exact ⟨x, r', rfl⟩
  have e1 : (w ++ r).take w.length = w := by simp
  have e2 : (w ++ r).drop (w.length + b.length) = x :: r' := by
    rw [← List.drop_drop, List.drop_left, hr]
  have e3 : r.drop (b.length + 1) = r' := by
    rw [← List.drop_drop, hr]; rfl
  have e4 : (w ++ b).length = w.length + b.length := by simp
  rw [e1, e2, List.take_length, e3, ← e4, speichern_mitte]
  rfl

end JadeStroeme
