/-
  File:      JadeStroeme/Schreiben.lean
  Subject:   Runs of bytes written to a string output stream: the front of `stream_puts`
             (streams.c 404-416), `write` (`cmd_write`, 628-675) and `copy-stream`
             (`cmd_copy_stream`, 724-760).

  * `Daten`, `streamPuts` -- what `stream_puts` is given (a string value or a pointer into a
    buffer), the measurement of `bufLen == -1`, then the accumulator branch;
  * `cmdWrite` -- `write` on a string output stream; `cmdWrite_laenge`: a `LENGTH` in
    `[0, STRING_LEN]` appends that many bytes and returns it; `write_negativ`: `-1` is measured
    with `strlen`, `-2` copies a negative count;
  * `kopierSchritt`, `kopierSchleife`, `cmdCopyStream` -- the copy loop through the 512-byte
    buffer; `cmdCopyStream_spez`: from a source delivering `s` the destination receives
    `behalten s`, the bytes of `s` but those at a place `≡ 511 (mod 512)`, and the count
    returned is `|s|`; `kopieren_512`.
-/
import JadeStroeme.Akkumulator
import JadeStroeme.Position

namespace JadeStroeme

/-! ## 1. `stream_puts` on a string output stream -/

/-- What `stream_puts` is given as data: a string value (`isValString`), or a pointer into a
    buffer, as the memory from it on. -/
inductive Daten
  | wert (s : LString)
  | zeiger (p : List UInt8)

/-- The memory `buf` points to. -/
def Daten.bytes : Daten → List UInt8
  | .wert s => s.bytes
  | .zeiger p => p

/-- The measurement of `bufLen == -1`: `STRING_LEN` of a string value, `strlen` of a buffer. -/
def Daten.laenge : Daten → Option Int
  | .wert s => some s.len
  | .zeiger p => (strlen p).map (↑)

/-- `stream_puts (stream, data, bufLen, isValString)` on a string output stream (streams.c
    404-416, 442-471): `bufLen = -1` is measured first, then the accumulator branch appends, and
    `bufLen` is returned. -/
def streamPuts (a : Akk) (data : Daten) (bufLen : Int) : Option (Int × Akk) := do
  let bufLen ← if bufLen = -1 then data.laenge else some bufLen
  let a ← akkPuts a data.bytes bufLen
  pure (bufLen, a)

/-- `stream_puts` on a string output stream: the measurement, then the accumulator branch. -/
theorem streamPuts_eq (a : Akk) (d : Daten) (n : Int) :
    streamPuts a d n =
      (if n = -1 then d.laenge else some n).bind fun k =>
        (akkPuts a d.bytes k).map fun a' => (k, a') := by
  unfold streamPuts
  split_ifs
  · cases d.laenge <;> simp [Option.map_eq_bind, Function.comp_def]
  · simp [Option.map_eq_bind, Function.comp_def]

/-- The accumulator branch reads only the first `bufLen` bytes of the buffer. -/
theorem akkPuts_take (a : Akk) (buf : List UInt8) {n : Nat} (hn : n ≤ buf.length) :
    akkPuts a buf n = akkPuts a (buf.take n) (buf.take n).length := by
  have e : (buf.take n).length = n := List.length_take_of_le hn
  simp only [akkPuts, e, memcpy_take _ _ _ _ hn]

/-- **A run of `n ≥ 0` bytes from a buffer of at least `n`**: appended, `n` returned. -/
theorem streamPuts_inv {a : Akk} {w : List UInt8} (h : AkkInv a w) (d : Daten) {n : Nat}
    (hn : n ≤ d.bytes.length) :
    ∃ a', streamPuts a d n = some ((n : Int), a') ∧ AkkInv a' (w ++ d.bytes.take n) := by
  obtain ⟨a', h', hi, -⟩ := akkPuts_inv h (d.bytes.take n)
  refine ⟨a', ?_, hi⟩
  have e : ((n : Int) = -1) = False := by simp only [eq_iff_iff, iff_false]; omega
  simp only [streamPuts, e, if_false, Option.bind_eq_bind, Option.some_bind]
  rw [akkPuts_take a _ hn, h']
  rfl

/-! ## 2. `write` -/

/-- `(u_char) c`. -/
def byte (c : Int) : UInt8 := (c % 256).toNat.toUInt8

/-- `write (stream, data, len)` (streams.c 628-675) on a string output stream: an integer goes
    through `stream_putc`, which returns 1; of a string, `stream_puts` writes the first `len`
    bytes (all of them without an integer `len`), given the string value when `len` is its
    length and a pointer to its bytes otherwise; `bad-arg` for a `len` past the string and for
    data of another type. -/
def cmdWrite (a : Akk) (data len : Wert) : Option (Except Signal (Wert × Akk)) :=
  let puts (d : Daten) (n : Int) : Option (Except Signal (Wert × Akk)) :=
    (streamPuts a d n).map fun (rc, a) => .ok (.int rc, a)
  match data with
  | .int c => (akkPutc a (byte c)).map fun a => .ok (.int 1, a)
  | .str s =>
    match len with
    | .int actual =>
      if actual > s.len then some (.error (.badArg len 3))
      else if actual = s.len then puts (.wert s) actual
      else puts (.zeiger s.bytes) actual
    | _ => puts (.wert s) s.len
  | _ => some (.error (.badArg data 2))

/-- **`write` of the first `LENGTH` bytes**, `0 ≤ LENGTH ≤ STRING_LEN (DATA)`: appended to a
    string output stream, zero bytes included, and `LENGTH` returned. -/
theorem cmdWrite_laenge {a : Akk} {w : List UInt8} (h : AkkInv a w) (s : LString) (hs : s.Wf)
    (n : Nat) (hn : n ≤ s.len) :
    ∃ a', cmdWrite a (.str s) (.int n) = some (.ok (.int n, a')) ∧
      AkkInv a' (w ++ s.inhalt.take n) := by
  have hb : n ≤ s.bytes.length := by have := hs.len_lt; omega
  have ht : s.bytes.take n = s.inhalt.take n := by
    rw [LString.inhalt, List.take_take, Nat.min_eq_left hn]
  have hgt : ¬ (n : Int) > s.len := by omega
  by_cases he : (n : Int) = s.len
  · obtain ⟨a', h', hi⟩ := streamPuts_inv h (.wert s) hb
    refine ⟨a', ?_, ht ▸ hi⟩
    simp only [cmdWrite, if_neg hgt, if_pos he]
    rw [h']
    rfl
  · obtain ⟨a', h', hi⟩ := streamPuts_inv h (.zeiger s.bytes) hb
    refine ⟨a', ?_, ht ▸ hi⟩
    simp only [cmdWrite, if_neg hgt, if_neg he]
    rw [h']
    rfl

/-- `write` with `LENGTH = -1` on `abc`: no `bad-arg`; `stream_puts` takes `-1` as its sentinel
    and measures the bytes with `strlen`, writing `abc` and returning 3. With `LENGTH = -2` the
    accumulator branch hands `memcpy` a negative count. -/
theorem write_negativ :
    (∃ a', cmdWrite (cmdMakeStringOutputStream 1) (.str ⟨0, [97, 98, 99, 0], 3, true⟩)
        (.int (-1)) = some (.ok (.int 3, a')) ∧ a'.s.inhalt = [97, 98, 99]) ∧
      cmdWrite (cmdMakeStringOutputStream 1) (.str ⟨0, [97, 98, 99, 0], 3, true⟩) (.int (-2)) =
        none :=
  ⟨⟨_, rfl, rfl⟩, rfl⟩

/-! ## 3. `copy-stream` -/

/-- One byte `c` of the body of the copy loop (streams.c 737-746): stored in `buff`; or, with
    `buff` holding `COPY_BUFSIZ - 1 = 511` bytes, `buff` flushed by `stream_puts (dest, buff,
    ptr - buff)` and emptied, `c` not stored. `inl` is the `break` on a flush returning EOF. -/
def kopierSchritt (a : Akk) (puf : List UInt8) (c : UInt8) : Option (Akk ⊕ (List UInt8 × Akk)) :=
  if puf.length ≥ 511 then
    (streamPuts a (.zeiger (puf ++ [0])) puf.length).map fun (rc, a) =>
      if rc = EOF then .inl a else .inr ([], a)
  else some (.inr (puf ++ [c], a))

/-- The loop of `copy-stream` over the bytes the source delivers before its first EOF, with the
    bytes in `buff`, the count `len` and the destination; `unterbrochen len` is the interrupt
    test after the `len`th byte. `some none` is the return of `LISP_NULL` on an interrupt. -/
def kopierSchleife (unterbrochen : Nat → Bool) :
    List UInt8 → List UInt8 → Nat → Akk → Option (Option (List UInt8 × Nat × Akk))
  | [], puf, len, a => some (some (puf, len, a))
  | c :: quelle, puf, len, a => (kopierSchritt a puf c).bind fun
    | .inl a => some (some (puf, len, a))
    | .inr (puf, a) =>
      if unterbrochen (len + 1) then some none
      else kopierSchleife unterbrochen quelle puf (len + 1) a

/-- `copy-stream (source, dest)` (streams.c 724-760) from a source delivering `quelle` to a string
    output stream: the loop, the flush of what is left in `buff`, then the count, or `nil` for
    none. -/
def cmdCopyStream (unterbrochen : Nat → Bool) (quelle : List UInt8) (a : Akk) :
    Option (Option (Wert × Akk)) :=
  (kopierSchleife unterbrochen quelle [] 0 a).bind fun
    | none => some none
    | some (puf, len, a) =>
      (if puf ≠ [] then (streamPuts a (.zeiger (puf ++ [0])) puf.length).map (·.2)
        else some a).map fun a => some (if len ≠ 0 then .int len else Wert.nil, a)

/-- The bytes of `s` a copy keeps when `k` bytes of the current round of 512 precede it: all but
    those at a place `≡ 511 (mod 512)`. -/
def behaltenAb : Nat → List UInt8 → List UInt8
  | _, [] => []
  | k, c :: s => (if k % 512 = 511 then [] else [c]) ++ behaltenAb (k + 1) s

/-- The bytes of `s` a copy keeps. -/
def behalten (s : List UInt8) : List UInt8 := behaltenAb 0 s

theorem behaltenAb_append (k : Nat) (s t : List UInt8) :
    behaltenAb k (s ++ t) = behaltenAb k s ++ behaltenAb (k + s.length) t := by
  induction s generalizing k with
  | nil => rfl
  | cons c s ih => simp [behaltenAb, ih, Nat.add_assoc, Nat.add_comm 1]

theorem behaltenAb_replicate (k n : Nat) (c : UInt8) (h : k + n ≤ 511) :
    behaltenAb k (List.replicate n c) = List.replicate n c := by
  induction n generalizing k with
  | zero => rfl
  | succ n ih =>
    rw [List.replicate_succ, behaltenAb, Nat.mod_eq_of_lt (by omega), if_neg (by omega),
      ih (k + 1) (by omega)]
    rfl

theorem behaltenAb_mod (k : Nat) (s : List UInt8) : behaltenAb (k % 512) s = behaltenAb k s := by
  induction s generalizing k with
  | nil => rfl
  | cons c s ih =>
    simp only [behaltenAb, Nat.mod_mod]
    rw [← ih (k % 512 + 1), ← ih (k + 1), Nat.add_mod, Nat.mod_mod, ← Nat.add_mod]

/-- A flush of the full buffer appends it; a byte before the buffer is full is stored. -/
theorem kopierSchritt_inv {a : Akk} {w puf : List UInt8} (h : AkkInv a w) (hp : puf.length ≤ 511)
    (c : UInt8) :
    ∃ puf' a' w', kopierSchritt a puf c = some (.inr (puf', a')) ∧ AkkInv a' w' ∧
      w' ++ puf' = w ++ puf ++ (if puf.length % 512 = 511 then [] else [c]) ∧
      puf'.length = (puf.length + 1) % 512 := by
  by_cases hv : puf.length ≥ 511
  · have h511 : puf.length = 511 := by omega
    obtain ⟨a', h', hi⟩ := streamPuts_inv h (.zeiger (puf ++ [0])) (show puf.length ≤ (puf ++ [0]).length by simp)
    refine ⟨[], a', _, ?_, hi, by simp [Daten.bytes, h511], by simp [h511]⟩
    rw [kopierSchritt, if_pos hv, h']
    have : ((puf.length : Int) = EOF) = False := by simp only [EOF, eq_iff_iff, iff_false]; omega
    simp [this]
  · refine ⟨puf ++ [c], a, w, by rw [kopierSchritt, if_neg hv], h, ?_, ?_⟩
    · rw [Nat.mod_eq_of_lt (by omega : puf.length < 512), if_neg (by omega)]; simp
    · simp; omega

/-- **The copy loop without interrupts** over a source delivering `quelle`, from a buffer of at
    most 511 bytes: it reaches the source's end counting every byte, and the destination's bytes,
    then the buffer's, are the old ones, the old buffer, and the bytes of `quelle` the copy
    keeps. -/
theorem kopierSchleife_spez {a : Akk} {w puf : List UInt8} (h : AkkInv a w)
    (hp : puf.length ≤ 511) (quelle : List UInt8) (len : Nat) :
    ∃ puf' a' w', kopierSchleife (fun _ => false) quelle puf len a =
        some (some (puf', len + quelle.length, a')) ∧ AkkInv a' w' ∧
      w' ++ puf' = w ++ puf ++ behaltenAb puf.length quelle ∧ puf'.length ≤ 511 := by
  induction quelle generalizing a w puf len with
  | nil => exact ⟨puf, a, w, rfl, h, by simp [behaltenAb], hp⟩
  | cons c quelle ih =>
    obtain ⟨puf₁, a₁, w₁, h₁, hi₁, he₁, hl₁⟩ := kopierSchritt_inv h hp c
    obtain ⟨puf', a', w', h', hi', he', hl'⟩ :=
      ih hi₁ (show puf₁.length ≤ 511 by omega) (len + 1)
    refine ⟨puf', a', w', ?_, hi', ?_, hl'⟩
    · simp only [kopierSchleife, h₁, Option.some_bind, Bool.false_eq_true, if_false, h',
        List.length_cons, Nat.add_assoc, Nat.add_comm 1]
    · rw [he', he₁, hl₁, behaltenAb_mod, behaltenAb, List.append_assoc, List.append_assoc]

/-- **What `copy-stream` does**, with no interrupt, from a source delivering `s` to a string output
    stream holding `w`: it returns `|s|` (`nil` for none), and the stream then holds `w` followed
    by `behalten s`. -/
theorem cmdCopyStream_spez {a : Akk} {w : List UInt8} (h : AkkInv a w) (s : List UInt8) :
    ∃ a', cmdCopyStream (fun _ => false) s a =
        some (some (if s.length ≠ 0 then .int s.length else Wert.nil, a')) ∧
      AkkInv a' (w ++ behalten s) := by
  obtain ⟨puf, a₁, w₁, h₁, hi₁, he₁, -⟩ :=
    kopierSchleife_spez h (show ([] : List UInt8).length ≤ 511 by simp) s 0
  simp only [List.append_nil, List.length_nil, Nat.zero_add] at h₁ he₁
  by_cases hp : puf = []
  · subst hp
    refine ⟨a₁, ?_, by rw [behalten, ← he₁, List.append_nil]; exact hi₁⟩
    simp [cmdCopyStream, h₁]
  · obtain ⟨a₂, h₂, hi₂⟩ := streamPuts_inv hi₁ (.zeiger (puf ++ [0]))
      (show puf.length ≤ (puf ++ [0]).length by simp)
    refine ⟨a₂, ?_, ?_⟩
    · simp [cmdCopyStream, h₁, hp, h₂]
    · rw [behalten, ← he₁]
      simpa [Daten.bytes] using hi₂

/-- 512 bytes copied into a fresh string output stream: `copy-stream` returns 512, and the stream
    holds 511 of them. -/
theorem kopieren_512 :
    ∃ a', cmdCopyStream (fun _ => false) (List.replicate 512 97) (cmdMakeStringOutputStream 0) =
        some (some (.int 512, a')) ∧ a'.s.inhalt = List.replicate 511 97 := by
  obtain ⟨a', h', hi⟩ := cmdCopyStream_spez (cmdMakeStringOutputStream_inv 0) (List.replicate 512 97)
  have hb : behalten (List.replicate 512 97) = List.replicate 511 97 := by
    have h1 : behaltenAb (0 + 511) [97] = [] := rfl
    rw [behalten, show List.replicate 512 (97 : UInt8) = List.replicate 511 97 ++ [97] from
      List.replicate_succ' .., behaltenAb_append, behaltenAb_replicate 0 511 97 (by omega),
      List.length_replicate, h1, List.append_nil]
  have hl : (List.replicate 512 (97 : UInt8)).length ≠ 0 := by rw [List.length_replicate]; decide
  rw [if_pos hl, List.length_replicate] at h'
  exact ⟨a', h', by rw [hi.inhalt, List.nil_append, hb]⟩

end JadeStroeme
