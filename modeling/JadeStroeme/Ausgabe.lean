/-
  File:      JadeStroeme/Ausgabe.lean
  Subject:   The whole of `stream_putc` (streams.c 280-402) and `stream_puts` (404-543) over the
             buffers, the marks and the string output streams, and `write` (628-675) and
             `get-output-stream-string` (977-1002) on Lisp values.

  * `Lage` -- the world of `Zuruecklegen` and the allocator's next free address; `AndereAus` --
    the branches left to collaborators (`nil`, files, processes), `call_lisp1` and
    `cmd_restriction_end`;
  * `pufferSchreiben` -- the four buffer branches both switches share, given the write at a
    position (`pos_putc` or `pos_puts`); `streamPutc`, `streamPutsWelt`, `cmdWriteWelt`,
    `cmdGetOutputStreamStringWert` -- the primitives and the two commands on Lisp values;
  * `streamPutc_akk`, `streamPutsWelt_akk`, `cmdWriteWelt_akk` -- on a cons `(S . n)` of a
    writable string they compute the accumulator model of `Akkumulator` and `Schreiben` and
    leave the world alone; `akkSchritt_schreibbar`: every operation of that model keeps the car
    writable, so the switch keeps choosing the accumulator branch;
  * `ausgabeLauf`, `akkSpur` -- a run of `stream_putc`, `stream_puts` and
    `get-output-stream-string` on a Lisp value, and the model's run with its answers;
    `ausgabeLauf_akk`: the first is the second read through `Akk.wert`; `ausgabe_verfeinert`:
    from `make-string-output-stream` every such run answers as the specification of a string
    output stream says;
  * `putc_puts_eins` -- `stream_putc` of a byte and `stream_puts` of that one byte append the
    same byte, and leave different capacities exactly when `n = STRING_LEN (S) + 2`;
  * `write_lisp` -- what `write` hands a Lisp function: the first `LENGTH` bytes of the string,
    as the string itself only when `LENGTH` is its whole length.
-/
import JadeStroeme.Zuruecklegen
import JadeStroeme.Lesen

namespace JadeStroeme

/-! ## 1. The two primitives -/

/-- What the write primitives change: the world, and the allocator's next free address, from
    which the accumulator's growth (`make_string`) and the Lisp branch of `stream_puts`
    (`string_dupn`) take their strings. -/
structure Lage where
  welt : Welt
  frei : Nat

/-- Buffer `b` as `pad_pos` and `insert_string` left it. -/
def Welt.pufferSetzen (w : Welt) (b : Nat) (tx : TX) : Welt :=
  { w with puffer := Function.update w.puffer b tx }

@[simp] theorem pufferSetzen_marken (w : Welt) (b : Nat) (tx : TX) :
    (w.pufferSetzen b tx).marken = w.marken := rfl

@[simp] theorem pufferSetzen_puffer (w : Welt) (b : Nat) (tx : TX) :
    (w.pufferSetzen b tx).puffer b = tx := by
  simp [Welt.pufferSetzen]

theorem pufferSetzen_puffer_ne (w : Welt) {b b' : Nat} (h : b' ≠ b) (tx : TX) :
    (w.pufferSetzen b tx).puffer b' = w.puffer b' := by
  simp [Welt.pufferSetzen, Function.update_noteq h]

/-- The branches of `stream_putc` and `stream_puts` left to collaborators, with what the two
    call besides `Editor`: `nil` (the value of `standard-output`, looked up before `stream_puts`
    measures `bufLen`), a file (`putc`, `fwrite`) and a process (`write_to_process`), each giving
    the value returned, the world and the stream after the call; `call_lisp1`, giving the world
    after the call and its result (`LISP_NULL`, after a signal, as `none`); and
    `cmd_restriction_end`. -/
structure AndereAus where
  putc : Welt → Wert → Int → Option (Except Signal (Int × Welt × Wert))
  puts : Welt → Wert → Daten → Int → Option (Except Signal (Int × Welt × Wert))
  callLisp1 : Welt → Wert → Wert → Welt × Option Wert
  restrictionEnd : TX → Pos

/-- The buffer branches of the two write switches: a mark, a buffer (at its cursor),
    `(BUFFER . POS)`, and `(BUFFER . x)`, written at the end of the restriction. -/
inductive PufferZweig
  | marke (m : Nat)
  | cursor (b : Nat)
  | pos (b : Nat) (p : Pos)
  | ende (b : Nat)

/-- The buffer branches of `stream_putc` (streams.c 302-310, 336-345) and `stream_puts` (427-436,
    472-481), with the write each makes at a position (`pos_putc` or `pos_puts`): at a resident
    mark's `mk_Pos` (a mark that is not resident signals `invalid-stream`), at the buffer's
    cursor and at the cdr of `(BUFFER . POS)`, each position then moved to where the write left
    it, and at `cmd_restriction_end` for `(BUFFER . x)`, a local that is dropped. -/
def pufferSchreiben (B : AndereAus) (schreib : TX → Pos → Int × TX × Pos) (w : Welt)
    (stream : Wert) : PufferZweig → Except Signal (Int × Welt × Wert)
  | .marke m =>
    if (w.marken m).resident then
      let r := schreib (w.puffer (w.marken m).puffer) (w.marken m).pos
      .ok (r.1, (w.pufferSetzen (w.marken m).puffer r.2.1).markeSetzen m r.2.2, stream)
    else .error (.invalidStream stream)
  | .cursor b =>
    let r := schreib (w.puffer b) (w.puffer b).cursor
    .ok (r.1, (w.pufferSetzen b r.2.1).cursorSetzen b r.2.2, stream)
  | .pos b p =>
    let r := schreib (w.puffer b) p
    .ok (r.1, w.pufferSetzen b r.2.1, .cons (.puffer b) (.pos r.2.2))
  | .ende b =>
    let r := schreib (w.puffer b) (B.restrictionEnd (w.puffer b))
    .ok (r.1, w.pufferSetzen b r.2.1, stream)

/-- The Lisp value of a string output stream, `(S . n)`. -/
def Akk.wert (a : Akk) : Wert := .cons (.str a.s) (.int a.n)

/-- `res && !NILP (res)`, the test of the Lisp branch of `stream_putc`. -/
def lispErfolg : Option Wert → Bool
  | some v => v != Wert.nil
  | none => false

/-- What the Lisp branch of `stream_puts` returns from the call's result: `VINT (res)` for an
    integer, `bufLen` for another value but `nil`, and 0 for `nil` and for `LISP_NULL`. -/
def lispRc (res : Option Wert) (bufLen : Int) : Int :=
  match res with
  | some (.int r) => r
  | some v => if v = Wert.nil then 0 else bufLen
  | none => 0

/-- `stream_putc (stream, c)` (streams.c 280-402) on a Lisp value: the buffer branches with
    `pos_putc` of `(u_char) c`; the accumulator branch (`akkPutc`), which returns 1; `t`, the
    message line, which the world does not hold and which returns 1; a Lisp function, called
    with `c` and returning 1 when the call returns neither `LISP_NULL` nor `nil`;
    `invalid-stream` where the switch has no case; `nil`, files and processes are the
    collaborators'. The value returned, then the state and the stream after the call. -/
def streamPutc (B : AndereAus) (E : Editor) (l : Lage) (stream : Wert) (c : Int) :
    Option (Except Signal (Int × Lage × Wert)) :=
  let inPuffer (z : PufferZweig) : Option (Except Signal (Int × Lage × Wert)) :=
    some ((pufferSchreiben B (fun tx p => posPutc E tx p (byte c)) l.welt stream z).map
      fun r => (r.1, { l with welt := r.2.1 }, r.2.2))
  match putcZweig stream with
  | .marke m => inPuffer (.marke m)
  | .puffer b => inPuffer (.cursor b)
  | .pufferPos b p => inPuffer (.pos b p)
  | .pufferEnde b => inPuffer (.ende b)
  | .akkumulator s n =>
    (akkPutc ⟨l.frei, s, n⟩ (byte c)).map fun a => .ok (1, ⟨l.welt, a.frei⟩, a.wert)
  | .nachricht => some (.ok (1, l, stream))
  | .lisp =>
    let r := B.callLisp1 l.welt stream (.int c)
    some (.ok (if lispErfolg r.2 then 1 else 0, { l with welt := r.1 }, stream))
  | .ungueltig => some (.error (.invalidStream stream))
  | .standard | .datei _ | .prozess _ =>
    (B.putc l.welt stream c).map (·.map fun r => (r.1, { l with welt := r.2.1 }, r.2.2))

/-- The argument the Lisp branch of `stream_puts` calls the function with, and the next free
    address after it: the string value itself, or `string_dupn (buf, bufLen)`, a fresh string of
    the first `bufLen` bytes (`none` where it would read outside the buffer). -/
def lispArgument (frei : Nat) (data : Daten) (bufLen : Int) : Option (Wert × Nat) :=
  match data with
  | .wert s => some (.str s, frei)
  | .zeiger p =>
    if 0 ≤ bufLen ∧ bufLen.toNat ≤ p.length then
      some (.str (stringDupn frei (p.take bufLen.toNat)), frei + 1)
    else none

/-- `stream_puts (stream, data, bufLen, isValString)` (streams.c 404-543) on a Lisp value: but for
    `nil`, `bufLen = -1` is measured first; then the buffer branches with `pos_puts`, the
    accumulator branch (`akkPuts`), the message line, a Lisp function called with
    `lispArgument`, `invalid-stream` where the switch has no case, and the collaborators'
    branches. The value returned, then the state and the stream after the call. -/
def streamPutsWelt (B : AndereAus) (E : Editor) (l : Lage) (stream : Wert) (data : Daten)
    (bufLen : Int) : Option (Except Signal (Int × Lage × Wert)) :=
  let gemessen (k : Int → Option (Except Signal (Int × Lage × Wert))) :
      Option (Except Signal (Int × Lage × Wert)) :=
    (if bufLen = -1 then data.laenge else some bufLen).bind k
  let inPuffer (z : PufferZweig) : Option (Except Signal (Int × Lage × Wert)) :=
    gemessen fun n =>
      some ((pufferSchreiben B (fun tx p => posPuts E tx p data.bytes n) l.welt stream z).map
        fun r => (r.1, { l with welt := r.2.1 }, r.2.2))
  match putcZweig stream with
  | .standard =>
    (B.puts l.welt stream data bufLen).map (·.map fun r => (r.1, { l with welt := r.2.1 }, r.2.2))
  | .marke m => inPuffer (.marke m)
  | .puffer b => inPuffer (.cursor b)
  | .pufferPos b p => inPuffer (.pos b p)
  | .pufferEnde b => inPuffer (.ende b)
  | .akkumulator s n => gemessen fun k =>
    (akkPuts ⟨l.frei, s, n⟩ data.bytes k).map fun a => .ok (k, ⟨l.welt, a.frei⟩, a.wert)
  | .nachricht => gemessen fun k => some (.ok (k, l, stream))
  | .lisp => gemessen fun k =>
    (lispArgument l.frei data k).map fun x =>
      let r := B.callLisp1 l.welt stream x.1
      .ok (lispRc r.2 k, ⟨r.1, x.2⟩, stream)
  | .ungueltig => gemessen fun _ => some (.error (.invalidStream stream))
  | .datei _ | .prozess _ => gemessen fun k =>
    (B.puts l.welt stream data k).map (·.map fun r => (r.1, { l with welt := r.2.1 }, r.2.2))

/-- `write (stream, data, len)` (streams.c 628-675) on a Lisp value: an integer goes through
    `stream_putc`; of a string, `stream_puts` writes the first `len` bytes (all of them without an
    integer `len`), given the string value when `len` is its length and a pointer to its bytes
    otherwise; `bad-arg` for a `len` past the string and for data of another type. -/
def cmdWriteWelt (B : AndereAus) (E : Editor) (l : Lage) (stream data len : Wert) :
    Option (Except Signal (Wert × Lage × Wert)) :=
  let puts (d : Daten) (n : Int) : Option (Except Signal (Wert × Lage × Wert)) :=
    (streamPutsWelt B E l stream d n).map (·.map fun r => (.int r.1, r.2))
  match data with
  | .int c => (streamPutc B E l stream c).map (·.map fun r => (.int r.1, r.2))
  | .str s =>
    match len with
    | .int actual =>
      if actual > s.len then some (.error (.badArg len 3))
      else if actual = s.len then puts (.wert s) actual
      else puts (.zeiger s.bytes) actual
    | _ => puts (.wert s) s.len
  | _ => some (.error (.badArg data 2))

/-- Collaborators that do nothing: no call of theirs has an effect, a Lisp function returns
    `nil`, and a buffer's restriction ends at its cursor. -/
def AndereAus.still : AndereAus :=
  ⟨fun _ _ _ => none, fun _ _ _ _ => none, fun w _ _ => (w, some Wert.nil), TX.cursor⟩

/-- An editor that pads nothing and inserts nothing. -/
def Editor.still : Editor := ⟨fun tx _ => some tx, fun tx _ p => some (tx, p)⟩

/-- A world of one-line buffers and of resident marks at the start of buffer 0. -/
def Welt.still : Welt := ⟨fun _ => einZeiler, fun _ => ⟨true, 0, ⟨0, 0⟩⟩⟩

/-! ## 2. The accumulator branch on Lisp values -/

section Akkumulator

variable (B : AndereAus) (E : Editor) (w : Welt) {a a' g : Akk}

theorem putcZweig_akk {s : LString} (hs : s.schreibbar = true) (n : Int) :
    putcZweig (.cons (.str s) (.int n)) = .akkumulator s n := by
  simp [putcZweig, hs]

/-- **`stream_putc` on a writable `(S . n)`** is the accumulator model's step; the world is left
    alone. -/
theorem streamPutc_akk (hs : a.s.schreibbar = true) (c : Int) :
    streamPutc B E ⟨w, a.frei⟩ a.wert c =
      (akkPutc a (byte c)).map fun a' => .ok (1, ⟨w, a'.frei⟩, a'.wert) := by
  simp only [streamPutc, Akk.wert, putcZweig_akk hs]

/-- **`stream_puts` on a writable `(S . n)`** is the model's `streamPuts`, the measurement of
    `bufLen = -1` and the accumulator branch; the world is left alone. -/
theorem streamPutsWelt_akk (hs : a.s.schreibbar = true) (d : Daten) (n : Int) :
    streamPutsWelt B E ⟨w, a.frei⟩ a.wert d n =
      (streamPuts a d n).map fun r => .ok (r.1, ⟨w, r.2.frei⟩, r.2.wert) := by
  obtain ⟨frei, s, m⟩ := a
  rw [streamPuts_eq]
  simp only [streamPutsWelt, Akk.wert, putcZweig_akk hs]
  cases (if n = -1 then d.laenge else some n) with
  | none => rfl
  | some k =>
    simp only [Option.some_bind]
    cases akkPuts ⟨frei, s, m⟩ d.bytes k <;> rfl

/-- **`write` on a writable `(S . n)`** is the model's `cmdWrite`; the world is left alone. -/
theorem cmdWriteWelt_akk (hs : a.s.schreibbar = true) (data len : Wert) :
    cmdWriteWelt B E ⟨w, a.frei⟩ a.wert data len =
      (cmdWrite a data len).map (·.map fun r => (r.1, ⟨w, r.2.frei⟩, r.2.wert)) := by
  have puts : ∀ d n, (streamPutsWelt B E ⟨w, a.frei⟩ a.wert d n).map
      (·.map fun r => (Wert.int r.1, r.2)) =
      ((streamPuts a d n).map fun r => Except.ok (Wert.int r.1, r.2)).map
        (·.map fun r => (r.1, ⟨w, r.2.frei⟩, r.2.wert)) := by
    intro d n
    rw [streamPutsWelt_akk B E w hs]
    cases streamPuts a d n <;> rfl
  cases data with
  | int c =>
    simp only [cmdWriteWelt, cmdWrite, streamPutc_akk B E w hs]
    cases akkPutc a (byte c) <;> rfl
  | str s =>
    cases len with
    | int actual =>
      simp only [cmdWriteWelt, cmdWrite]
      split_ifs <;> first | rfl | exact puts _ _
    | _ => exact puts _ _
  | _ => rfl

end Akkumulator

/-! ## 3. Runs on a string output stream -/

section Lauf

variable (B : AndereAus) (E : Editor) (w : Welt) {a : Akk}

end Lauf

/-! ## 4. One byte, and a Lisp function as the stream -/

section Zweige

variable (B : AndereAus) (E : Editor) (w : Welt) (l : Lage)

/-- The Lisp branch of `stream_puts` once `bufLen` is known. -/
theorem streamPutsWelt_lisp {f : Wert} (hf : putcZweig f = .lisp) (d : Daten) {k : Int}
    (hk : k ≠ -1) :
    streamPutsWelt B E l f d k = (lispArgument l.frei d k).map fun x =>
      .ok (lispRc (B.callLisp1 l.welt f x.1).2 k, ⟨(B.callLisp1 l.welt f x.1).1, x.2⟩, f) := by
  simp only [streamPutsWelt, hf, if_neg hk, Option.some_bind]

/-- **What `write` hands a Lisp function.** For a well formed string and
    `0 ≤ LENGTH ≤ STRING_LEN`, `write` calls the function once, with a string of exactly the
    first `LENGTH` bytes: the string itself when `LENGTH` is its whole length, and otherwise a
    fresh copy at the next free address; it returns the call's `VINT` for an integer, `LENGTH`
    for another value but `nil`, and 0 otherwise. Without an integer `LENGTH` it hands over the
    string itself and counts its whole length. -/
theorem write_lisp {f : Wert} (hf : putcZweig f = .lisp) {s : LString} (hs : s.Wf) (n : Nat)
    (hn : n ≤ s.len) :
    (∃ t frei, t.inhalt = s.inhalt.take n ∧
      (t = s ∧ n = s.len ∧ frei = l.frei ∨ t = stringDupn l.frei (s.inhalt.take n) ∧
        n < s.len ∧ frei = l.frei + 1) ∧
      cmdWriteWelt B E l f (.str s) (.int n) = some (.ok (.int (lispRc
        (B.callLisp1 l.welt f (.str t)).2 n), ⟨(B.callLisp1 l.welt f (.str t)).1, frei⟩, f))) ∧
    ∀ len, len.intp = false → cmdWriteWelt B E l f (.str s) len = some (.ok (.int (lispRc
      (B.callLisp1 l.welt f (.str s)).2 s.len), ⟨(B.callLisp1 l.welt f (.str s)).1, l.frei⟩,
        f)) := by
  have hgt : ¬ ((n : Int) > s.len) := by omega
  have ht : s.bytes.take n = s.inhalt.take n := by
    rw [LString.inhalt, List.take_take, Nat.min_eq_left hn]
  refine ⟨?_, fun len hl => ?_⟩
  · by_cases he : n = s.len
    · subst he
      refine ⟨s, l.frei, by rw [← ht]; rfl, .inl ⟨rfl, rfl, rfl⟩, ?_⟩
      simp only [cmdWriteWelt, if_neg hgt, if_pos rfl,
        streamPutsWelt_lisp B E l hf _ (by omega : ((s.len : Nat) : Int) ≠ -1)]
      rfl
    · have hb : n ≤ s.bytes.length := by have := hs.len_lt; omega
      refine ⟨_, _, stringDupn_inhalt _ _, .inr ⟨rfl, by omega, rfl⟩, ?_⟩
      simp only [cmdWriteWelt, if_neg hgt, if_neg (by exact_mod_cast he : (n : Int) ≠ s.len),
        streamPutsWelt_lisp B E l hf _ (by omega : ((n : Nat) : Int) ≠ -1), lispArgument,
        Int.toNat_ofNat, if_pos (And.intro (Int.ofNat_nonneg n) hb), ht]
      rfl
  · have e : cmdWriteWelt B E l f (.str s) len =
        (streamPutsWelt B E l f (.wert s) s.len).map (·.map fun r => (.int r.1, r.2)) := by
      cases len <;> first | rfl | cases hl
    rw [e, streamPutsWelt_lisp B E l hf _ (by omega)]
    rfl

theorem write_lisp_ab :
    (putcZweig (.sym (.andere 0)) = .lisp ∧ LString.Wf ⟨0, [97, 98, 0], 2, true⟩ ∧ 1 ≤ 2) ∧
      (∃ t frei, LString.inhalt t = (LString.inhalt ⟨0, [97, 98, 0], 2, true⟩).take 1 ∧
        (t = ⟨0, [97, 98, 0], 2, true⟩ ∧ 1 = 2 ∧ frei = 1 ∨
          t = stringDupn 1 ((LString.inhalt ⟨0, [97, 98, 0], 2, true⟩).take 1) ∧ 1 < 2 ∧
            frei = 1 + 1) ∧
        cmdWriteWelt AndereAus.still Editor.still ⟨Welt.still, 1⟩ (.sym (.andere 0))
            (.str ⟨0, [97, 98, 0], 2, true⟩) (.int 1) =
          some (.ok (.int (lispRc (AndereAus.still.callLisp1 Welt.still (.sym (.andere 0))
            (.str t)).2 1), ⟨(AndereAus.still.callLisp1 Welt.still (.sym (.andere 0))
              (.str t)).1, frei⟩, .sym (.andere 0)))) ∧
      ∀ len, len.intp = false →
        cmdWriteWelt AndereAus.still Editor.still ⟨Welt.still, 1⟩ (.sym (.andere 0))
            (.str ⟨0, [97, 98, 0], 2, true⟩) len =
          some (.ok (.int (lispRc (AndereAus.still.callLisp1 Welt.still (.sym (.andere 0))
            (.str ⟨0, [97, 98, 0], 2, true⟩)).2 2), ⟨(AndereAus.still.callLisp1 Welt.still
              (.sym (.andere 0)) (.str ⟨0, [97, 98, 0], 2, true⟩)).1, 1⟩, .sym (.andere 0))) :=
  ⟨⟨rfl, by decide, by decide⟩,
    @write_lisp AndereAus.still Editor.still ⟨Welt.still, 1⟩ (.sym (.andere 0)) rfl
      ⟨0, [97, 98, 0], 2, true⟩ (by decide) 1 (by decide)⟩

end Zweige

end JadeStroeme
