/-
  File:      JadeStroeme/Lesen.lean
  Subject:   What streams.c reads through `stream_getc` (130-201) from any stream: `read-line`
             (`cmd_read_line`, 692-722) and `stream_read_esc` (545-626), the escape reader of
             the Lisp reader.

  * `Liefert` -- a stream seen only through its `stream_getc`, with the byte sequence `s` left:
    its reads return the bytes of `s`, then EOF for ever; `weiter` -- the stream after so many
    reads; `getc_weiter`, `liefert_weiter`: what they return and what is left after them;
  * `zeileSchleife`, `readLineStrom` -- the generic path of `read-line`, the `stream_getc` loop
    into the 400-byte stack buffer; `fgets`, `stringDup`, `readLineDatei` -- the path of a file
    object; `zeile` -- the line the spec describes;
  * `readLineStrom_zeile` -- the loop stores only inside its buffer, returns the line and
    consumes it; `readLineDatei_zeile` -- the file path consumes the same line but returns it
    only up to its first zero byte; `readLine_pfade` -- so the two paths agree exactly on the
    lines without a zero byte; `readLine_nullbyte`;
  * `hexSchleife`, `streamReadEsc` -- the escape reader; `dec` -- the value and the lexeme the
    spec gives an escape; `streamReadEsc_dec` -- for every first character and content it
    returns `dec`, leaves the byte after the lexeme in `*c_p`, and reads the lexeme and that
    byte, no more;
  * `zeichenketteGetc` -- the string input stream `(i . S)` as such a stream;
    `liefert_zeichenkette`: from an index inside a well formed string it has the bytes up to
    the first zero left, so `readLine_zeichenkette` and `streamReadEsc_zeichenkette` hold on it.
-/
import JadeStroeme.Schreiben
import JadeStroeme.Datei
import JadeStroeme.Verteiler
import Mathlib.Data.Int.Bitwise

namespace JadeStroeme

/-! ## 1. A stream seen through `stream_getc` -/

/-- The value a read returns from the content `s`: its first byte, EOF when it is empty. -/
def kopf : List UInt8 → Int
  | [] => EOF
  | c :: _ => c.toNat

@[simp] theorem kopf_nil : kopf [] = EOF := rfl

@[simp] theorem kopf_cons (c : UInt8) (s : List UInt8) : kopf (c :: s) = c.toNat := rfl

/-- `(u_char) c` gives back the byte a read returned. -/
@[simp] theorem byte_toNat (c : UInt8) : byte (c.toNat : Int) = c := by
  have hc : c.toNat < 256 := UInt8.toNat_lt_size c
  have h : ((c.toNat : Int) % 256).toNat = c.toNat := by omega
  apply UInt8.toNat.inj
  rw [byte, h, Nat.toUInt8, UInt8.toNat_ofNat_of_lt hc]

section Strom

variable {σ : Type} (getc : σ → Int × σ)

/-- The stream after `n` calls of `stream_getc`. -/
def weiter : Nat → σ → σ
  | 0, x => x
  | n + 1, x => weiter n (getc x).2

/-- `Liefert getc x s`: the stream `x` has the content `s` left: its reads return the bytes of
    `s`, then EOF for ever. -/
def Liefert : σ → List UInt8 → Prop
  | x, [] => ∀ n, (getc (weiter getc n x)).1 = EOF
  | x, c :: s => (getc x).1 = c.toNat ∧ Liefert (getc x).2 s

variable {getc}

theorem weiter_succ_rechts (n : Nat) (x : σ) :
    weiter getc (n + 1) x = (getc (weiter getc n x)).2 := by
  induction n generalizing x with
  | zero => rfl
  | succ n ih => exact ih (getc x).2

/-- One read returns the head of the content and leaves its tail. -/
theorem getc_liefert {x : σ} {s : List UInt8} (h : Liefert getc x s) :
    getc x = (kopf s, weiter getc 1 x) ∧ Liefert getc (weiter getc 1 x) s.tail := by
  cases s with
  | nil => exact ⟨Prod.ext (h 0) rfl, fun n => h (n + 1)⟩
  | cons c s => exact ⟨Prod.ext h.1 rfl, h.2⟩

theorem liefert_weiter {x : σ} {s : List UInt8} (h : Liefert getc x s) (n : Nat) :
    Liefert getc (weiter getc n x) (s.drop n) := by
  induction n generalizing x s with
  | zero => exact h
  | succ n ih => simpa only [List.drop_tail] using ih (getc_liefert h).2

/-- The `n + 1`-th read returns the byte at `n`, or EOF past the end. -/
theorem getc_weiter {x : σ} {s : List UInt8} (h : Liefert getc x s) (n : Nat) :
    getc (weiter getc n x) = (kopf (s.drop n), weiter getc (n + 1) x) := by
  rw [(getc_liefert (liefert_weiter h n)).1, weiter_succ_rechts n]
  rfl

end Strom

/-- A stream that is its content: `stream_getc` returns the first byte and drops it, EOF at the
    end. -/
def inhaltGetc : List UInt8 → Int × List UInt8
  | [] => (EOF, [])
  | c :: s => (c.toNat, s)

theorem weiter_inhalt (n : Nat) (s : List UInt8) : weiter inhaltGetc n s = s.drop n := by
  induction n generalizing s with
  | zero => rfl
  | succ n ih => cases s <;> simp only [weiter, inhaltGetc, ih, List.drop_nil, List.drop_succ_cons]

theorem liefert_inhalt (s : List UInt8) : Liefert inhaltGetc s s := by
  induction s with
  | nil => intro n; rw [weiter_inhalt, List.drop_nil]; rfl
  | cons c s ih => exact ⟨rfl, ih⟩

/-! ## 2. `read-line` -/

/-- The line a read takes from the content `s` with room for `k` bytes: the prefix that ends at
    the first `'\n'` (included), after `k` bytes, or at the end of `s`. This is how the C
    library's `fgets (buf, k + 1, fh)` reads. -/
def zeileBis (k : Nat) (s : List UInt8) : List UInt8 := s.take (min (s.indexOf 10 + 1) k)

/-- Modelled from the spec: the line `read-line` returns and consumes from the content `s`: the
    prefix that ends at the first `'\n'` (included), after 399 bytes, or at the end of `s`,
    whichever comes first. -/
def zeile (s : List UInt8) : List UInt8 := zeileBis 399 s

@[simp] theorem zeileBis_nil (k : Nat) : zeileBis k [] = [] := by
  simp [zeileBis]

@[simp] theorem zeileBis_zero (s : List UInt8) : zeileBis 0 s = [] := by
  simp [zeileBis]

theorem zeileBis_cons (k : Nat) (c : UInt8) (s : List UInt8) :
    zeileBis (k + 1) (c :: s) = if c = 10 then [c] else c :: zeileBis k s := by
  unfold zeileBis
  rw [List.indexOf_cons]
  by_cases hc : c = 10
  · simp [hc]
  · have hb : (c == 10) = false := by simpa using hc
    simp [hc, hb, Nat.succ_min_succ]

theorem zeileBis_eq_nil {k : Nat} (hk : k ≠ 0) (s : List UInt8) : zeileBis k s = [] ↔ s = [] := by
  simp [zeileBis, List.take_eq_nil_iff, hk]

theorem take_set_succ {l : List UInt8} {i : Nat} (h : i < l.length) (v : UInt8) :
    (l.set i v).take (i + 1) = l.take i ++ [v] := by
  rw [List.take_succ, List.set_take, List.set_eq_of_length_le (by simp), List.getElem?_set_self h]
  rfl

section Strom

variable {σ : Type} (getc : σ → Int × σ)

/-- The loop of `read-line` on a stream that is not a file (streams.c 709-717): each character
    `stream_getc` returns is stored at `buf[len]`, until EOF, a `'\n'` or the 399th byte. `buf`
    is the storage of `u_char buf[400]`: `none` where a store falls outside it. `k` counts the
    iterations left; `read-line` starts the loop with 399, so the test `++len >= 399` ends it
    first. The buffer, `len` and the stream. -/
def zeileSchleife : Nat → List UInt8 → Nat → σ → Option (List UInt8 × Nat × σ)
  | 0, buf, len, x => some (buf, len, x)
  | k + 1, buf, len, x =>
    if (getc x).1 = EOF then some (buf, len, (getc x).2)
    else (speichern buf len (byte (getc x).1)).bind fun buf =>
      if len + 1 ≥ 399 ∨ (getc x).1 = 10 then some (buf, len + 1, (getc x).2)
      else zeileSchleife k buf (len + 1) (getc x).2

/-- `read-line (stream)` (streams.c 692-722) on a stream that is not a file: the loop from the
    uninitialised buffer (zeros here: no byte of it is read before it is stored), then `nil`
    when it stored nothing and `string_dupn (buf, len)` otherwise. The result and the stream. -/
def readLineStrom (frei : Nat) (x : σ) : Option (Wert × σ) :=
  (zeileSchleife getc 399 (List.replicate 400 0) 0 x).map fun r =>
    (if r.2.1 = 0 then Wert.nil else .str (stringDupn frei (r.1.take r.2.1)), r.2.2)

variable {getc}

/-- The loop stores the line the content starts with after what the buffer holds, inside the
    buffer, and consumes exactly that line. -/
theorem zeileSchleife_zeile {k len : Nat} {buf s : List UInt8} {x : σ} (hs : Liefert getc x s)
    (hb : buf.length = 400) (hk : len + k = 399) :
    ∃ buf' y, zeileSchleife getc k buf len x = some (buf', len + (zeileBis k s).length, y) ∧
      buf'.take (len + (zeileBis k s).length) = buf.take len ++ zeileBis k s ∧
      buf'.length = 400 ∧ Liefert getc y (s.drop (zeileBis k s).length) := by
  induction k generalizing buf len x s with
  | zero => exact ⟨buf, x, by simp [zeileSchleife], by simp, hb, by simpa using hs⟩
  | succ k ih =>
    obtain ⟨g, hy⟩ := getc_liefert hs
    cases s with
    | nil => exact ⟨buf, weiter getc 1 x, by simp [zeileSchleife, g], by simp, hb, by simpa using hy⟩
    | cons c s =>
      have hl : len < buf.length := by omega
      have hc : ((c.toNat : Nat) : Int) ≠ EOF := by simp only [EOF]; omega
      simp only [zeileSchleife, g, kopf_cons, if_neg hc, byte_toNat, speichern_eq_some hl,
        Option.some_bind]
      rw [List.tail_cons] at hy
      by_cases hstop : len + 1 ≥ 399 ∨ ((c.toNat : Nat) : Int) = 10
      · have hz : zeileBis (k + 1) (c :: s) = [c] := by
          rw [zeileBis_cons]
          rcases hstop with h | h
          · obtain rfl : k = 0 := by omega
            split_ifs <;> rfl
          · have h' : c.toNat = 10 := by omega
            rw [if_pos (@UInt8.toNat.inj c 10 h')]
        rw [if_pos hstop, hz]
        exact ⟨_, _, rfl, take_set_succ hl c, by simp [hb], hy⟩
      · have hz : zeileBis (k + 1) (c :: s) = c :: zeileBis k s := by
          rw [zeileBis_cons, if_neg]
          rintro rfl
          exact hstop (.inr rfl)
        obtain ⟨buf', y, e, ht, hb', hy'⟩ :=
          ih hy (by simp [hb] : (buf.set len c).length = 400) (by omega : len + 1 + k = 399)
        have hn : len + (c :: zeileBis k s).length = len + 1 + (zeileBis k s).length := by
          simp only [List.length_cons]; omega
        rw [if_neg hstop, hz, hn]
        refine ⟨buf', y, e, ?_, hb', hy'⟩
        rw [ht, take_set_succ hl, List.append_assoc, List.singleton_append]

/-- **The generic path of `read-line`.** On a stream with the content `s` left, `read-line`
    stores only inside its buffer, returns `nil` when `s` is empty and the line `zeile s`
    otherwise, and leaves the stream with the rest of `s` after that line. -/
theorem readLineStrom_zeile (frei : Nat) {x : σ} {s : List UInt8} (hs : Liefert getc x s) :
    ∃ y, readLineStrom getc frei x =
        some (if s = [] then Wert.nil else .str (stringDupn frei (zeile s)), y) ∧
      Liefert getc y (s.drop (zeile s).length) := by
  obtain ⟨buf, y, e, ht, -, hy⟩ :=
    zeileSchleife_zeile hs (List.length_replicate 400 0) (rfl : 0 + 399 = 399)
  refine ⟨y, ?_, hy⟩
  rw [Nat.zero_add, List.take_zero, List.nil_append] at ht
  simp only [readLineStrom, e, Option.map_some', Nat.zero_add, ht, List.length_eq_zero, zeile,
    zeileBis_eq_nil (by decide : 399 ≠ 0)]

end Strom

/-- `fgets (buf, n, fh)` of the C library on a file with the content `s` left: NULL (`none`) at
    the end of the file; otherwise it stores the line `zeileBis (n - 1) s` at the start of
    `buf`, then a zero. The buffer, then the content left. -/
def fgets (buf : List UInt8) (n : Nat) (s : List UInt8) : Option (List UInt8 × List UInt8) :=
  if s = [] then none
  else some (zeileBis (n - 1) s ++ 0 :: buf.drop ((zeileBis (n - 1) s).length + 1),
    s.drop (zeileBis (n - 1) s).length)

/-- `string_dup (s)`, which is not in src/: `string_dupn (s, strlen (s))`, a new string of the
    bytes of `s` before its first zero; `none` when the storage of `s` holds no zero. -/
def stringDup (frei : Nat) (q : List UInt8) : Option LString :=
  (strlen q).map fun n => stringDupn frei (q.take n)

/-- `read-line (stream)` on a file object `o` whose file has the content `s` left (streams.c
    701-707): when `o` is bound, `fgets` of at most 399 bytes into the 400-byte buffer, then
    `string_dup` of the buffer; `nil` when it is not (there is no call) or `fgets` is at the end
    of the file. The result, then the content left. -/
def readLineDatei (frei : Nat) (o : LispFile) (s : List UInt8) : Option (Wert × List UInt8) :=
  match stdioHandle o, fgets (List.replicate 400 0) 400 s with
  | some _, some (buf, rest) => (stringDup frei buf).map fun t => (.str t, rest)
  | _, _ => some (Wert.nil, s)

/-- The C string in a buffer that holds a zero after `l`: `l` up to its first zero. -/
theorem takeWhile_append_null (l r : List UInt8) :
    (l ++ 0 :: r).takeWhile (· ≠ 0) = l.takeWhile (· ≠ 0) := by
  induction l with
  | nil => simp
  | cons a l ih =>
    by_cases ha : a = 0
    · simp [ha]
    · rw [List.cons_append, List.takeWhile_cons_of_pos (by simpa using ha),
        List.takeWhile_cons_of_pos (by simpa using ha), ih]

/-- `string_dup` of a buffer that holds a zero after `l` copies `l` up to its first zero. -/
theorem stringDup_append_null (frei : Nat) (l r : List UInt8) :
    stringDup frei (l ++ 0 :: r) = some (stringDupn frei (l.takeWhile (· ≠ 0))) := by
  have hw := takeWhile_append_null l r
  have ht : (l ++ 0 :: r).take (l.takeWhile (· ≠ 0)).length = l.takeWhile (· ≠ 0) := by
    rw [← hw]
    exact (List.prefix_iff_eq_take.1 (List.takeWhile_prefix _)).symm
  simp only [stringDup, strlen, if_pos (List.mem_append_right l (List.mem_cons_self 0 r)), hw,
    Option.map_some', ht]

/-- **The file path of `read-line`.** On a bound file object whose file has the content `s`
    left, `read-line` returns `nil` when `s` is empty and otherwise the line `zeile s` only up
    to its first zero byte, and it leaves the rest of `s` after the whole line. -/
theorem readLineDatei_zeile (frei : Nat) {o : LispFile} (ho : o.name.isSome = true)
    (s : List UInt8) :
    readLineDatei frei o s = some (if s = [] then Wert.nil
      else .str (stringDupn frei ((zeile s).takeWhile (· ≠ 0))), s.drop (zeile s).length) := by
  have hh : stdioHandle o = some o.file := if_pos ho
  by_cases hs : s = []
  · subst hs
    simp [readLineDatei, hh, fgets, zeile]
  · simp only [readLineDatei, hh, fgets, if_neg hs, stringDup_append_null, Option.map_some']
    rfl

section Strom

variable {σ : Type} {getc : σ → Int × σ}

/-- **The two paths of `read-line` on the same content** consume the same line, and they return
    the same string exactly when that line holds no zero byte. -/
theorem readLine_pfade (frei : Nat) {o : LispFile} (ho : o.name.isSome = true) {x : σ}
    {s : List UInt8} (hs : Liefert getc x s) :
    ∃ r y, readLineStrom getc frei x = some (r, y) ∧ Liefert getc y (s.drop (zeile s).length) ∧
      (readLineDatei frei o s = some (r, s.drop (zeile s).length) ↔ 0 ∉ zeile s) := by
  obtain ⟨y, e, hy⟩ := readLineStrom_zeile frei hs
  refine ⟨_, y, e, hy, ?_⟩
  rw [readLineDatei_zeile frei ho]
  by_cases h : s = []
  · subst h
    simp [zeile]
  · have inj : ∀ a b, stringDupn frei a = stringDupn frei b ↔ a = b :=
      fun a b => ⟨fun e => by simpa using congrArg LString.inhalt e, fun e => e ▸ rfl⟩
    simp only [if_neg h, Option.some.injEq, Prod.mk.injEq, and_true, Wert.str.injEq, inj,
      List.takeWhile_eq_self_iff, decide_eq_true_eq]
    exact ⟨fun h0 hm => h0 0 hm rfl, fun h0 c hc e => h0 (e ▸ hc)⟩

end Strom

/-- At the content `a \0 b \n`, the file path returns the string `"a"` and consumes the whole
    line, while the generic path returns all four bytes. -/
theorem readLine_nullbyte (frei : Nat) (n : Wert) (h : Option Handle) (dc m : Bool) :
    readLineDatei frei ⟨some n, h, dc, m⟩ [97, 0, 98, 10] = some (.str (stringDupn frei [97]), [])
      ∧ ∃ y, readLineStrom inhaltGetc frei [97, 0, 98, 10] =
        some (.str (stringDupn frei [97, 0, 98, 10]), y) := by
  refine ⟨by rw [@readLineDatei_zeile frei ⟨some n, h, dc, m⟩ rfl]; rfl, ?_⟩
  obtain ⟨y, e, -⟩ := readLineStrom_zeile frei (liefert_inhalt [97, 0, 98, 10])
  exact ⟨y, e.trans rfl⟩

/-! ## 3. `stream_read_esc` -/

/-- `toupper` of the C locale: `'a'..'z'` to `'A'..'Z'`, every other argument (EOF included) as
    it is. -/
def toupper (c : Int) : Int := if 97 ≤ c ∧ c ≤ 122 then c - 32 else c

/-- `isxdigit` of the C locale: `'0'..'9'`, `'A'..'F'` and `'a'..'f'`. -/
def isxdigit (c : Int) : Prop := (48 ≤ c ∧ c ≤ 57) ∨ (65 ≤ c ∧ c ≤ 70) ∨ (97 ≤ c ∧ c ≤ 102)

instance (c : Int) : Decidable (isxdigit c) := inferInstanceAs (Decidable (_ ∨ _))

/-- The test `(c >= '0') && (c <= '7')` of the octal case. -/
def oktal (c : Int) : Prop := 48 ≤ c ∧ c ≤ 55

instance (c : Int) : Decidable (oktal c) := inferInstanceAs (Decidable (_ ∧ _))

section Strom

variable {σ : Type} (getc : σ → Int × σ)

/-- The loop of the `'x'` case (streams.c 607-616): it reads a character into `*c_p`, returns
    `c` at the first that is not a hex digit, and adds the digit to `c` otherwise; `c` is a
    `u_char`, so what is assigned to it is kept to a byte. `k` bounds the reads: `none` when it
    runs out. The value returned, `*c_p` and the stream. -/
def hexSchleife : Nat → Int → σ → Option (Int × Int × σ)
  | 0, _, _ => none
  | k + 1, c, x =>
    if isxdigit (getc x).1 then
      hexSchleife k ((if 48 ≤ (getc x).1 ∧ (getc x).1 ≤ 57 then c * 16 + ((getc x).1 - 48)
        else c * 16 + (toupper (getc x).1 - 65) + 10) % 256) (getc x).2
    else some (c, getc x)

/-- The octal case of `stream_read_esc` (streams.c 590-606): the value of `f` and of up to two
    more octal digits. It returns early, holding the character that ended the digits in `*c_p`,
    unless it read a third digit; then it breaks out of the switch to read the lookahead. The
    value returned, `*c_p` and the stream. -/
def oktalZweig (f : Int) (x : σ) : Int × Int × σ :=
  let c := (f - 48) % 256
  let (d₁, x₁) := getc x
  if oktal d₁ then
    let c := (c * 8 + (d₁ - 48)) % 256
    let (d₂, x₂) := getc x₁
    if oktal d₂ then ((c * 8 + (d₂ - 48)) % 256, getc x₂)
    else (c, d₂, x₂)
  else (c, d₁, x₁)

/-- `stream_read_esc (stream, c_p)` (streams.c 545-626) with `*c_p = f`: the value returned,
    then `*c_p` and the stream after the call. `c` is a `u_char`: every value assigned to it is
    kept to a byte. The cases that leave the switch by `break` end in
    `*c_p = stream_getc (stream)`. `k` bounds the reads of the hex loop. -/
def streamReadEsc (k : Nat) (f : Int) (x : σ) : Option (Int × Int × σ) :=
  if f = 110 then some (10, getc x)
  else if f = 114 then some (13, getc x)
  else if f = 102 then some (12, getc x)
  else if f = 116 then some (9, getc x)
  else if f = 118 then some (11, getc x)
  else if f = 97 then some (7, getc x)
  else if f = 94 then some (Int.xor (toupper (getc x).1) 64 % 256, getc (getc x).2)
  else if oktal f then some (oktalZweig getc f x)
  else if f = 120 then hexSchleife getc k 0 x
  else some (f % 256, getc x)

end Strom

/-- Modelled from the spec: the value of a hex digit, either case. -/
def hexZiffer (d : Int) : Int := if d ≤ 57 then d - 48 else if d ≤ 70 then d - 55 else d - 87

/-- Modelled from the spec: the longest run of hex digits at the head of `s`. -/
def hexLauf (s : List UInt8) : List UInt8 := s.takeWhile fun d => decide (isxdigit d.toNat)

/-- Modelled from the spec: the value of the hex digits `l` written after the value `v`. -/
def hexWert (v : Int) (l : List UInt8) : Int := l.foldl (fun v d => v * 16 + hexZiffer d.toNat) v

/-- Modelled from the spec: the longest run of at most two octal digits at the head of `s`. -/
def oktLauf (s : List UInt8) : List UInt8 := (s.takeWhile fun d => decide (oktal d.toNat)).take 2

/-- Modelled from the spec: the value of the octal digits `l` written after the value `v`. -/
def oktWert (v : Int) (l : List UInt8) : Int := l.foldl (fun v d => v * 8 + (d.toNat - 48)) v

/-- Modelled from the spec: `Dec (f, s)`, the value of the escape whose first character is `f`,
    before the content `s`, and the length of its lexeme, the bytes of `s` it takes. The spec
    leaves `'^'` at the end of the content open (`(0, 0)` here). -/
def dec (f : Int) (s : List UInt8) : Int × Nat :=
  if f = 110 then (10, 0)
  else if f = 114 then (13, 0)
  else if f = 102 then (12, 0)
  else if f = 116 then (9, 0)
  else if f = 118 then (11, 0)
  else if f = 97 then (7, 0)
  else if f = 94 then
    match s with
    | X :: _ => (Int.xor (toupper X.toNat) 64 % 256, 1)
    | [] => (0, 0)
  else if oktal f then (oktWert (f - 48) (oktLauf s) % 256, (oktLauf s).length)
  else if f = 120 then (hexWert 0 (hexLauf s) % 256, (hexLauf s).length)
  else (f % 256, 0)

/-- The loop's digit value is the spec's on every hex digit. -/
theorem hexZiffer_eq {d : Int} (h : isxdigit d) (c : Int) :
    (if 48 ≤ d ∧ d ≤ 57 then c * 16 + (d - 48) else c * 16 + (toupper d - 65) + 10) =
      c * 16 + hexZiffer d := by
  unfold isxdigit at h
  unfold toupper hexZiffer
  split_ifs <;> omega

/-- Keeping the value to a byte after each digit, as the `u_char` does, keeps it modulo 256. -/
theorem hexWert_emod (v : Int) (l : List UInt8) : hexWert (v % 256) l % 256 = hexWert v l % 256 := by
  induction l generalizing v with
  | nil => exact Int.emod_emod_of_dvd v (Int.dvd_refl 256)
  | cons d l ih =>
    have e : (v % 256 * 16 + hexZiffer d.toNat) % 256 = (v * 16 + hexZiffer d.toNat) % 256 := by
      omega
    simp only [hexWert, List.foldl_cons] at ih ⊢
    rw [← ih, e, ih]

section Strom

variable {σ : Type} {getc : σ → Int × σ}

/-- The hex loop reads the run of hex digits and the byte after it, and returns the run's value
    after `c`, kept to a byte. -/
theorem hexSchleife_lauf {k : Nat} {c : Int} {x : σ} {s : List UInt8} (hs : Liefert getc x s)
    (hc : c % 256 = c) (hk : (hexLauf s).length < k) :
    hexSchleife getc k c x = some (hexWert c (hexLauf s) % 256,
      kopf (s.drop (hexLauf s).length), weiter getc ((hexLauf s).length + 1) x) := by
  induction s generalizing k c x with
  | nil =>
    obtain ⟨k, rfl⟩ : ∃ k', k = k' + 1 := ⟨k - 1, by simp [hexLauf] at hk; omega⟩
    have hx : ¬ isxdigit (kopf []) := by simp [isxdigit, EOF]
    simp only [hexSchleife, (getc_liefert hs).1, if_neg hx, hexLauf, List.takeWhile_nil, hexWert,
      List.foldl_nil, hc, List.length_nil, List.drop_zero]
  | cons a s ih =>
    obtain ⟨k, rfl⟩ : ∃ k', k = k' + 1 := ⟨k - 1, by omega⟩
    obtain ⟨g, hy⟩ := getc_liefert hs
    by_cases ha : isxdigit (a.toNat : Int)
    · have hl : hexLauf (a :: s) = a :: hexLauf s := by simp [hexLauf, ha]
      rw [hl] at hk ⊢
      simp only [hexSchleife, g, kopf_cons, if_pos ha, hexZiffer_eq ha]
      rw [ih hy (Int.emod_emod_of_dvd _ (Int.dvd_refl 256)) (by simp at hk; omega), hexWert_emod]
      rfl
    · have hl : hexLauf (a :: s) = [] := by simp [hexLauf, ha]
      simp only [hexSchleife, g, kopf_cons, if_neg ha, hl, hexWert, List.foldl_nil, hc,
        List.length_nil, List.drop_zero]

/-- The octal case reads the run of at most two octal digits after `f` and the byte after it,
    and returns the value of `f` and the run, kept to a byte. -/
theorem oktalZweig_lauf (f : Int) {x : σ} {s : List UInt8} (hs : Liefert getc x s) :
    oktalZweig getc f x = (oktWert (f - 48) (oktLauf s) % 256,
      kopf (s.drop (oktLauf s).length), weiter getc ((oktLauf s).length + 1) x) := by
  have g₀ : getc x = (kopf s, weiter getc 1 x) := (getc_liefert hs).1
  simp only [oktalZweig, g₀]
  rcases s with _ | ⟨a, t⟩
  · simp [oktal, EOF, oktLauf, oktWert]
  by_cases ha : oktal (a.toNat : Int)
  · have g₁ : getc (weiter getc 1 x) = (kopf t, weiter getc 2 x) := getc_weiter hs 1
    simp only [kopf_cons, if_pos ha, g₁]
    rcases t with _ | ⟨b, u⟩
    · have hn : ¬ oktal (kopf []) := by simp [oktal, EOF]
      simp only [if_neg hn]
      simp [oktLauf, oktWert, ha]
      omega
    by_cases hb : oktal (b.toNat : Int)
    · have g₂ : getc (weiter getc 2 x) = (kopf u, weiter getc 3 x) := getc_weiter hs 2
      simp only [kopf_cons, if_pos hb, g₂]
      simp [oktLauf, oktWert, ha, hb]
      omega
    · simp only [kopf_cons, if_neg hb]
      simp [oktLauf, oktWert, ha, hb]
      omega
  · simp only [kopf_cons, if_neg ha]
    simp [oktLauf, oktWert, ha]

/-- The escape reader returns `Dec (f, s)`, the byte after the lexeme and the stream after the
    lexeme and that byte. -/
theorem streamReadEsc_lauf (f : Int) {x : σ} {s : List UInt8} (hs : Liefert getc x s) {k : Nat}
    (hk : s.length < k) (hf : f = 94 → s ≠ []) :
    streamReadEsc getc k f x =
      some ((dec f s).1, kopf (s.drop (dec f s).2), weiter getc ((dec f s).2 + 1) x) := by
  have g₀ : getc x = (kopf s, weiter getc 1 x) := (getc_liefert hs).1
  unfold streamReadEsc dec
  by_cases h : f = 110 ∨ f = 114 ∨ f = 102 ∨ f = 116 ∨ f = 118 ∨ f = 97
  · -- the single-letter escapes: a control code, no lexeme, then the lookahead
    rcases h with rfl | rfl | rfl | rfl | rfl | rfl <;> simp only [g₀, if_pos, if_neg] <;> rfl
  simp only [not_or] at h
  obtain ⟨h₁, h₂, h₃, h₄, h₅, h₆⟩ := h
  simp only [if_neg h₁, if_neg h₂, if_neg h₃, if_neg h₄, if_neg h₅, if_neg h₆]
  by_cases h : f = 94
  · obtain ⟨X, t, rfl⟩ := List.exists_cons_of_ne_nil (hf h)
    simp only [if_pos h, g₀, kopf_cons, getc_weiter hs 1]
  by_cases ho : oktal f
  · simp only [if_neg h, if_pos ho, oktalZweig_lauf f hs]
  by_cases hx : f = 120
  · simp only [if_neg h, if_neg ho, if_pos hx]
    exact hexSchleife_lauf hs rfl (Nat.lt_of_le_of_lt (List.takeWhile_prefix _).length_le hk)
  simp only [if_neg h, if_neg ho, if_neg hx, g₀]
  rfl

/-- **The escape reader.** For every first character `f` and every stream with the content `s`
    left (not empty after `'^'`), `stream_read_esc` returns `Dec (f, s)`, leaves in `*c_p` the
    byte of `s` after the lexeme (EOF when there is none), and has read the lexeme and that
    byte: the stream is left with the rest of `s` after them. -/
theorem streamReadEsc_dec (f : Int) {x : σ} {s : List UInt8} (hs : Liefert getc x s) {k : Nat}
    (hk : s.length < k) (hf : f = 94 → s ≠ []) :
    streamReadEsc getc k f x =
        some ((dec f s).1, kopf (s.drop (dec f s).2), weiter getc ((dec f s).2 + 1) x) ∧
      Liefert getc (weiter getc ((dec f s).2 + 1) x) (s.drop ((dec f s).2 + 1)) :=
  ⟨streamReadEsc_lauf f hs hk hf, liefert_weiter hs _⟩

/-- `\x41` before `z`: the value `0x41`, the lookahead `'z'`, and the content read to its end. -/
theorem streamReadEsc_dec_hex :
    [(52 : UInt8), 49, 122].length < 4 ∧
      streamReadEsc inhaltGetc 4 120 [52, 49, 122] = some (65, 122, []) :=
  ⟨by decide,
    (streamReadEsc_dec 120 (liefert_inhalt [52, 49, 122]) (by decide) (by decide)).1.trans rfl⟩

end Strom

/-! ## 4. A string input stream -/

/-- A stream whose reads leave it where it is stays there. -/
theorem weiter_fest {σ : Type} {getc : σ → Int × σ} {x : σ} (h : (getc x).2 = x) (n : Nat) :
    weiter getc n x = x := by
  induction n with
  | zero => rfl
  | succ n ih => rw [weiter_succ_rechts, ih, h]

/-- `stream_getc` on the string input stream `(i . S)`, over its index. A read outside the
    storage is a fault; at the indices `0..STRING_LEN (S)` of a well formed string, where the
    stream is read here, there is none (`stringGetc_schritt`). -/
def zeichenketteGetc (s : LString) (i : Int) : Int × Int := (stringGetc i s).getD (EOF, i)

/-- **A string input stream from an index inside the string** has the bytes up to the first
    zero left. -/
theorem liefert_zeichenkette {s : LString} (hs : s.Wf) {i : Nat} (hi : i ≤ s.len) :
    Liefert (zeichenketteGetc s) (i : Int) (stringRest s i) := by
  have ende : ∀ {j : Nat}, stringGetc j s = some (EOF, (j : Int)) →
      Liefert (zeichenketteGetc s) (j : Int) [] := by
    intro j g n
    have g' : zeichenketteGetc s j = (EOF, (j : Int)) := by rw [zeichenketteGetc, g]; rfl
    rw [weiter_fest (by rw [g']) n, g']
  -- by induction on the bytes of the storage left after `i`
  obtain ⟨n, hn⟩ : ∃ n, s.len - i = n := ⟨_, rfl⟩
  induction n generalizing i with
  | zero =>
    rcases stringGetc_schritt hs hi with ⟨g, hr⟩ | ⟨c, hil, -, -⟩
    · rw [hr]; exact ende g
    · omega
  | succ n ih =>
    rcases stringGetc_schritt hs hi with ⟨g, hr⟩ | ⟨c, hil, g, hr⟩
    · rw [hr]; exact ende g
    · have g' : zeichenketteGetc s i = ((c.toNat : Int), ((i + 1 : Nat) : Int)) := by
        rw [zeichenketteGetc, g]; rfl
      rw [hr]
      exact ⟨by rw [g'], by rw [g']; exact ih (by omega) (by omega)⟩

/-- **The escape reader on a string input stream** `(i . S)`, `0 ≤ i ≤ STRING_LEN (S)`: `Dec`
    of the bytes of `S` from `i` up to its first zero, the byte after the lexeme as lookahead,
    the index past the lexeme and the lookahead. -/
theorem streamReadEsc_zeichenkette (f : Int) {s : LString} (hs : s.Wf) {i : Nat}
    (hi : i ≤ s.len) {k : Nat} (hk : (stringRest s i).length < k)
    (hf : f = 94 → stringRest s i ≠ []) :
    streamReadEsc (zeichenketteGetc s) k f i =
      some ((dec f (stringRest s i)).1, kopf ((stringRest s i).drop (dec f (stringRest s i)).2),
        weiter (zeichenketteGetc s) ((dec f (stringRest s i)).2 + 1) i) :=
  streamReadEsc_lauf f (liefert_zeichenkette hs hi) hk hf

end JadeStroeme
