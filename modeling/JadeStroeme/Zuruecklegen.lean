/-
  File:      JadeStroeme/Zuruecklegen.lean
  Subject:   Putting a character back: `stream_ungetc` (streams.c 222-278) after `stream_getc`
             (130-201) on the streams read by position or index, marks, buffers,
             `(BUFFER . POS)` and `(INT . STRING)`.

  * `Welt` -- the buffers (each with its cursor) and the marks these streams move; `Andere` --
    the branches left to collaborators (files, Lisp functions, `nil`);
  * `streamGetc`, `streamUngetc` -- the two primitives over the switches `getcZweig` and
    `ungetcZweig`; `Lesestrom` -- the four kinds of stream, as Lisp values;
  * `getc_ungetc_getc` -- after a read that returns a character, `stream_ungetc` returns TRUE,
    and the next read returns the same character and leaves the world and the stream as the
    first read left them (from `posGetc_wieder` and `stringGetc_zeichen`);
  * `lauf_zuruecklegen` -- so in every run of calls on one stream; `zuruecklegen` -- with the
    positions `pos_getc` and `POS_UNGETC` walk over (`TX.Lesestelle`).
-/
import JadeStroeme.Verteiler

namespace JadeStroeme

/-! ## 1. The two primitives -/

/-- A mark (`Lisp_Mark`) as the read paths use it: `MKFF_RESIDENT`, the buffer whose `tx` its
    `mk_File` names while resident, and `mk_Pos`. -/
structure Marke where
  resident : Bool
  puffer : Nat
  pos : Pos

/-- The buffers, each with its cursor (`get_tx_cursor_ptr`), and the marks, by number. -/
structure Welt where
  puffer : Nat → TX
  marken : Nat → Marke

/-- The branches of `stream_getc` and `stream_ungetc` left to collaborators: a file (stdio's
    `getc` and `ungetc`), a Lisp function (`call_lisp0`, `call_lisp1`), and `nil`, which stands
    for the value of `standard-input`. Each gives the value of the call, then the world and the
    stream after it. -/
structure Andere where
  getc : Welt → Wert → Option (Except Signal (Int × Welt × Wert))
  ungetc : Welt → Wert → Int → Option (Except Signal (Int × Welt × Wert))

/-- Mark `m` moved to `p`. -/
def Welt.markeSetzen (w : Welt) (m : Nat) (p : Pos) : Welt :=
  { w with marken := Function.update w.marken m { w.marken m with pos := p } }

/-- The cursor of buffer `b` moved to `p`. -/
def Welt.cursorSetzen (w : Welt) (b : Nat) (p : Pos) : Welt :=
  { w with puffer := Function.update w.puffer b { w.puffer b with cursor := p } }

@[simp] theorem markeSetzen_marke (w : Welt) (m : Nat) (p : Pos) :
    (w.markeSetzen m p).marken m = { w.marken m with pos := p } := by
  simp [Welt.markeSetzen]

@[simp] theorem markeSetzen_puffer (w : Welt) (m : Nat) (p : Pos) :
    (w.markeSetzen m p).puffer = w.puffer := rfl

@[simp] theorem markeSetzen_markeSetzen (w : Welt) (m : Nat) (p q : Pos) :
    (w.markeSetzen m p).markeSetzen m q = w.markeSetzen m q := by
  simp [Welt.markeSetzen]

@[simp] theorem cursorSetzen_puffer (w : Welt) (b : Nat) (p : Pos) :
    (w.cursorSetzen b p).puffer b = { w.puffer b with cursor := p } := by
  simp [Welt.cursorSetzen]

@[simp] theorem cursorSetzen_cursorSetzen (w : Welt) (b : Nat) (p q : Pos) :
    (w.cursorSetzen b p).cursorSetzen b q = w.cursorSetzen b q := by
  simp [Welt.cursorSetzen]

@[simp] theorem cursorSetzen_marken (w : Welt) (b : Nat) (p : Pos) :
    (w.cursorSetzen b p).marken = w.marken := rfl

theorem cursorSetzen_puffer_ne (w : Welt) {b b' : Nat} (h : b' ≠ b) (p : Pos) :
    (w.cursorSetzen b p).puffer b' = w.puffer b' := by
  simp [Welt.cursorSetzen, Function.update_noteq h]

theorem markeSetzen_marke_ne (w : Welt) {m m' : Nat} (h : m' ≠ m) (p : Pos) :
    (w.markeSetzen m p).marken m' = w.marken m' := by
  simp [Welt.markeSetzen, Function.update_noteq h]

/-- `stream_getc (stream)` (streams.c 130-201): a mark is read at its position after its residency
    check, a buffer at its cursor, `(INT . STRING)` at its index and `(BUFFER . POS)` at its cdr,
    each moved past what was read; a process and every value the switch refuses signal
    `invalid-stream`; files, Lisp functions and `nil` are the collaborators'. The value returned,
    then the world and the stream after the call. -/
def streamGetc (A : Andere) (w : Welt) (stream : Wert) :
    Option (Except Signal (Int × Welt × Wert)) :=
  match getcZweig stream with
  | .marke m =>
    if (w.marken m).resident then
      (posGetc (w.puffer (w.marken m).puffer) (w.marken m).pos).map fun (c, p) =>
        .ok (c, w.markeSetzen m p, stream)
    else some (.error (.invalidStream stream))
  | .puffer b =>
    (posGetc (w.puffer b) (w.puffer b).cursor).map fun (c, p) => .ok (c, w.cursorSetzen b p, stream)
  | .zeichenkette i s => (stringGetc i s).map fun (c, j) => .ok (c, w, .cons (.int j) (.str s))
  | .pufferPos b p =>
    (posGetc (w.puffer b) p).map fun (c, q) => .ok (c, w, .cons (.puffer b) (.pos q))
  | .ungueltig => some (.error (.invalidStream stream))
  | .standard | .datei _ | .lisp => A.getc w stream

/-- `stream_ungetc (stream, c)` (streams.c 222-278): `POS_UNGETC` on a mark's position (with no
    residency check), on a buffer's cursor and on the cdr of `(BUFFER . POS)`, the car of
    `(INT . STRING)` decremented, each returning `TRUE`; `FALSE` where the switch has no case;
    files, Lisp functions and `nil` are the collaborators'. `c` reaches only those. -/
def streamUngetc (A : Andere) (w : Welt) (stream : Wert) (c : Int) :
    Option (Except Signal (Int × Welt × Wert)) :=
  match ungetcZweig stream with
  | .marke m =>
    (posUngetc (w.puffer (w.marken m).puffer) (w.marken m).pos).map fun p =>
      .ok (1, w.markeSetzen m p, stream)
  | .puffer b =>
    (posUngetc (w.puffer b) (w.puffer b).cursor).map fun p => .ok (1, w.cursorSetzen b p, stream)
  | .zeichenkette i s => some (.ok (1, w, .cons (.int (i - 1)) (.str s)))
  | .pufferPos b p => (posUngetc (w.puffer b) p).map fun q => .ok (1, w, .cons (.puffer b) (.pos q))
  | .ungueltig => some (.ok (0, w, stream))
  | .standard | .datei _ | .lisp => A.ungetc w stream c

/-- The streams read by position or index. -/
inductive Lesestrom
  | marke (m : Nat)
  | puffer (b : Nat)
  | pufferPos (b : Nat) (p : Pos)
  | zeichenkette (i : Int) (s : LString)

/-- The Lisp value of such a stream. -/
def Lesestrom.wert : Lesestrom → Wert
  | .marke m => .marke m
  | .puffer b => .puffer b
  | .pufferPos b p => .cons (.puffer b) (.pos p)
  | .zeichenkette i s => .cons (.int i) (.str s)

/-! ## 2. One read put back -/

@[simp] theorem posGetc_cursor (tx : TX) (p q : Pos) :
    posGetc { tx with cursor := p } q = posGetc tx q := rfl

@[simp] theorem posUngetc_cursor (tx : TX) (p q : Pos) :
    posUngetc { tx with cursor := p } q = posUngetc tx q := rfl

/-- **`stream_ungetc` right after a read that returned a character** returns TRUE, and the next
    read returns that character again and leaves the world and the stream as the first read left
    them; the stream stays one of the four kinds. -/
theorem getc_ungetc_getc (A : Andere) (w : Welt) (l : Lesestrom) {ch : Int} {w₁ : Welt}
    {v₁ : Wert} (h : streamGetc A w l.wert = some (.ok (ch, w₁, v₁))) (hc : ch ≠ EOF) (c : Int) :
    ∃ (l₁ : Lesestrom) (w₂ : Welt) (v₂ : Wert), v₁ = l₁.wert ∧
      streamUngetc A w₁ v₁ c = some (.ok (1, w₂, v₂)) ∧
      streamGetc A w₂ v₂ = some (.ok (ch, w₁, v₁)) := by
  cases l with
  | marke m =>
    simp only [Lesestrom.wert, streamGetc, getcZweig] at h
    by_cases hres : (w.marken m).resident
    · simp only [if_pos hres, Option.map_eq_some', Prod.exists, Except.ok.injEq,
        Prod.mk.injEq] at h
      obtain ⟨ch', p', hp, rfl, rfl, rfl⟩ := h
      obtain ⟨q, hq, hq', -⟩ := posGetc_wieder hp hc
      refine ⟨.marke m, w.markeSetzen m q, .marke m, rfl, ?_, ?_⟩
      · simp [streamUngetc, ungetcZweig, hq]
      · simp [streamGetc, getcZweig, hres, hq']
    · rw [if_neg hres] at h
      cases h
  | puffer b =>
    simp only [Lesestrom.wert, streamGetc, getcZweig, Option.map_eq_some', Prod.exists,
      Except.ok.injEq, Prod.mk.injEq] at h
    obtain ⟨ch', p', hp, rfl, rfl, rfl⟩ := h
    obtain ⟨q, hq, hq', -⟩ := posGetc_wieder hp hc
    refine ⟨.puffer b, w.cursorSetzen b q, .puffer b, rfl, ?_, ?_⟩
    · simp [streamUngetc, ungetcZweig, hq]
    · simp [streamGetc, getcZweig, hq']
  | pufferPos b p =>
    simp only [Lesestrom.wert, streamGetc, getcZweig, Option.map_eq_some', Prod.exists,
      Except.ok.injEq, Prod.mk.injEq] at h
    obtain ⟨ch', p', hp, rfl, rfl, rfl⟩ := h
    obtain ⟨q, hq, hq', -⟩ := posGetc_wieder hp hc
    refine ⟨.pufferPos b p', w, .cons (.puffer b) (.pos q), rfl, ?_, ?_⟩
    · simp [streamUngetc, ungetcZweig, hq]
    · simp [streamGetc, getcZweig, hq']
  | zeichenkette i s =>
    simp only [Lesestrom.wert, streamGetc, getcZweig, Option.map_eq_some', Prod.exists,
      Except.ok.injEq, Prod.mk.injEq] at h
    obtain ⟨ch', j, hj, rfl, rfl, rfl⟩ := h
    obtain rfl : j = i + 1 := stringGetc_zeichen hj hc
    refine ⟨.zeichenkette (i + 1) s, w, .cons (.int i) (.str s), rfl, ?_, ?_⟩
    · simp [streamUngetc, ungetcZweig]
    · simp [streamGetc, getcZweig, hj]

/-! ## 3. Runs -/

/-- A call of a run on one stream. -/
inductive LeseOp
  | getc
  | ungetc (c : Int)

/-- One call. -/
def leseSchritt (A : Andere) (w : Welt) (v : Wert) :
    LeseOp → Option (Except Signal (Int × Welt × Wert))
  | .getc => streamGetc A w v
  | .ungetc c => streamUngetc A w v c

/-- A run of calls on one stream: each call with its value, and the world and the stream after
    it; a signal or a fault ends the run. -/
def leseLauf (A : Andere) : Welt → Wert → List LeseOp → List (LeseOp × Int × Welt × Wert)
  | _, _, [] => []
  | w, v, op :: ops =>
    match leseSchritt A w v op with
    | some (.ok (r, w', v')) => (op, r, w', v') :: leseLauf A w' v' ops
    | _ => []

/-- Every call leaves a stream of the four kinds one of them. -/
theorem leseSchritt_art (A : Andere) (w : Welt) (l : Lesestrom) (op : LeseOp) {r : Int}
    {w' : Welt} {v' : Wert} (h : leseSchritt A w l.wert op = some (.ok (r, w', v'))) :
    ∃ l' : Lesestrom, v' = l'.wert := by
  cases op <;> cases l <;>
    simp only [leseSchritt, Lesestrom.wert, streamGetc, streamUngetc, getcZweig, ungetcZweig,
      Option.map_eq_some', Except.ok.injEq, Prod.mk.injEq, Option.some.injEq] at h
  case getc.marke m =>
    split_ifs at h
    · simp only [Option.map_eq_some', Except.ok.injEq, Prod.mk.injEq] at h
      obtain ⟨_, -, -, -, rfl⟩ := h
      exact ⟨.marke m, rfl⟩
    · cases h
  case getc.puffer b => obtain ⟨_, -, -, -, rfl⟩ := h; exact ⟨.puffer b, rfl⟩
  case getc.pufferPos b _ => obtain ⟨a, -, -, -, rfl⟩ := h; exact ⟨.pufferPos b a.2, rfl⟩
  case getc.zeichenkette s => obtain ⟨a, -, -, -, rfl⟩ := h; exact ⟨.zeichenkette a.2 s, rfl⟩
  case ungetc.marke m => obtain ⟨_, -, -, -, rfl⟩ := h; exact ⟨.marke m, rfl⟩
  case ungetc.puffer b => obtain ⟨_, -, -, -, rfl⟩ := h; exact ⟨.puffer b, rfl⟩
  case ungetc.pufferPos b _ => obtain ⟨a, -, -, -, rfl⟩ := h; exact ⟨.pufferPos b a, rfl⟩
  case ungetc.zeichenkette i s => obtain ⟨-, -, rfl⟩ := h; exact ⟨.zeichenkette (i - 1) s, rfl⟩

/-- **Putting back in a run.** In every run of calls on a mark, a buffer, `(BUFFER . POS)` or
    `(INT . STRING)`, wherever a read that returned a character is directly followed by
    `stream_ungetc` and then a read, the `stream_ungetc` returns TRUE and the read returns that
    character and leaves the world and the stream as the earlier read left them. -/
theorem lauf_zuruecklegen (A : Andere) (w : Welt) (l : Lesestrom) (ops : List LeseOp) (i : Nat)
    (c ch : Int) {w₁ : Welt} {v₁ : Wert}
    (hi : (leseLauf A w l.wert ops)[i]? = some (.getc, ch, w₁, v₁)) (hc : ch ≠ EOF)
    (hu : ops[i + 1]? = some (.ungetc c)) (hg : ops[i + 2]? = some .getc) :
    ∃ w₂ v₂, (leseLauf A w l.wert ops)[i + 1]? = some (.ungetc c, 1, w₂, v₂) ∧
      (leseLauf A w l.wert ops)[i + 2]? = some (.getc, ch, w₁, v₁) := by
  induction ops generalizing w l i with
  | nil => simp [leseLauf] at hi
  | cons op ops ih =>
    rcases h : leseSchritt A w l.wert op with _ | _ | ⟨r, w', v'⟩
    · simp [leseLauf, h] at hi
    · simp [leseLauf, h] at hi
    · simp only [leseLauf, h] at hi ⊢
      cases i with
      | zero =>
        -- the read at the head of the run: the step lemma, then two calls
        simp only [List.getElem?_cons_zero, Option.some.injEq, Prod.mk.injEq] at hi
        obtain ⟨rfl, rfl, rfl, rfl⟩ := hi
        obtain ⟨l₁, w₂, v₂, rfl, hu', hg'⟩ := getc_ungetc_getc A w l h hc c
        rcases ops with _ | ⟨o₁, _ | ⟨o₂, rest⟩⟩ <;> simp at hu hg
        subst hu hg
        exact ⟨w₂, v₂, by simp [leseLauf, leseSchritt, hu', hg']⟩
      | succ k =>
        obtain ⟨l', rfl⟩ := leseSchritt_art A w l op h
        simp only [List.getElem?_cons_succ] at hi hu hg ⊢
        exact ih w' l' k hi hu hg

/-! ## 4. The positions a buffer is read at -/

/-- **Putting back on the streams read by position or index.** `pos_getc` maps every
    `Lesestelle` (a row of the restriction, a column up to the line's `ln_Strlen - 1`) to one,
    and `POS_UNGETC` every one but `(0, 0)`; from a `Lesestelle`, `POS_UNGETC` after a read that
    returned a character leads back to where the read started; `stream_ungetc` after such a read
    of `(INT . STRING)` restores its integer; and in every run on a mark, a buffer,
    `(BUFFER . POS)` or `(INT . STRING)`, a read right after `stream_ungetc` that follows a read
    returning a character returns that character and leaves the world and the stream as that
    read left them. -/
theorem zuruecklegen (A : Andere) :
    (∀ (tx : TX) (p : Pos), tx.Lesestelle p →
      ∃ ch q, posGetc tx p = some (ch, q) ∧ tx.Lesestelle q) ∧
    (∀ (tx : TX) (p : Pos), tx.Lesestelle p → p ≠ ⟨0, 0⟩ →
      ∃ q, posUngetc tx p = some q ∧ tx.Lesestelle q) ∧
    (∀ (tx : TX) (p p' : Pos) (ch : Int), tx.Lesestelle p → posGetc tx p = some (ch, p') →
      ch ≠ EOF → posUngetc tx p' = some p) ∧
    (∀ (w : Welt) (i j ch c : Int) (s : LString), stringGetc i s = some (ch, j) → ch ≠ EOF →
      streamUngetc A w (.cons (.int j) (.str s)) c = some (.ok (1, w, .cons (.int i) (.str s)))) ∧
    ∀ (w : Welt) (l : Lesestrom) (ops : List LeseOp) (i : Nat) (c ch : Int) (w₁ : Welt)
      (v₁ : Wert), (leseLauf A w l.wert ops)[i]? = some (.getc, ch, w₁, v₁) → ch ≠ EOF →
      ops[i + 1]? = some (.ungetc c) → ops[i + 2]? = some .getc →
      ∃ w₂ v₂, (leseLauf A w l.wert ops)[i + 1]? = some (.ungetc c, 1, w₂, v₂) ∧
        (leseLauf A w l.wert ops)[i + 2]? = some (.getc, ch, w₁, v₁) := by
  refine ⟨fun _ _ => posGetc_lesestelle, fun _ _ => posUngetc_lesestelle,
    fun tx p p' ch hp h hc => ?_, fun w i j ch c s h hc => ?_,
    fun w l ops i c ch _ _ => lauf_zuruecklegen A w l ops i c ch⟩
  · obtain ⟨q, hq, -, e⟩ := posGetc_wieder h hc
    rwa [← e hp]
  · obtain rfl := stringGetc_zeichen h hc
    simp [streamUngetc, ungetcZweig]

end JadeStroeme
