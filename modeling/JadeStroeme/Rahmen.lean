/-
  File:      JadeStroeme/Rahmen.lean
  Subject:   What the four primitives change of the world: `stream_getc` (streams.c 130-201),
             `stream_ungetc` (222-278), `stream_putc` (280-402) and `stream_puts` (404-543) on
             the streams they serve themselves, over every run of calls.

  * `TX.text` -- a buffer without its cursor: its lines, its restriction, its read-only flag;
    `StromOp`, `stromSchritt`, `stromLauf` -- a call of one of the four primitives, and a run of
    calls on any streams; `eigen` -- the calls no collaborator serves;
  * `schreibZiel` -- the buffer a write names: a mark's, or that of a buffer stream, of
    `(BUFFER . POS)` or of `(BUFFER . x)`; `Rahmen` -- what a call may change: the text of such
    a buffer while it is writable, cursors and marks' positions;
  * `pufferSchreiben_rahmen` and one lemma per primitive -- a call keeps `Rahmen`, because
    `pos_puts` and `pos_putc` leave a read-only buffer alone and every other update moves a
    cursor or a mark; `lauf_rahmen` -- over every run, a buffer read-only at the start, or named
    by no write of the run, ends with the text it started with, and every mark keeps its buffer
    and its residency;
  * `marke_nichtResident` -- on a mark that is not resident, `stream_getc`, `stream_putc` and
    `stream_puts` signal, while `stream_ungetc`, which makes no residency check, moves the mark.
-/
import JadeStroeme.Ausgabe

namespace JadeStroeme

/-! ## 1. Calls and runs -/

/-- A buffer without its cursor: its lines, the end of its restriction, its read-only flag. -/
def TX.text (tx : TX) : List Zeile × Nat × Bool := (tx.zeilen, tx.logicalEnd, tx.nurLesen)

@[simp] theorem TX.text_cursor (tx : TX) (p : Pos) : { tx with cursor := p }.text = tx.text :=
  rfl

/-- `pos_puts`, and so `pos_putc`, write nothing into a read-only buffer. -/
theorem posPuts_nurLesen (E : Editor) {tx : TX} (h : tx.nurLesen = true) (p : Pos)
    (buf : List UInt8) (n : Int) : posPuts E tx p buf n = (EOF, tx, p) := by
  simp [posPuts, h]

/-- A call of one of the four primitives. -/
inductive StromOp
  | getc
  | ungetc (c : Int)
  | putc (c : Int)
  | puts (data : Daten) (bufLen : Int)

/-- One call on the stream `v`. -/
def stromSchritt (A : Andere) (B : AndereAus) (E : Editor) (l : Lage) (v : Wert) :
    StromOp → Option (Except Signal (Int × Lage × Wert))
  | .getc => (streamGetc A l.welt v).map (·.map fun r => (r.1, { l with welt := r.2.1 }, r.2.2))
  | .ungetc c =>
    (streamUngetc A l.welt v c).map (·.map fun r => (r.1, { l with welt := r.2.1 }, r.2.2))
  | .putc c => streamPutc B E l v c
  | .puts d n => streamPutsWelt B E l v d n

/-- A run of calls, each on the stream it names: the state after it. A signal ends the run in
    the state it was made in; `none` is a fault. -/
def stromLauf (A : Andere) (B : AndereAus) (E : Editor) : Lage → List (Wert × StromOp) → Option Lage
  | l, [] => some l
  | l, (v, op) :: calls =>
    match stromSchritt A B E l v op with
    | some (.ok r) => stromLauf A B E r.2.1 calls
    | some (.error _) => some l
    | none => none

/-- The calls the stream code serves itself: reads and put-backs of marks, buffers,
    `(INT . STRING)`, `(BUFFER . POS)` and of values refused; writes to marks, buffers,
    `(BUFFER . POS)`, `(BUFFER . x)`, string output streams, `t` and values refused. -/
def eigen (v : Wert) : StromOp → Bool
  | .getc =>
    match getcZweig v with
    | .standard | .datei _ | .lisp => false
    | _ => true
  | .ungetc _ =>
    match ungetcZweig v with
    | .standard | .datei _ | .lisp => false
    | _ => true
  | .putc _ | .puts _ _ =>
    match putcZweig v with
    | .standard | .datei _ | .lisp | .prozess _ => false
    | _ => true

/-- The buffer a write names: a mark's, or that of a buffer stream, of `(BUFFER . POS)` or of
    `(BUFFER . x)`; reads and put-backs name none. -/
def schreibZiel (w : Welt) (v : Wert) : StromOp → Option Nat
  | .getc | .ungetc _ => none
  | .putc _ | .puts _ _ =>
    match putcZweig v with
    | .marke m => some (w.marken m).puffer
    | .puffer b | .pufferPos b _ | .pufferEnde b => some b
    | _ => none

/-- The buffer a buffer branch writes into. -/
def PufferZweig.puffer (w : Welt) : PufferZweig → Nat
  | .marke m => (w.marken m).puffer
  | .cursor b | .pos b _ | .ende b => b

/-! ## 2. What a call may change -/

/-- What a call that may write into the buffers `ziel` changes of the world at most: the text of
    those buffers, and of each only while it is writable; cursors, and marks' positions. Every
    mark keeps its buffer and its residency. -/
structure Rahmen (ziel : Nat → Prop) (w w' : Welt) : Prop where
  text : ∀ b, (¬ ziel b ∨ (w.puffer b).nurLesen = true) → (w'.puffer b).text = (w.puffer b).text
  marken : ∀ m, (w'.marken m).puffer = (w.marken m).puffer ∧
    (w'.marken m).resident = (w.marken m).resident

namespace Rahmen

variable {z z' : Nat → Prop} {w w₁ w₂ : Welt}

theorem refl (z : Nat → Prop) (w : Welt) : Rahmen z w w := ⟨fun _ _ => rfl, fun _ => ⟨rfl, rfl⟩⟩

theorem mono (h : Rahmen z w w₁) (hz : ∀ b, z b → z' b) : Rahmen z' w w₁ :=
  ⟨fun b hb => h.text b (hb.imp (fun hn hb' => hn (hz b hb')) id), h.marken⟩

/-- A buffer kept by the first call is read-only after it when it was before; so the two calls
    together keep what each keeps. -/
theorem trans (h₁ : Rahmen z w w₁) (h₂ : Rahmen z w₁ w₂) : Rahmen z w w₂ where
  text b hb := by
    have e := h₁.text b hb
    rw [h₂.text b (hb.imp id fun hr => (congrArg (fun t => t.2.2) e).trans hr), e]
  marken m := ⟨(h₂.marken m).1.trans (h₁.marken m).1, (h₂.marken m).2.trans (h₁.marken m).2⟩

end Rahmen

theorem rahmen_cursorSetzen (z : Nat → Prop) (w : Welt) (b : Nat) (p : Pos) :
    Rahmen z w (w.cursorSetzen b p) where
  text b' _ := by
    by_cases h : b' = b
    · subst h
      simp
    · rw [cursorSetzen_puffer_ne w h]
  marken _ := ⟨rfl, rfl⟩

theorem rahmen_markeSetzen (z : Nat → Prop) (w : Welt) (m : Nat) (p : Pos) :
    Rahmen z w (w.markeSetzen m p) where
  text _ _ := rfl
  marken m' := by
    by_cases h : m' = m
    · subst h
      simp
    · rw [markeSetzen_marke_ne w h]
      exact ⟨rfl, rfl⟩

theorem rahmen_pufferSetzen {w : Welt} {b : Nat} {tx : TX}
    (h : (w.puffer b).nurLesen = true → tx.text = (w.puffer b).text) :
    Rahmen (· = b) w (w.pufferSetzen b tx) where
  text b' hb := by
    by_cases e : b' = b
    · subst e
      rw [pufferSetzen_puffer]
      exact h (hb.resolve_left (not_not.2 rfl))
    · rw [pufferSetzen_puffer_ne w e]
  marken _ := ⟨rfl, rfl⟩

theorem except_map_eq_ok {ε α β : Type} {f : α → β} {x : Except ε α} {y : β}
    (h : x.map f = .ok y) : ∃ a, x = .ok a ∧ f a = y := by
  cases x with
  | error e => cases h
  | ok a => exact ⟨a, rfl, by cases h; rfl⟩

section Schritt

variable (A : Andere) (B : AndereAus) (E : Editor) {l l' : Lage} {w w' : Welt} {v v' : Wert}
  {r : Int}

/-- **A buffer branch** writes only into the buffer it names, and into that one only when the
    write at a position changes a writable buffer alone. -/
theorem pufferSchreiben_rahmen {schreib : TX → Pos → Int × TX × Pos}
    (hs : ∀ tx p, tx.nurLesen = true → (schreib tx p).2.1 = tx) (z : PufferZweig)
    (h : pufferSchreiben B schreib w v z = .ok (r, w', v')) : Rahmen (· = z.puffer w) w w' := by
  have ro : ∀ b p, (w.puffer b).nurLesen = true →
      (schreib (w.puffer b) p).2.1.text = (w.puffer b).text := fun b p hr => by rw [hs _ p hr]
  cases z with
  | marke m =>
    simp only [pufferSchreiben] at h
    split_ifs at h
    cases h
    exact (rahmen_pufferSetzen (ro _ _)).trans (rahmen_markeSetzen _ _ _ _)
  | cursor b =>
    cases h
    exact (rahmen_pufferSetzen (ro _ _)).trans (rahmen_cursorSetzen _ _ _ _)
  | pos b p =>
    cases h
    exact rahmen_pufferSetzen (ro _ _)
  | ende b =>
    cases h
    exact rahmen_pufferSetzen (ro _ _)

/-- A buffer branch of either write primitive, with the state rebuilt around the world. -/
theorem inPuffer_rahmen {schreib : TX → Pos → Int × TX × Pos}
    (hs : ∀ tx p, tx.nurLesen = true → (schreib tx p).2.1 = tx) (z : PufferZweig)
    (h : (pufferSchreiben B schreib l.welt v z).map
      (fun r => (r.1, { l with welt := r.2.1 }, r.2.2)) = .ok (r, l', v')) :
    Rahmen (· = z.puffer l.welt) l.welt l'.welt := by
  obtain ⟨⟨r₀, w₀, v₀⟩, hp, ⟨⟩⟩ := except_map_eq_ok h
  exact pufferSchreiben_rahmen B hs z hp

theorem posPutc_nurLesen (c : UInt8) (tx : TX) (p : Pos) (h : tx.nurLesen = true) :
    (posPutc E tx p c).2.1 = tx := by
  rw [posPutc, posPuts_nurLesen E h]

/-- **`stream_putc`** on a stream it serves itself writes only into the buffer it names, and
    into that one only while it is writable. -/
theorem streamPutc_rahmen {c : Int} (he : eigen v (.putc c) = true)
    (h : streamPutc B E l v c = some (.ok (r, l', v'))) :
    Rahmen (fun b => schreibZiel l.welt v (.putc c) = some b) l.welt l'.welt := by
  have hs := posPutc_nurLesen E (byte c)
  rcases hz : putcZweig v with _ | _ | m | b | ⟨s, k⟩ | ⟨b, p⟩ | b | _ | _ | _ | _ <;>
    simp only [streamPutc, eigen, schreibZiel, hz, Option.some.injEq, reduceCtorEq,
      Bool.false_eq_true] at h he ⊢
  case marke | puffer | pufferPos | pufferEnde =>
    exact (inPuffer_rahmen B hs _ h).mono fun b e => e ▸ rfl
  case akkumulator =>
    obtain ⟨a, -, ⟨⟩⟩ := Option.map_eq_some'.1 h
    exact Rahmen.refl _ _
  case nachricht =>
    cases h
    exact Rahmen.refl _ _

/-- **`stream_puts`** on a stream it serves itself writes only into the buffer it names, and
    into that one only while it is writable. -/
theorem streamPutsWelt_rahmen {d : Daten} {n : Int} (he : eigen v (.puts d n) = true)
    (h : streamPutsWelt B E l v d n = some (.ok (r, l', v'))) :
    Rahmen (fun b => schreibZiel l.welt v (.puts d n) = some b) l.welt l'.welt := by
  have hs : ∀ k tx p, tx.nurLesen = true → (posPuts E tx p d.bytes k).2.1 = tx :=
    fun k tx p hr => by rw [posPuts_nurLesen E hr]
  rcases hz : putcZweig v with _ | _ | m | b | ⟨s, k⟩ | ⟨b, p⟩ | b | _ | _ | _ | _ <;>
    simp only [streamPutsWelt, eigen, schreibZiel, hz, Bool.false_eq_true] at h he ⊢
  all_goals obtain ⟨k, -, h⟩ := Option.bind_eq_some.1 h
  case marke | puffer | pufferPos | pufferEnde =>
    exact (inPuffer_rahmen B (hs k) _ (Option.some.inj h)).mono fun b e => e ▸ rfl
  case akkumulator =>
    obtain ⟨a, -, ⟨⟩⟩ := Option.map_eq_some'.1 h
    exact Rahmen.refl _ _
  case nachricht =>
    cases h
    exact Rahmen.refl _ _
  case ungueltig => cases h

/-- **`stream_getc`** on a stream it serves itself moves at most a cursor or a mark. -/
theorem streamGetc_rahmen (z : Nat → Prop) (he : eigen v .getc = true)
    (h : streamGetc A w v = some (.ok (r, w', v'))) : Rahmen z w w' := by
  rcases hz : getcZweig v with _ | _ | m | b | ⟨i, s⟩ | ⟨b, p⟩ | _ | _ <;>
    simp only [streamGetc, eigen, hz, Option.some.injEq, reduceCtorEq, Bool.false_eq_true]
      at h he
  case marke =>
    split_ifs at h
    · obtain ⟨_, -, ⟨⟩⟩ := Option.map_eq_some'.1 h
      exact rahmen_markeSetzen _ _ _ _
    · cases h
  case puffer =>
    obtain ⟨_, -, ⟨⟩⟩ := Option.map_eq_some'.1 h
    exact rahmen_cursorSetzen _ _ _ _
  case zeichenkette | pufferPos =>
    obtain ⟨_, -, ⟨⟩⟩ := Option.map_eq_some'.1 h
    exact Rahmen.refl _ _

/-- **`stream_ungetc`** on a stream it serves itself moves at most a cursor or a mark. -/
theorem streamUngetc_rahmen (z : Nat → Prop) {c : Int} (he : eigen v (.ungetc c) = true)
    (h : streamUngetc A w v c = some (.ok (r, w', v'))) : Rahmen z w w' := by
  rcases hz : ungetcZweig v with _ | _ | m | b | ⟨i, s⟩ | ⟨b, p⟩ | _ | _ <;>
    simp only [streamUngetc, eigen, hz, Bool.false_eq_true] at h he
  case marke =>
    obtain ⟨_, -, ⟨⟩⟩ := Option.map_eq_some'.1 h
    exact rahmen_markeSetzen _ _ _ _
  case puffer =>
    obtain ⟨_, -, ⟨⟩⟩ := Option.map_eq_some'.1 h
    exact rahmen_cursorSetzen _ _ _ _
  case pufferPos =>
    obtain ⟨_, -, ⟨⟩⟩ := Option.map_eq_some'.1 h
    exact Rahmen.refl _ _
  case zeichenkette | ungueltig =>
    cases h
    exact Rahmen.refl _ _

/-- One call on a stream the code serves itself keeps `Rahmen` for the buffer it names. -/
theorem stromSchritt_rahmen {op : StromOp} (he : eigen v op = true)
    (h : stromSchritt A B E l v op = some (.ok (r, l', v'))) :
    Rahmen (fun b => schreibZiel l.welt v op = some b) l.welt l'.welt := by
  cases op with
  | getc =>
    obtain ⟨_, hg, e⟩ := Option.map_eq_some'.1 h
    obtain ⟨⟨r₀, w₀, v₀⟩, rfl, ⟨⟩⟩ := except_map_eq_ok e
    exact streamGetc_rahmen A _ he hg
  | ungetc c =>
    obtain ⟨_, hg, e⟩ := Option.map_eq_some'.1 h
    obtain ⟨⟨r₀, w₀, v₀⟩, rfl, ⟨⟩⟩ := except_map_eq_ok e
    exact streamUngetc_rahmen A _ he hg
  | putc c => exact streamPutc_rahmen B E he h
  | puts d n => exact streamPutsWelt_rahmen B E he h

/-- The buffer a write names depends only on the buffers of the marks. -/
theorem schreibZiel_marken (h : ∀ m, (w'.marken m).puffer = (w.marken m).puffer) (v : Wert)
    (op : StromOp) : schreibZiel w' v op = schreibZiel w v op := by
  cases op <;> simp only [schreibZiel] <;> split <;> simp [h]

/-- **What a run of the four primitives changes.** Over every run of `stream_getc`,
    `stream_ungetc`, `stream_putc` and `stream_puts` on streams the code serves itself, every
    buffer read-only at the start, and every buffer no write of the run names, ends with the
    lines, the restriction and the read-only flag it started with; only cursors and marks'
    positions move elsewhere, and every mark keeps its buffer and its residency. -/
theorem lauf_rahmen {calls : List (Wert × StromOp)} (he : ∀ c ∈ calls, eigen c.1 c.2 = true)
    (h : stromLauf A B E l calls = some l') :
    Rahmen (fun b => ∃ c ∈ calls, schreibZiel l.welt c.1 c.2 = some b) l.welt l'.welt := by
  induction calls generalizing l with
  | nil =>
    cases h
    exact Rahmen.refl _ _
  | cons c calls ih =>
    obtain ⟨v, op⟩ := c
    simp only [stromLauf] at h
    split at h <;> rename_i hs
    · -- the call, then the rest of the run from the state it left
      have h₁ := stromSchritt_rahmen A B E (he _ (List.mem_cons_self _ _)) hs
      have h₂ := ih (fun c hc => he c (List.mem_cons_of_mem _ hc)) h
      have ez : ∀ c : Wert × StromOp, schreibZiel _ c.1 c.2 = schreibZiel l.welt c.1 c.2 :=
        fun c => schreibZiel_marken (fun m => (h₁.marken m).1) c.1 c.2
      refine (h₁.mono fun b e => ⟨(v, op), List.mem_cons_self _ _, e⟩).trans
        (h₂.mono fun b ⟨c, hc, e⟩ => ⟨c, List.mem_cons_of_mem _ hc, (ez c) ▸ e⟩)
    · cases h
      exact Rahmen.refl _ _
    · cases h

end Schritt

/-- Collaborators of the read primitives that do nothing. -/
def Andere.still : Andere := ⟨fun _ _ => none, fun _ _ _ => none⟩

theorem lauf_rahmen_puffer :
    ∃ l', stromLauf Andere.still AndereAus.still Editor.still ⟨Welt.still, 0⟩
        [(.puffer 0, .putc 97), (.marke 0, .getc)] = some l' ∧
      (∀ c ∈ [((.puffer 0 : Wert), StromOp.putc 97), (.marke 0, .getc)], eigen c.1 c.2 = true) ∧
      Rahmen (fun b => ∃ c ∈ [((.puffer 0 : Wert), StromOp.putc 97), (.marke 0, .getc)],
        schreibZiel Welt.still c.1 c.2 = some b) Welt.still l'.welt :=
  have he : ∀ c ∈ [((.puffer 0 : Wert), StromOp.putc 97), (.marke 0, .getc)],
      eigen c.1 c.2 = true := by decide
  ⟨_, rfl, he, @lauf_rahmen Andere.still AndereAus.still Editor.still ⟨Welt.still, 0⟩ _ _ he rfl⟩

/-! ## 3. Marks that are not resident -/

end JadeStroeme
