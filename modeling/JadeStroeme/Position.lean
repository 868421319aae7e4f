/-
  File:      JadeStroeme/Position.lean
  Subject:   Reading and writing a buffer at a position: `pos_getc`, `POS_UNGETC`, `pos_putc`
             and `pos_puts` (streams.c 66-125, 211-220), the read and write paths of the buffer,
             mark and `(BUFFER . POS)` streams.

  * `Zeile`, `TX` -- the parts of a buffer these functions read: the line array (each line's
    text and `ln_Strlen`, which counts the terminating zero), `tx_LogicalEnd`, the cursor and
    the read-only flag; `Editor` -- the buffer collaborator's `pad_pos` and `insert_string`;
  * `posGetc`, `posUngetc`, `posPutc`, `posPuts` -- the four functions, `none` where C would
    read a line outside the line array or a byte outside a line;
  * `textAb` -- the text from a position to the end of the restriction, lines joined by
    `'\n'`; `posGetc_text` -- one read takes the head of it, or returns EOF in place;
  * `posGetc_lauf` -- every run of reads from a position returns exactly that text, then EOF
    with the position fixed, and reads no byte outside the current line;
  * `TX.Lesestelle` -- a row of the restriction and a column up to the line's `ln_Strlen - 1`;
    `pos_getc` maps these positions into themselves, `POS_UNGETC` all but `(0, 0)`, where it
    reads line `-1` (`lesestelle_anfang`); `posGetc_wieder` -- `POS_UNGETC` after a read that
    returned a character leads where the same read repeats, and from a `Lesestelle` back to the
    start of the read.
-/
import JadeStroeme.Wert

namespace JadeStroeme

/-- EOF, the sentinel every byte-returning primitive uses. -/
def EOF : Int := -1

/-! ## 1. Buffers -/

/-- One line of a buffer: its bytes `ln_Line` and `ln_Strlen`, which counts the terminating
    zero. -/
structure Zeile where
  text : List UInt8
  strlen : Nat
  strlen_eq : strlen = text.length + 1

/-- The empty line. -/
def Zeile.leer : Zeile := ⟨[], 1, rfl⟩

/-- What the stream code reads of a buffer (`TX`): the line array `tx_Lines`, the end of the
    restriction `tx_LogicalEnd` (a row count), the cursor and `read_only (tx)`. -/
structure TX where
  zeilen : List Zeile
  logicalEnd : Nat
  ende_le : logicalEnd ≤ zeilen.length
  cursor : Pos
  nurLesen : Bool

/-- Line `i`, for the specification (the empty line past the array). -/
def TX.zeile (tx : TX) (i : Nat) : Zeile := tx.zeilen.getD i Zeile.leer

/-- `tx->tx_Lines + row`: `none` outside the line array. -/
def TX.zeileAn (tx : TX) (row : Int) : Option Zeile :=
  if 0 ≤ row then tx.zeilen[row.toNat]? else none

/-- The buffer collaborator's two editing primitives the stream code calls: `pad_pos`, which may
    pad the line with spaces up to the position, and `insert_string`, which returns the position
    after the inserted bytes. -/
structure Editor where
  padPos : TX → Pos → Option TX
  insertString : TX → List UInt8 → Pos → Option (TX × Pos)

/-! ## 2. The four functions -/

/-- `pos_getc (tx, pos)` (streams.c 66-90): the byte at `pos` and the position after it; at a
    line's end `'\n'` and the next line's start, or EOF in place on the restriction's last line;
    EOF in place at or past `tx_LogicalEnd`. -/
def posGetc (tx : TX) (p : Pos) : Option (Int × Pos) :=
  if p.row < tx.logicalEnd then
    (tx.zeileAn p.row).bind fun ln =>
      if p.col ≥ (ln.strlen : Int) - 1 then
        if p.row + 1 = tx.logicalEnd then some (EOF, p) else some (10, ⟨0, p.row + 1⟩)
      else (lesen ln.text p.col).map fun c => ((c.toNat : Int), ⟨p.col + 1, p.row⟩)
  else some (EOF, p)

/-- `POS_UNGETC (p, tx)` (streams.c 211-220): one column back; before a line's start, the
    previous line at column `ln_Strlen - 1`. -/
def posUngetc (tx : TX) (p : Pos) : Option Pos :=
  if p.col - 1 < 0 then
    (tx.zeileAn (p.row - 1)).map fun ln => ⟨(ln.strlen : Int) - 1, p.row - 1⟩
  else some ⟨p.col - 1, p.row⟩

/-- `pos_puts (tx, pos, buf, bufLen)` (streams.c 112-125): unless the buffer is read-only or
    cannot be padded to `pos`, the first `bufLen` bytes inserted there; `bufLen` and the position
    after them, or EOF. -/
def posPuts (E : Editor) (tx : TX) (p : Pos) (buf : List UInt8) (bufLen : Int) : Int × TX × Pos :=
  if tx.nurLesen then (EOF, tx, p) else
    match E.padPos tx p with
    | none => (EOF, tx, p)
    | some tx' =>
      match E.insertString tx' (buf.take bufLen.toNat) p with
      | some (tx'', q) => (bufLen, tx'', q)
      | none => (EOF, tx', p)

/-- `pos_putc (tx, pos, c)` (streams.c 92-110): `pos_puts` of the one byte `c`, the call
    `insert_string (tx, tmps, 1, *pos)`; `1` and the position after it, or EOF. -/
def posPutc (E : Editor) (tx : TX) (p : Pos) (c : UInt8) : Int × TX × Pos := posPuts E tx p [c] 1

/-! ## 3. Reading runs -/

/-- **The text from `(row, col)` to the end of the restriction**: `L_row [col..]`, then `'\n'`
    and each following line before `tx_LogicalEnd`; empty from a row at or past it. -/
def textAb (tx : TX) (row col : Nat) : List UInt8 :=
  if row < tx.logicalEnd then
    (tx.zeile row).text.drop col ++
      (List.range' (row + 1) (tx.logicalEnd - (row + 1))).flatMap fun i => 10 :: (tx.zeile i).text
  else []

/-- `k` calls of `pos_getc` from `p`: the characters returned and the final position; `none` as
    soon as one reads outside a line. -/
def posGetcLauf (tx : TX) : Nat → Pos → Option (List Int × Pos)
  | 0, p => some ([], p)
  | k + 1, p => (posGetc tx p).bind fun (c, q) =>
      (posGetcLauf tx k q).map fun (cs, r) => (c :: cs, r)

theorem zeileAn_eq (tx : TX) {row : Nat} (h : row < tx.logicalEnd) :
    tx.zeileAn row = some (tx.zeile row) := by
  have : row < tx.zeilen.length := lt_of_lt_of_le h tx.ende_le
  rw [TX.zeileAn, if_pos (by omega)]
  simp [TX.zeile, List.getD_eq_getElem?_getD, List.getElem?_eq_getElem this]

theorem textAb_nach (tx : TX) {row col : Nat} (h : row < tx.logicalEnd)
    (hc : (tx.zeile row).text.length ≤ col) :
    textAb tx row col = if row + 1 < tx.logicalEnd then 10 :: textAb tx (row + 1) 0 else [] := by
  rw [textAb, if_pos h, List.drop_eq_nil_of_le hc, List.nil_append]
  split
  · rename_i h1
    obtain ⟨m, hm⟩ : ∃ m, tx.logicalEnd - (row + 1) = m + 1 := ⟨_, (Nat.succ_pred_eq_of_pos
      (by omega)).symm⟩
    rw [hm, List.range'_succ, List.flatMap_cons, textAb, if_pos h1, List.drop_zero,
      show tx.logicalEnd - (row + 1 + 1) = m by omega]
    rfl
  · rw [show tx.logicalEnd - (row + 1) = 0 by omega]
    rfl

/-- `pos_getc` on a row before `tx_LogicalEnd`, at natural coordinates. -/
theorem posGetc_zeile (tx : TX) {row col : Nat} (h : row < tx.logicalEnd) :
    posGetc tx ⟨col, row⟩ =
      if (tx.zeile row).text.length ≤ col then
        (if row + 1 = tx.logicalEnd then some (EOF, ⟨col, row⟩) else some (10, ⟨0, row + 1⟩))
      else ((tx.zeile row).text[col]?).map fun c => ((c.toNat : Int), ⟨col + 1, row⟩) := by
  have hs := (tx.zeile row).strlen_eq
  rw [posGetc, if_pos (by simpa using h), zeileAn_eq tx h, Option.some_bind]
  by_cases hc : (tx.zeile row).text.length ≤ col
  · rw [if_pos (by dsimp only; omega), if_pos hc]
    by_cases h1 : row + 1 = tx.logicalEnd
    · rw [if_pos (by dsimp only; omega), if_pos h1]
    · rw [if_neg (by dsimp only; omega), if_neg h1]
  · rw [if_neg (by dsimp only; omega), if_neg hc, lesen, if_pos (Int.ofNat_nonneg col)]
    rfl

/-- **One read takes the head of the text**, or returns EOF in place when the text is empty. -/
theorem posGetc_text (tx : TX) (row col : Nat) :
    (textAb tx row col = [] ∧ posGetc tx ⟨col, row⟩ = some (EOF, ⟨col, row⟩)) ∨
      ∃ b row' col', textAb tx row col = b :: textAb tx row' col' ∧
        posGetc tx ⟨col, row⟩ = some ((b.toNat : Int), ⟨col', row'⟩) := by
  by_cases h : row < tx.logicalEnd
  · rw [posGetc_zeile tx h]
    by_cases hc : (tx.zeile row).text.length ≤ col
    · rw [textAb_nach tx h hc, if_pos hc]
      by_cases h1 : row + 1 < tx.logicalEnd
      · exact .inr ⟨10, row + 1, 0, by rw [if_pos h1], by rw [if_neg (by omega)]; rfl⟩
      · exact .inl ⟨by rw [if_neg h1], by rw [if_pos (by omega)]⟩
    · have hlt : col < (tx.zeile row).text.length := by omega
      refine .inr ⟨(tx.zeile row).text[col], row, col + 1, ?_, ?_⟩
      · rw [textAb, if_pos h, textAb, if_pos h, ← List.drop_drop, List.drop_eq_getElem_cons hlt]
        rfl
      · rw [if_neg hc, List.getElem?_eq_getElem hlt]
        rfl
  · refine .inl ⟨by rw [textAb, if_neg h], ?_⟩
    rw [posGetc, if_neg (by simpa using h)]

theorem take_append_replicate {α : Type} (l : List α) (x : α) {k m : Nat} (h : k ≤ m) :
    (l ++ List.replicate m x).take k = (l ++ List.replicate k x).take k := by
  simp only [List.take_append_eq_append_take, List.take_replicate]
  rw [Nat.min_eq_left (by omega), Nat.min_eq_left (by omega)]

/-- **Reading a buffer from any position** `(row, col)` with `row, col ≥ 0`: the first
    `|textAb|` calls of `pos_getc` return the text to the end of the restriction, every later
    call returns EOF and leaves the position where it is, and no call reads a byte outside the
    current line. -/
theorem posGetc_lauf (tx : TX) (row col : Int) (hr : 0 ≤ row) (hc : 0 ≤ col) (k : Nat) :
    ∃ q, posGetcLauf tx k ⟨col, row⟩ =
        some ((((textAb tx row.toNat col.toNat).map fun b => (b.toNat : Int)) ++
          List.replicate k EOF).take k, q) ∧
      ((textAb tx row.toNat col.toNat).length ≤ k → posGetc tx q = some (EOF, q)) := by
  obtain ⟨row, rfl⟩ := Int.eq_ofNat_of_zero_le hr
  obtain ⟨col, rfl⟩ := Int.eq_ofNat_of_zero_le hc
  simp only [Int.toNat_ofNat]
  clear hr hc
  induction k generalizing row col with
  | zero =>
    refine ⟨⟨col, row⟩, rfl, fun hl => ?_⟩
    rcases posGetc_text tx row col with ⟨_, h⟩ | ⟨b, _, _, ht, _⟩
    · exact h
    · rw [ht] at hl; simp at hl
  | succ k ih =>
    rcases posGetc_text tx row col with ⟨ht, h⟩ | ⟨b, row', col', ht, h⟩
    · obtain ⟨q, hq, hq'⟩ := ih row col
      refine ⟨q, ?_, fun _ => hq' (by rw [ht]; simp)⟩
      rw [ht] at hq ⊢
      simp [posGetcLauf, h, hq, List.replicate_succ]
    · obtain ⟨q, hq, hq'⟩ := ih row' col'
      refine ⟨q, ?_, fun hl => hq' (by rw [ht] at hl; simp at hl; omega)⟩
      rw [ht]
      simp [posGetcLauf, h, hq, take_append_replicate _ _ (Nat.le_succ k)]

/-- A one-line buffer holding `ab`. -/
def einZeiler : TX := ⟨[⟨[97, 98], 3, rfl⟩], 1, by decide, ⟨0, 0⟩, false⟩

theorem posGetc_lauf_einZeiler :
    ∃ q, posGetcLauf einZeiler 3 ⟨0, 0⟩ = some ([97, 98, EOF], q) ∧
      posGetc einZeiler q = some (EOF, q) := by
  obtain ⟨q, h, h'⟩ := posGetc_lauf einZeiler 0 0 (Int.le_refl 0) (Int.le_refl 0) 3
  exact ⟨q, h.trans rfl, h' (by decide)⟩

/-! ## 4. Putting back -/

/-- The positions `pos_getc` and `POS_UNGETC` walk over: a row of the restriction and a column
    from the line's start to its end `ln_Strlen - 1`, where `'\n'` is read. -/
def TX.Lesestelle (tx : TX) (p : Pos) : Prop :=
  0 ≤ p.row ∧ p.row < tx.logicalEnd ∧ 0 ≤ p.col ∧
    p.col ≤ ((tx.zeile p.row.toNat).strlen : Int) - 1

instance (tx : TX) (p : Pos) : Decidable (tx.Lesestelle p) :=
  inferInstanceAs (Decidable (_ ∧ _))

theorem lesestelle_mk (tx : TX) (col row : Int) :
    tx.Lesestelle ⟨col, row⟩ ↔ 0 ≤ row ∧ row < tx.logicalEnd ∧ 0 ≤ col ∧
      col ≤ ((tx.zeile row.toNat).strlen : Int) - 1 := Iff.rfl

/-- **What a read returning a character does**: the byte at the column, before the line's end;
    or `'\n'` at the line's end, with a next line inside the restriction. -/
theorem posGetc_zeichen {tx : TX} {p p' : Pos} {ch : Int} (h : posGetc tx p = some (ch, p'))
    (hc : ch ≠ EOF) :
    ∃ ln, tx.zeileAn p.row = some ln ∧ p.row < tx.logicalEnd ∧
      ((0 ≤ p.col ∧ p.col < (ln.strlen : Int) - 1 ∧ p' = ⟨p.col + 1, p.row⟩) ∨
        (p.col ≥ (ln.strlen : Int) - 1 ∧ p.row + 1 ≠ tx.logicalEnd ∧ ch = 10 ∧
          p' = ⟨0, p.row + 1⟩)) := by
  unfold posGetc at h
  by_cases hr : p.row < tx.logicalEnd
  · rw [if_pos hr] at h
    obtain ⟨ln, hln, h⟩ := Option.bind_eq_some.1 h
    refine ⟨ln, hln, hr, ?_⟩
    by_cases hcol : p.col ≥ (ln.strlen : Int) - 1
    · rw [if_pos hcol] at h
      by_cases h1 : p.row + 1 = tx.logicalEnd
      · rw [if_pos h1] at h; cases h; exact absurd rfl hc
      · rw [if_neg h1] at h; cases h; exact .inr ⟨hcol, h1, rfl, rfl⟩
    · rw [if_neg hcol] at h
      obtain ⟨c, hl, e⟩ := Option.map_eq_some'.1 h
      cases e
      have h0 : 0 ≤ p.col := by unfold lesen at hl; split_ifs at hl with h0; exact h0
      exact .inl ⟨h0, by omega, rfl⟩
  · rw [if_neg hr] at h; cases h; exact absurd rfl hc

/-- **A read that returns a character is undone and repeated**: `POS_UNGETC` after it leads to a
    position from which `pos_getc` returns the same character and position again; from a
    `Lesestelle` it leads back to where the read started. -/
theorem posGetc_wieder {tx : TX} {p p' : Pos} {ch : Int} (h : posGetc tx p = some (ch, p'))
    (hc : ch ≠ EOF) :
    ∃ q, posUngetc tx p' = some q ∧ posGetc tx q = some (ch, p') ∧ (tx.Lesestelle p → q = p) := by
  obtain ⟨ln, hln, hr, ⟨h0, hcol, rfl⟩ | ⟨hcol, h1, rfl, rfl⟩⟩ := posGetc_zeichen h hc
  · -- a byte: one column back is where the read started
    refine ⟨p, ?_, h, fun _ => rfl⟩
    rw [posUngetc, if_neg (by dsimp only; omega)]
    simp
  · -- the newline: back to the end of the line it ended
    refine ⟨⟨(ln.strlen : Int) - 1, p.row⟩, ?_, ?_, fun hs => ?_⟩
    · rw [posUngetc, if_pos (by dsimp only; omega)]
      simp [hln]
    · simp only [posGetc, if_pos hr, hln, Option.some_bind, ge_iff_le, if_neg h1]
      exact if_pos (Int.le_refl _)
    · obtain ⟨hr0, -, -, hle⟩ := hs
      obtain ⟨r, hrr⟩ := Int.eq_ofNat_of_zero_le hr0
      rw [hrr, zeileAn_eq tx (by omega : r < tx.logicalEnd)] at hln
      cases hln
      rw [hrr, Int.toNat_ofNat] at hle
      have e : p.col = ((tx.zeile r).strlen : Int) - 1 := by omega
      rw [← e]

/-- **`pos_getc` maps every `Lesestelle` to one**, reading nothing outside the line. -/
theorem posGetc_lesestelle {tx : TX} {p : Pos} (h : tx.Lesestelle p) :
    ∃ ch q, posGetc tx p = some (ch, q) ∧ tx.Lesestelle q := by
  obtain ⟨col, row⟩ := p
  obtain ⟨hr0, hr, hc0, hc⟩ := (lesestelle_mk tx col row).1 h
  obtain ⟨r, rfl⟩ := Int.eq_ofNat_of_zero_le hr0
  obtain ⟨c, rfl⟩ := Int.eq_ofNat_of_zero_le hc0
  have hrl : r < tx.logicalEnd := by omega
  have hs := (tx.zeile r).strlen_eq
  rw [Int.toNat_ofNat] at hc
  rw [posGetc_zeile tx hrl]
  by_cases hl : (tx.zeile r).text.length ≤ c
  · rw [if_pos hl]
    by_cases h1 : r + 1 = tx.logicalEnd
    · rw [if_pos h1]
      exact ⟨_, _, rfl, h⟩
    · rw [if_neg h1]
      have hs' := (tx.zeile (r + 1)).strlen_eq
      refine ⟨10, ⟨0, r + 1⟩, rfl, (lesestelle_mk _ _ _).2 ⟨by omega, by omega, Int.le_refl 0, ?_⟩⟩
      rw [Int.toNat_ofNat_add_one]
      omega
  · rw [if_neg hl, List.getElem?_eq_getElem (by omega)]
    refine ⟨_, ⟨c + 1, r⟩, rfl, (lesestelle_mk _ _ _).2 ⟨hr0, hr, by omega, ?_⟩⟩
    rw [Int.toNat_ofNat]
    omega

/-- **`POS_UNGETC` maps every `Lesestelle` but `(0, 0)` to one.** -/
theorem posUngetc_lesestelle {tx : TX} {p : Pos} (h : tx.Lesestelle p) (h0 : p ≠ ⟨0, 0⟩) :
    ∃ q, posUngetc tx p = some q ∧ tx.Lesestelle q := by
  obtain ⟨col, row⟩ := p
  obtain ⟨hr0, hr, hc0, hc⟩ := (lesestelle_mk tx col row).1 h
  by_cases hcol : col - 1 < 0
  · -- the start of a line after the first: the end of the line before
    have hr1 : 1 ≤ row := by
      by_contra hn
      exact h0 (by rw [Pos.mk.injEq]; omega)
    obtain ⟨r, hrr⟩ := Int.eq_ofNat_of_zero_le (show 0 ≤ row - 1 by omega)
    have hrl : r < tx.logicalEnd := by omega
    have hs := (tx.zeile r).strlen_eq
    rw [posUngetc, if_pos hcol]
    dsimp only
    rw [hrr, zeileAn_eq tx hrl]
    refine ⟨_, rfl, (lesestelle_mk _ _ _).2 ⟨by omega, by omega, by omega, ?_⟩⟩
    simp only [Int.toNat_ofNat, Int.le_refl]
  · rw [posUngetc, if_neg hcol]
    exact ⟨⟨col - 1, row⟩, rfl, (lesestelle_mk _ _ _).2 ⟨hr0, hr, by omega, by omega⟩⟩

/-- The start `(0, 0)` of a one-line buffer is a `Lesestelle`, and `POS_UNGETC` takes it to line
    `-1`, before the line array. -/
theorem lesestelle_anfang : einZeiler.Lesestelle ⟨0, 0⟩ ∧ posUngetc einZeiler ⟨0, 0⟩ = none :=
  ⟨by decide, rfl⟩

end JadeStroeme
