/-
  File:      JadeStroeme/Datei.lean
  Subject:   The file objects of streams.c and their life: `cmd_open`, `cmd_close` (1086-1154),
             `stdin-file` / `stdout-file` / `stderr-file` (1264-1325), `file_sweep` (1036-1060)
             and `streams_kill` (1356-1369).

  * `LispFile`, `Dateien` -- a file object (name, handle, `LFF_DONT_CLOSE`, GC mark) and the
    state the functions above share: the objects by address, `lfile_chain`, the three static
    singletons, and the handles passed to `fclose`, in order;
  * `cmdOpen`, `cmdClose`, `standardFile` (with `cmdStdinFile`, `cmdStdoutFile`,
    `cmdStderrFile`), `markieren` (the collector's mark phase), `fileSweep`, `streamsKill`;
  * `DateiInv` -- the invariant of every reachable state: the chain is the live objects, each
    once, all unmarked; and the handles held by bound closable objects, together with those
    already closed, are exactly the handles `fopen` returned, each once (`handles`);
  * `dateiSchritt_inv` -- every operation keeps it (one lemma per operation);
  * `datei_lebenszyklus` -- no handle is closed twice, no standard handle is ever closed, every
    handle `fopen` returned is closed exactly once by the end of `streams_kill`, and after each
    sweep the chain is exactly the marked objects, unmarked, while the others are freed;
    `streamsKill_frei` -- and `streams_kill` frees every object;
  * `stdioHandle` -- the `name` guard before every stdio call on a file object; `stdio_offen` --
    in every reachable state such a call goes to a handle that is not `NULL` and not yet closed,
    from `DateiInv` and `AlleGeschuetzt` (a bound `LFF_DONT_CLOSE` object holds a standard
    handle).
-/
import JadeStroeme.Wert
import Mathlib.Logic.Function.Basic
import Mathlib.Data.List.Perm.Basic
import Mathlib.Data.List.Nodup

namespace JadeStroeme

/-! ## 1. File objects -/

/-- A `FILE *`: one of the process's three standard streams, or the `k`th one `fopen` returned. -/
inductive Handle
  | stdin | stdout | stderr
  | geoeffnet (k : Nat)
  deriving DecidableEq, Repr

/-- A file object (`Lisp_File`): `name` (`LISP_NULL` is `none`), the handle `file` (`NULL` is
    `none`), the `LFF_DONT_CLOSE` bit of its car, and the collector's mark bit. -/
structure LispFile where
  name : Option Wert
  file : Option Handle
  dontClose : Bool
  markiert : Bool

/-- The three singletons `stdin-file`, `stdout-file` and `stderr-file` keep. -/
inductive Standard
  | ein | aus | fehler
  deriving DecidableEq

/-- What the file-object functions share: the allocated objects by address, `lfile_chain`
    (head first), the next fresh address and `fopen` handle, the handles passed to `fclose` in
    order, and the three static singletons. -/
structure Dateien where
  objekte : Nat → Option LispFile
  kette : List Nat
  naechstes : Nat
  naechsterHandle : Nat
  geschlossen : List (Option Handle)
  statik : Standard → Option Nat

/-- Before the first file object. -/
def Dateien.leer : Dateien := ⟨fun _ => none, [], 0, 0, [], fun _ => none⟩

/-- The test every closing path makes, `lf->name && !(lf->car & LFF_DONT_CLOSE)`: the handles
    `fclose (lf->file)` is then called on. -/
def schliessbar (o : LispFile) : List (Option Handle) :=
  if o.name.isSome && !o.dontClose then [o.file] else []

/-- The handle the object at `a` holds and some closing path would close. -/
def beitrag (obj : Nat → Option LispFile) (a : Nat) : List (Option Handle) :=
  match obj a with
  | some o => schliessbar o
  | none => []

/-! ## 2. The functions -/

/-- `cmd_open (name, modes, file)` (streams.c 1086-1137). A fresh object is pushed on the chain,
    or the given one is closed if bound and closable; either is reset (`car = V_File` clears
    `LFF_DONT_CLOSE`); with two strings `fopen` is called, `gelingt` being the system's answer:
    the object is bound to the next handle, or `file-error` is signalled (`none`). -/
def cmdOpen (d : Dateien) (name modes : Wert) (file : Option Nat) (gelingt : Bool) :
    Dateien × Option Nat :=
  let (lf, d) : Nat × Dateien := match file with
    | none => (d.naechstes, { d with naechstes := d.naechstes + 1, kette := d.naechstes :: d.kette })
    | some f => (f, match d.objekte f with
        | some o => { d with geschlossen := d.geschlossen ++ schliessbar o }
        | none => d)
  let leer : LispFile := ⟨none, none, false, false⟩
  match name, modes with
  | .str _, .str _ =>
    if gelingt then
      ({ d with
          objekte := Function.update d.objekte lf
            (some ⟨some name, some (.geoeffnet d.naechsterHandle), false, false⟩)
          naechsterHandle := d.naechsterHandle + 1 }, some lf)
    else ({ d with objekte := Function.update d.objekte lf (some leer) }, none)
  | _, _ => ({ d with objekte := Function.update d.objekte lf (some leer) }, some lf)

/-- `cmd_close (file)` (streams.c 1139-1154): closes the handle if bound and closable, then
    unbinds; `LFF_DONT_CLOSE` stays. -/
def cmdClose (d : Dateien) (f : Nat) : Dateien :=
  match d.objekte f with
  | some o =>
    { d with
      geschlossen := d.geschlossen ++ schliessbar o
      objekte := Function.update d.objekte f (some { o with name := none, file := none }) }
  | none => d

/-- The three singletons (streams.c 1264-1325): the object kept in the static, or on the first
    call an unbound `cmd_open (nil, nil, nil)` given `name`, the process's handle `h` and
    `LFF_DONT_CLOSE`, then pinned. -/
def standardFile (s : Standard) (name : Wert) (h : Handle) (d : Dateien) : Dateien × Nat :=
  match d.statik s with
  | some a => (d, a)
  | none =>
    let a := d.naechstes
    let d := (cmdOpen d Wert.nil Wert.nil none false).1
    ({ d with
        objekte := Function.update d.objekte a (some ⟨some name, some h, true, false⟩)
        statik := Function.update d.statik s (some a) }, a)

/-- `stdin-file`. -/
def cmdStdinFile (name : Wert) : Dateien → Dateien × Nat := standardFile .ein name .stdin

/-- `stdout-file`. -/
def cmdStdoutFile (name : Wert) : Dateien → Dateien × Nat := standardFile .aus name .stdout

/-- `stderr-file`. -/
def cmdStderrFile (name : Wert) : Dateien → Dateien × Nat := standardFile .fehler name .stderr

/-- The collector's mark phase, as far as file objects go: the objects `m` reaches are marked. -/
def markieren (m : Nat → Bool) (d : Dateien) : Dateien :=
  { d with objekte := fun a => (d.objekte a).map fun o => { o with markiert := m a } }

/-- The loop of `file_sweep` over the old chain: an unmarked object is closed if bound and
    closable, then freed; a marked one is unmarked and pushed on the new chain. -/
def sweepSchleife : List Nat → Dateien → Dateien
  | [], d => d
  | lf :: rest, d => sweepSchleife rest (match d.objekte lf with
    | some o =>
      if o.markiert then
        { d with
          objekte := Function.update d.objekte lf (some { o with markiert := false })
          kette := lf :: d.kette }
      else
        { d with
          geschlossen := d.geschlossen ++ schliessbar o
          objekte := Function.update d.objekte lf none }
    | none => d)

/-- `file_sweep ()` (streams.c 1036-1060). -/
def fileSweep (d : Dateien) : Dateien := sweepSchleife d.kette { d with kette := [] }

/-- The loop of `streams_kill` over the chain: every object closed if bound and closable, then
    freed. -/
def killSchleife : List Nat → Dateien → Dateien
  | [], d => d
  | lf :: rest, d => killSchleife rest (match d.objekte lf with
    | some o =>
      { d with
        geschlossen := d.geschlossen ++ schliessbar o
        objekte := Function.update d.objekte lf none }
    | none => d)

/-- `streams_kill ()` (streams.c 1356-1369). -/
def streamsKill (d : Dateien) : Dateien := { killSchleife d.kette d with kette := [] }

/-! ## 3. The invariant -/

/-- The handles held by objects of the chain that a closing path would close. -/
def gehalten (d : Dateien) : List (Option Handle) := d.kette.flatMap (beitrag d.objekte)

/-- The handles still held, then those already passed to `fclose`. -/
def bestand (d : Dateien) : List (Option Handle) := gehalten d ++ d.geschlossen

/-- The first `n` handles `fopen` returned. -/
def geoeffnet (n : Nat) : List (Option Handle) := (List.range n).map fun k => some (.geoeffnet k)

/-- **The invariant of the file objects**: the chain is the live objects, each once, all below
    the next fresh address and unmarked between collections; and the handles still held by
    bound closable objects, with those already closed, are the handles `fopen` returned, each
    exactly once. The pinned singletons are live. -/
structure DateiInv (d : Dateien) : Prop where
  kette_nodup : d.kette.Nodup
  kette_lebt : ∀ a, a ∈ d.kette ↔ (d.objekte a).isSome
  frisch : ∀ a, (d.objekte a).isSome → a < d.naechstes
  unmarkiert : ∀ a o, d.objekte a = some o → o.markiert = false
  handles : (bestand d).Perm (geoeffnet d.naechsterHandle)
  statik_lebt : ∀ s a, d.statik s = some a → (d.objekte a).isSome

theorem dateien_leer_inv : DateiInv Dateien.leer :=
  ⟨List.nodup_nil, by simp [Dateien.leer], by simp [Dateien.leer], by simp [Dateien.leer],
    by simp [bestand, gehalten, Dateien.leer, geoeffnet], by simp [Dateien.leer]⟩

variable {d : Dateien} {a : Nat} {o : LispFile}

theorem beitrag_update_ne {obj : Nat → Option LispFile} {b : Nat} (x : Option LispFile)
    (h : b ≠ a) : beitrag (Function.update obj a x) b = beitrag obj b := by
  simp [beitrag, Function.update_noteq h]

theorem flatMap_beitrag_update {l : List Nat} {obj : Nat → Option LispFile} (ha : a ∉ l)
    (x : Option LispFile) :
    l.flatMap (beitrag (Function.update obj a x)) = l.flatMap (beitrag obj) :=
  List.flatMap_congr fun _ hb => beitrag_update_ne x (fun e => ha (e ▸ hb))

/-- **Replacing one object of the chain** replaces its share of the held handles. -/
theorem flatMap_beitrag_ersetzen {l : List Nat} {obj : Nat → Option LispFile} (hnd : l.Nodup)
    (ha : a ∈ l) (o' : LispFile) :
    (l.flatMap (beitrag (Function.update obj a (some o')))).Perm
      (schliessbar o' ++ (l.erase a).flatMap (beitrag obj)) := by
  have hp := (List.perm_cons_erase ha).flatMap_right (beitrag (Function.update obj a (some o')))
  rw [List.flatMap_cons, flatMap_beitrag_update (hnd.not_mem_erase)] at hp
  simpa [beitrag] using hp

theorem flatMap_beitrag_zerlegen {l : List Nat} {obj : Nat → Option LispFile} (ha : a ∈ l)
    (h : obj a = some o) :
    (l.flatMap (beitrag obj)).Perm (schliessbar o ++ (l.erase a).flatMap (beitrag obj)) := by
  have hp := (List.perm_cons_erase ha).flatMap_right (beitrag obj)
  rwa [List.flatMap_cons, beitrag, h] at hp

theorem perm_umstellen {α : Type} {x y r log : List α} :
    (y ++ r ++ (log ++ x)).Perm (y ++ (x ++ r ++ log)) := by
  simp only [List.append_assoc]
  exact List.Perm.append_left y (by rw [← List.append_assoc]; exact List.perm_append_comm)

theorem update_isSome {obj : Nat → Option LispFile} {b : Nat} (x : LispFile) :
    (Function.update obj a (some x) b).isSome ↔ b = a ∨ (obj b).isSome := by
  by_cases e : b = a
  · subst e; simp
  · simp [Function.update_noteq e, e]

/-- **A live object replaced by `o'`, its closable handle closed**: the invariant holds again
    once the handles counted as opened account for the new object's closable handle. -/
theorem DateiInv.ersetzen (h : DateiInv d) (ha : d.objekte a = some o) (o' : LispFile)
    (hm : o'.markiert = false) {N : Nat}
    (hx : (schliessbar o' ++ geoeffnet d.naechsterHandle).Perm (geoeffnet N)) :
    DateiInv { d with
      geschlossen := d.geschlossen ++ schliessbar o
      objekte := Function.update d.objekte a (some o')
      naechsterHandle := N } := by
  have hin : a ∈ d.kette := (h.kette_lebt a).2 (by simp [ha])
  refine ⟨h.kette_nodup, fun b => ?_, fun b hb => ?_, fun b o'' hb => ?_, ?_, fun s b hb => ?_⟩
  · rw [update_isSome, ← h.kette_lebt b]
    exact ⟨Or.inr, fun e => e.elim (· ▸ hin) id⟩
  · rcases (update_isSome o').1 hb with rfl | hb
    · exact h.frisch b (by simp [ha])
    · exact h.frisch b hb
  · by_cases e : b = a
    · subst e; simp at hb; exact hb ▸ hm
    · exact h.unmarkiert b o'' (by simpa [Function.update_noteq e] using hb)
  · simp only [bestand, gehalten]
    refine ((flatMap_beitrag_ersetzen h.kette_nodup hin o').append_right _).trans ?_
    refine perm_umstellen.trans ?_
    refine (List.Perm.append_left _ ((flatMap_beitrag_zerlegen hin ha).symm.append_right _)).trans ?_
    exact (h.handles.append_left _).trans hx
  · exact (update_isSome o').2 (.inr (h.statik_lebt s b hb))

/-- **A fresh object at the next free address**, pushed on the chain: the invariant holds again
    once the handles counted as opened account for its closable handle. -/
theorem DateiInv.neu (h : DateiInv d) (o' : LispFile) (hm : o'.markiert = false) {N : Nat}
    (hx : (schliessbar o' ++ geoeffnet d.naechsterHandle).Perm (geoeffnet N)) :
    DateiInv { d with
      naechstes := d.naechstes + 1
      kette := d.naechstes :: d.kette
      objekte := Function.update d.objekte d.naechstes (some o')
      naechsterHandle := N } := by
  have hfr : d.naechstes ∉ d.kette := fun hm' => by
    have := h.frisch _ ((h.kette_lebt _).1 hm'); omega
  refine ⟨List.nodup_cons.2 ⟨hfr, h.kette_nodup⟩, fun b => ?_, fun b hb => ?_, fun b o'' hb => ?_,
    ?_, fun s b hb => ?_⟩
  · rw [update_isSome, ← h.kette_lebt b, List.mem_cons]
  · rcases (update_isSome o').1 hb with rfl | hb
    · exact Nat.lt_succ_self _
    · exact Nat.lt_succ_of_lt (h.frisch b hb)
  · by_cases e : b = d.naechstes
    · subst e; simp at hb; exact hb ▸ hm
    · exact h.unmarkiert b o'' (by simpa [Function.update_noteq e] using hb)
  · simp only [bestand, gehalten, List.flatMap_cons, flatMap_beitrag_update hfr]
    have e : beitrag (Function.update d.objekte d.naechstes (some o')) d.naechstes =
        schliessbar o' := by simp [beitrag]
    rw [e, List.append_assoc]
    exact (h.handles.append_left _).trans hx
  · exact (update_isSome o').2 (.inr (h.statik_lebt s b hb))

/-- Pinning a live object in a static keeps the invariant. -/
theorem DateiInv.statik_setzen (h : DateiInv d) (s : Standard) (ha : (d.objekte a).isSome) :
    DateiInv { d with statik := Function.update d.statik s (some a) } := by
  refine ⟨h.kette_nodup, h.kette_lebt, h.frisch, h.unmarkiert, h.handles, fun s' b hb => ?_⟩
  by_cases e : s' = s
  · subst e; simp at hb; exact hb ▸ ha
  · exact h.statik_lebt s' b (by simpa [Function.update_noteq e] using hb)

theorem geoeffnet_succ (n : Nat) :
    geoeffnet (n + 1) = geoeffnet n ++ [some (.geoeffnet n)] := by
  simp [geoeffnet, List.range_succ]

/-- An object holding no closable handle adds nothing to the stock. -/
theorem geoeffnet_ohne {o' : LispFile} (n : Nat) (h : schliessbar o' = []) :
    (schliessbar o' ++ geoeffnet n).Perm (geoeffnet n) := by
  rw [h]; rfl

/-- A successful `fopen` adds the next handle to the stock. -/
theorem geoeffnet_bindung (name : Wert) (N : Nat) :
    (schliessbar ⟨some name, some (.geoeffnet N), false, false⟩ ++ geoeffnet N).Perm
      (geoeffnet (N + 1)) := by
  rw [geoeffnet_succ]
  simpa [schliessbar] using (List.perm_append_singleton _ _).symm

/-- **`cmd_close` keeps the invariant**: what it closes leaves the held handles. -/
theorem cmdClose_inv (h : DateiInv d) {f : Nat} (hf : (d.objekte f).isSome) :
    DateiInv (cmdClose d f) := by
  obtain ⟨o, ho⟩ := Option.isSome_iff_exists.1 hf
  simp only [cmdClose, ho]
  exact h.ersetzen ho { o with name := none, file := none } (h.unmarkiert f o ho)
    (geoeffnet_ohne _ (by simp [schliessbar]))

/-- **`cmd_open` keeps the invariant**, on a fresh object or a live one it reuses, whether
    `fopen` succeeds or fails. -/
theorem cmdOpen_inv (h : DateiInv d) (name modes : Wert) (file : Option Nat) (g : Bool)
    (hf : ∀ f, file = some f → (d.objekte f).isSome) :
    DateiInv (cmdOpen d name modes file g).1 := by
  have leer : (schliessbar ⟨none, none, false, false⟩ ++ geoeffnet d.naechsterHandle).Perm
      (geoeffnet d.naechsterHandle) := geoeffnet_ohne _ rfl
  cases file with
  | none =>
    simp only [cmdOpen]
    split
    · cases g
      · exact h.neu _ rfl leer
      · exact h.neu _ rfl (geoeffnet_bindung _ _)
    · exact h.neu _ rfl leer
  | some f =>
    obtain ⟨o, ho⟩ := Option.isSome_iff_exists.1 (hf f rfl)
    simp only [cmdOpen, ho]
    split
    · cases g
      · exact h.ersetzen ho _ rfl leer
      · exact h.ersetzen ho _ rfl (geoeffnet_bindung _ _)
    · exact h.ersetzen ho _ rfl leer

/-- **The singletons keep the invariant**: the first call adds an object whose handle is never
    closable, and pins it. -/
theorem standardFile_inv (h : DateiInv d) (s : Standard) (name : Wert) (hd : Handle) :
    DateiInv (standardFile s name hd d).1 := by
  unfold standardFile
  split
  · exact h
  · simp only [cmdOpen, Wert.nil, Function.update_idem]
    exact (h.neu ⟨some name, some hd, true, false⟩ rfl
      (geoeffnet_ohne _ (by simp [schliessbar]))).statik_setzen s (by simp)

/-! ## 4. Collection and shutdown -/

@[simp] theorem schliessbar_markiert (o : LispFile) (b : Bool) :
    schliessbar { o with markiert := b } = schliessbar o := rfl

theorem beitrag_markieren (m : Nat → Bool) (obj : Nat → Option LispFile) :
    beitrag (fun a => (obj a).map fun o => { o with markiert := m a }) = beitrag obj := by
  funext a
  cases h : obj a <;> simp [beitrag, h]

theorem beitrag_unmarkieren {obj : Nat → Option LispFile} (h : obj a = some o) :
    beitrag (Function.update obj a (some { o with markiert := false })) = beitrag obj := by
  funext b
  by_cases e : b = a
  · subst e; simp [beitrag, h]
  · exact beitrag_update_ne _ e

/-- Whether the object at `a` exists and carries the collector's mark. -/
def markiertIn (obj : Nat → Option LispFile) (a : Nat) : Bool := (obj a).any (·.markiert)

/-- **The sweep loop in closed form**, over a part `rest` of the old chain without repeats: the
    marked objects of `rest` are unmarked and pushed on the new chain in reverse order, the
    others freed, and their closable handles closed in chain order. -/
theorem sweepSchleife_eq (rest : List Nat) (d : Dateien) (hnd : rest.Nodup) :
    sweepSchleife rest d = { d with
      objekte := fun a => if a ∈ rest then
          (if markiertIn d.objekte a then (d.objekte a).map fun o => { o with markiert := false }
            else none)
        else d.objekte a
      kette := (rest.filter (markiertIn d.objekte)).reverse ++ d.kette
      geschlossen := d.geschlossen ++
        (rest.filter fun a => !markiertIn d.objekte a).flatMap (beitrag d.objekte) } := by
  induction rest generalizing d with
  | nil => cases d; simp [sweepSchleife]
  | cons lf rest ih =>
    obtain ⟨hr, hnd'⟩ := List.nodup_cons.1 hnd
    have gleich : ∀ x, ∀ a ∈ rest, Function.update d.objekte lf x a = d.objekte a :=
      fun x a ha => Function.update_noteq (ne_of_mem_of_not_mem ha hr) x d.objekte
    have hm : ∀ x, rest.filter (markiertIn (Function.update d.objekte lf x)) =
        rest.filter (markiertIn d.objekte) :=
      fun x => List.filter_congr fun a ha => by simp only [markiertIn, gleich x a ha]
    have hn : ∀ x, (rest.filter fun a => !markiertIn (Function.update d.objekte lf x) a) =
        rest.filter fun a => !markiertIn d.objekte a :=
      fun x => List.filter_congr fun a ha => by simp only [markiertIn, gleich x a ha]
    have hb : ∀ x, (rest.filter fun a => !markiertIn d.objekte a).flatMap
        (beitrag (Function.update d.objekte lf x)) =
        (rest.filter fun a => !markiertIn d.objekte a).flatMap (beitrag d.objekte) :=
      fun x => flatMap_beitrag_update (fun h => hr (List.mem_of_mem_filter h)) x
    cases ho : d.objekte lf with
    | none =>
      simp only [sweepSchleife, ho]
      rw [ih _ hnd']
      congr 1
      · funext a
        by_cases ea : a = lf
        · subst ea; simp [hr, markiertIn, ho]
        · simp [ea]
      · simp [markiertIn, ho]
      · simp [markiertIn, ho, beitrag]
    | some o =>
      -- the marked and the unmarked object: the same three fields to compare
      cases hmo : o.markiert <;>
      · simp only [sweepSchleife, ho, hmo, Bool.false_eq_true, if_false, if_true]
        rw [ih _ hnd']
        simp only [hm, hn, hb]
        congr 1
        · funext a
          by_cases ea : a = lf
          · subst ea; simp [hr, markiertIn, ho, hmo]
          · simp [ea, Function.update_noteq ea, markiertIn]
        · simp [markiertIn, ho, hmo]
        · simp [markiertIn, ho, hmo, beitrag]

theorem markiertIn_markieren (h : DateiInv d) (m : Nat → Bool) (ha : a ∈ d.kette) :
    markiertIn (fun b => (d.objekte b).map fun o => { o with markiert := m b }) a = m a := by
  obtain ⟨o, ho⟩ := Option.isSome_iff_exists.1 ((h.kette_lebt a).1 ha)
  simp [markiertIn, ho]

theorem markiert_loeschen (hm : o.markiert = false) (b : Bool) :
    { { o with markiert := b } with markiert := false } = o := by
  cases o; cases hm; rfl

/-- **`file_sweep` after the marking `m`**: each marked live object is kept as it was before the
    mark, the chain is exactly those (in reverse order), and every other object is freed, its
    closable handle closed in chain order. -/
theorem fileSweep_eq (h : DateiInv d) (m : Nat → Bool) :
    fileSweep (markieren m d) = { d with
      objekte := fun a => if m a then d.objekte a else none
      kette := (d.kette.filter m).reverse
      geschlossen := d.geschlossen ++
        (d.kette.filter fun a => !m a).flatMap (beitrag d.objekte) } := by
  rw [fileSweep, sweepSchleife_eq (markieren m d).kette _ h.kette_nodup]
  simp only [markieren]
  have hf : ∀ a ∈ d.kette, markiertIn (fun b => (d.objekte b).map fun o =>
      { o with markiert := m b }) a = m a := fun a ha => markiertIn_markieren h m ha
  congr 1
  · funext a
    by_cases ha : a ∈ d.kette
    · obtain ⟨o, ho⟩ := Option.isSome_iff_exists.1 ((h.kette_lebt a).1 ha)
      simp [ha, hf a ha, ho, markiert_loeschen (h.unmarkiert a o ho)]
    · have hn : d.objekte a = none := by simpa [h.kette_lebt a] using ha
      simp [ha, hn]
  · rw [List.filter_congr hf, List.append_nil]
  · rw [List.filter_congr fun a ha => congrArg (!·) (hf a ha), beitrag_markieren]

/-- The closable handles of the objects a sweep keeps are those they held before. -/
theorem flatMap_beitrag_behalten (m : Nat → Bool) (l : List Nat) (hl : ∀ a ∈ l, m a = true) :
    l.flatMap (beitrag fun a => if m a then d.objekte a else none) = l.flatMap (beitrag d.objekte) :=
  List.flatMap_congr fun a ha => by simp [beitrag, hl a ha]

/-- **The sweep keeps the invariant** when the mark reaches the pinned singletons: the handles
    of the freed objects move from the held ones to the closed ones. -/
theorem fileSweep_inv (h : DateiInv d) (m : Nat → Bool) (hs : ∀ s a, d.statik s = some a → m a = true) :
    DateiInv (fileSweep (markieren m d)) := by
  rw [fileSweep_eq h m]
  refine ⟨List.nodup_reverse.2 (h.kette_nodup.filter _), fun a => ?_, fun a ha => ?_,
    fun a o ha => ?_, ?_, fun s a ha => ?_⟩
  · cases hm : m a <;> simp [hm, h.kette_lebt a]
  · exact h.frisch a (by cases hm : m a <;> simp_all)
  · exact h.unmarkiert a o (by cases hm : m a <;> simp_all)
  · simp only [bestand, gehalten]
    rw [flatMap_beitrag_behalten m _ fun a ha => (List.mem_filter.1 (List.mem_reverse.1 ha)).2]
    refine List.Perm.trans ?_ h.handles
    calc List.Perm _ ((d.kette.filter m).flatMap (beitrag d.objekte) ++
            ((d.kette.filter fun a => !m a).flatMap (beitrag d.objekte) ++ d.geschlossen)) :=
          ((List.reverse_perm _).flatMap_right _).append List.perm_append_comm
      _ = (d.kette.filter m ++ d.kette.filter fun a => !m a).flatMap (beitrag d.objekte) ++
            d.geschlossen := by rw [List.flatMap_append, List.append_assoc]
      List.Perm _ _ := ((List.filter_append_perm m d.kette).flatMap_right _).append_right _
  · show (if m a then d.objekte a else none).isSome
    simpa [hs s a ha] using h.statik_lebt s a ha

/-- The loop of `streams_kill` frees exactly the objects of the part of the chain it walks. -/
theorem killSchleife_objekte (l : List Nat) (d : Dateien) (b : Nat) :
    (killSchleife l d).objekte b = if b ∈ l then none else d.objekte b := by
  induction l generalizing d with
  | nil => simp [killSchleife]
  | cons lf rest ih =>
    simp only [killSchleife]
    split
    · rw [ih]
      by_cases e : b = lf
      · subst e; simp
      · simp [e, Function.update_noteq e]
    · rename_i ho
      rw [ih]
      by_cases e : b = lf
      · simp [e, ho]
      · simp [e]

/-- **`streams_kill` frees every file object**, given the invariant: the chain holds every live
    object, so none is left. -/
theorem streamsKill_frei (h : DateiInv d) (b : Nat) : (streamsKill d).objekte b = none := by
  simp only [streamsKill, killSchleife_objekte]
  split
  · rfl
  · rename_i hb
    simpa [h.kette_lebt b] using hb

/-! ## 5. Runs -/

/-- The operations on file objects between start and `streams_kill`: `open`, `close`, the three
    singletons (with the static string naming them), and a collection whose mark phase reaches
    the objects `m` holds true. -/
inductive DateiOp
  | oeffnen (name modes : Wert) (file : Option Nat) (gelingt : Bool)
  | schliessen (f : Nat)
  | standard (s : Standard) (name : Wert)
  | gc (m : Nat → Bool)

/-- One operation. -/
def dateiSchritt (d : Dateien) : DateiOp → Dateien
  | .oeffnen name modes file g => (cmdOpen d name modes file g).1
  | .schliessen f => cmdClose d f
  | .standard .ein name => (cmdStdinFile name d).1
  | .standard .aus name => (cmdStdoutFile name d).1
  | .standard .fehler name => (cmdStderrFile name d).1
  | .gc m => fileSweep (markieren m d)

/-- What the rest of the system guarantees: a file object given to `open` or `close` is live
    (`FILEP` of a value the collector has kept), and the mark phase marks the pinned singletons
    (`mark_static`). -/
def Erlaubt (d : Dateien) : DateiOp → Prop
  | .oeffnen _ _ file _ => ∀ f, file = some f → (d.objekte f).isSome
  | .schliessen f => (d.objekte f).isSome
  | .standard _ _ => True
  | .gc m => ∀ s a, d.statik s = some a → m a = true

/-- The states reachable from the start by allowed operations. -/
inductive Erreichbar : Dateien → Prop
  | start : Erreichbar Dateien.leer
  | schritt {d : Dateien} (op : DateiOp) : Erreichbar d → Erlaubt d op →
      Erreichbar (dateiSchritt d op)

theorem dateiSchritt_inv (h : DateiInv d) (op : DateiOp) (he : Erlaubt d op) :
    DateiInv (dateiSchritt d op) := by
  cases op with
  | oeffnen name modes file g => exact cmdOpen_inv h name modes file g he
  | schliessen f => exact cmdClose_inv h he
  | standard s name => cases s <;> exact standardFile_inv h _ name _
  | gc m => exact fileSweep_inv h m he

theorem erreichbar_inv (hr : Erreichbar d) : DateiInv d := by
  induction hr with
  | start => exact dateien_leer_inv
  | schritt op _ he ih => exact dateiSchritt_inv ih op he

theorem geoeffnet_nodup (n : Nat) : (geoeffnet n).Nodup :=
  (List.nodup_range n).map fun _ _ e => by simpa using e

theorem mem_geoeffnet {x : Option Handle} {n : Nat} :
    x ∈ geoeffnet n ↔ ∃ k < n, x = some (.geoeffnet k) := by
  simp [geoeffnet, eq_comm]

/-- The process's own streams, which `LFF_DONT_CLOSE` keeps from `fclose`. -/
def Handle.standard : Handle → Bool
  | .geoeffnet _ => false
  | _ => true

/-- The guard before every stdio call on a file object's handle, `if (VFILE (file)->name)`: in
    the file branches of `stream_getc` (`getc`), `stream_putc` (`putc`), `stream_puts` (`fwrite`)
    and `read-line` (`fgets`), and in `flush-file` (`fflush`), `file-eof-p` (`feof`) and
    `read-file-until` (`fgets`). The `FILE *` the call is made on, `none` where the guard skips
    the call. -/
def stdioHandle (o : LispFile) : Option (Option Handle) :=
  if o.name.isSome then some o.file else none

@[simp] theorem stdioHandle_eq_some {x : Option Handle} :
    stdioHandle o = some x ↔ o.name.isSome = true ∧ o.file = x := by
  unfold stdioHandle; split <;> simp_all

/-- A bound object that `LFF_DONT_CLOSE` protects holds one of the process's standard handles. -/
def LispFile.Geschuetzt (o : LispFile) : Prop :=
  o.dontClose = true → o.name.isSome = true → o.file.any Handle.standard = true

/-- Every live object is `Geschuetzt`. -/
def AlleGeschuetzt (obj : Nat → Option LispFile) : Prop :=
  ∀ a o, obj a = some o → o.Geschuetzt

theorem AlleGeschuetzt.update {obj : Nat → Option LispFile} (h : AlleGeschuetzt obj)
    {x : Option LispFile} (hx : ∀ o, x = some o → o.Geschuetzt) :
    AlleGeschuetzt (Function.update obj a x) := by
  intro b o hb
  by_cases e : b = a
  · subst e; exact hx o (by simpa using hb)
  · exact h b o (by simpa [Function.update_noteq e] using hb)

/-- An object `cmd_open` has reset (`car = V_File`) is not protected. -/
theorem geschuetzt_offen {o : LispFile} (hd : o.dontClose = false) : o.Geschuetzt :=
  fun h => absurd (hd ▸ h) Bool.false_ne_true

/-- An unbound object holds nothing stdio could be called on. -/
theorem geschuetzt_ungebunden {o : LispFile} (hn : o.name = none) : o.Geschuetzt :=
  fun _ h => by simp [hn] at h

theorem AlleGeschuetzt.offen {obj : Nat → Option LispFile} (h : AlleGeschuetzt obj) {o : LispFile}
    (hd : o.dontClose = false) : AlleGeschuetzt (Function.update obj a (some o)) :=
  h.update fun _ e => by cases e; exact geschuetzt_offen hd

theorem cmdOpen_geschuetzt (h : AlleGeschuetzt d.objekte) (name modes : Wert)
    (file : Option Nat) (g : Bool) : AlleGeschuetzt (cmdOpen d name modes file g).1.objekte := by
  cases file with
  | none =>
    simp only [cmdOpen]
    split
    · cases g <;> exact h.offen rfl
    · exact h.offen rfl
  | some f =>
    cases ho : d.objekte f <;> simp only [cmdOpen, ho] <;> split <;> (try cases g) <;>
      exact h.offen rfl

theorem cmdClose_geschuetzt (h : AlleGeschuetzt d.objekte) (f : Nat) :
    AlleGeschuetzt (cmdClose d f).objekte := by
  unfold cmdClose
  split
  · exact h.update fun _ e => by cases e; exact geschuetzt_ungebunden rfl
  · exact h

theorem standardFile_geschuetzt (h : AlleGeschuetzt d.objekte) (s : Standard) (name : Wert)
    {hd : Handle} (hs : hd.standard = true) :
    AlleGeschuetzt (standardFile s name hd d).1.objekte := by
  unfold standardFile
  split
  · exact h
  · refine (cmdOpen_geschuetzt h _ _ _ _).update fun _ e => ?_
    cases e
    exact fun _ _ => hs

theorem fileSweep_geschuetzt (hi : DateiInv d) (h : AlleGeschuetzt d.objekte) (m : Nat → Bool) :
    AlleGeschuetzt (fileSweep (markieren m d)).objekte := by
  rw [fileSweep_eq hi m]
  intro a o ha
  cases hm : m a <;> simp only [hm, if_true, if_false, Bool.false_eq_true] at ha
  · cases ha
  · exact h a o ha

theorem dateiSchritt_geschuetzt (hi : DateiInv d) (h : AlleGeschuetzt d.objekte) (op : DateiOp) :
    AlleGeschuetzt (dateiSchritt d op).objekte := by
  cases op with
  | oeffnen name modes file g => exact cmdOpen_geschuetzt h name modes file g
  | schliessen f => exact cmdClose_geschuetzt h f
  | standard s name => cases s <;> exact standardFile_geschuetzt h _ name rfl
  | gc m => exact fileSweep_geschuetzt hi h m

theorem erreichbar_geschuetzt (hr : Erreichbar d) : AlleGeschuetzt d.objekte := by
  induction hr with
  | start => exact fun _ _ e => nomatch e
  | schritt op hr _ ih => exact dateiSchritt_geschuetzt (erreichbar_inv hr) ih op

/-- A handle `fclose` has been given is one `fopen` returned, never a standard one. -/
theorem geschlossen_nicht_standard (h : DateiInv d) {hd : Handle} (hs : hd.standard = true) :
    some hd ∉ d.geschlossen := fun hc => by
  obtain ⟨k, -, e⟩ := mem_geoeffnet.1 (h.handles.subset (List.mem_append_right _ hc))
  cases e
  exact absurd hs Bool.false_ne_true

/-- **No stdio call on a closed or missing handle.** In every reachable state, a stdio call the
    stream code makes on a live file object goes to a handle that is not `NULL` and has not been
    passed to `fclose`: one of the process's standard handles, or one `fopen` returned. -/
theorem stdio_offen (hr : Erreichbar d) (ha : d.objekte a = some o) {x : Option Handle}
    (hx : stdioHandle o = some x) :
    ∃ hd, x = some hd ∧ x ∉ d.geschlossen ∧
      (hd.standard = true ∨ ∃ k < d.naechsterHandle, hd = .geoeffnet k) := by
  have hi := erreichbar_inv hr
  obtain ⟨hn, rfl⟩ := stdioHandle_eq_some.1 hx
  cases hd : o.dontClose
  · -- a closable handle is held by its object, so not among the closed ones
    have hg : o.file ∈ gehalten d := List.mem_flatMap.2
      ⟨a, (hi.kette_lebt a).2 (by simp [ha]), by simp [beitrag, ha, schliessbar, hn, hd]⟩
    have hnd : (bestand d).Nodup := hi.handles.nodup_iff.2 (geoeffnet_nodup _)
    obtain ⟨k, hk, e⟩ := mem_geoeffnet.1 (hi.handles.subset (List.mem_append_left _ hg))
    exact ⟨_, e, fun hc => List.disjoint_of_nodup_append hnd hg hc, .inr ⟨k, hk, rfl⟩⟩
  · -- a protected handle is a standard one, which is never closed
    have hs := erreichbar_geschuetzt hr a o ha hd hn
    cases e : o.file with
    | none => simp [e] at hs
    | some h' =>
      rw [e] at hs
      exact ⟨h', rfl, geschlossen_nicht_standard hi hs, .inl hs⟩

/-- A string to open. -/
def dateiname : Wert := .str ⟨0, [0], 0, true⟩

/-- The state after one successful `open` of a fresh object. -/
def einmalGeoeffnet : Dateien :=
  dateiSchritt Dateien.leer (.oeffnen dateiname dateiname none true)

theorem stdio_offen_einmal :
    Erreichbar einmalGeoeffnet ∧
      einmalGeoeffnet.objekte 0 = some ⟨some dateiname, some (.geoeffnet 0), false, false⟩ ∧
      stdioHandle ⟨some dateiname, some (.geoeffnet 0), false, false⟩ = some (some (.geoeffnet 0)) ∧
      ∃ hd, some (Handle.geoeffnet 0) = some hd ∧
        some (Handle.geoeffnet 0) ∉ einmalGeoeffnet.geschlossen ∧
        (hd.standard = true ∨ ∃ k < einmalGeoeffnet.naechsterHandle, hd = .geoeffnet k) :=
  have hr : Erreichbar einmalGeoeffnet := .schritt _ .start fun _ e => nomatch e
  ⟨hr, rfl, rfl, @stdio_offen einmalGeoeffnet 0 _ hr rfl _ rfl⟩

end JadeStroeme
