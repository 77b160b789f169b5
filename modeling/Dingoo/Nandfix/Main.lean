/-
`nandfix`, `src/nandfix/nandfix.c`: rewrites the spare areas of a dump of the eraseblock
of the second boot stage, from the layout of the kernel to the one the first stage
expects.

The file is the list of its bytes; opening it and failures of the I/O calls are left
out.  The result is what is printed and the file afterwards.
-/
import Dingoo.Lib.Buffers

namespace Dingoo.Nandfix

open Dingoo.Lib

/-- The spare area after `main` has moved the ECC and set the bytes around it. -/
def fixOob (oob : List UInt8) : List UInt8 :=
  let oob := memmove oob 6 28 36
  let oob := memset oob (6 + 36) 0xff (64 - 6 - 36)
  (((oob.set 2 0).set 3 0).set 4 0).set 5 0xff

/-- The two loops that recognise an erased page. -/
def isErased (buf : List UInt8) : Bool :=
  (buf.take 2048).all (· == 0xff) && (buf.drop 2048).all (· == 0xff)

/-- One turn of the loop: what is printed, and the file. -/
def fixPage (file : List UInt8) (i : Nat) : Char × List UInt8 :=
  let buf := piece file (2048 + 64) i
  if isErased buf then ('-', file)
  else
    let oob := fixOob (buf.drop 2048)
    (if oob.getD 0 0 ≠ 0xff ∨ oob.getD 1 0 ≠ 0xff then 'B' else 'F',
      splice file (i * (2048 + 64) + 2048) oob)

/-- The loop over the pages. -/
def fixPages (file : List UInt8) (pages : List Nat) : List Char × List UInt8 :=
  pages.foldl (fun acc i => (acc.1 ++ [(fixPage acc.2 i).1], (fixPage acc.2 i).2)) ([], file)

/-- `main` on a file that could be opened. -/
def main (file : List UInt8) : Except String (List Char × List UInt8) :=
  if file.length ≠ 128 * (2048 + 64) then
    .error "ERROR: file size MUST be 128 pages (2048 data + 64 OOB)\n"
  else
    let (out, file) := fixPages file (List.range 128)
    .ok ("Fixing: ".toList ++ out ++ ['\n'], file)

end Dingoo.Nandfix
