/-
`mininit`, `src/mininit/init.c`: the first process of the kernel.  It mounts what the
kernel command line asks for, switches to the new root and executes `init` with the
words of the command line as arguments.

The buffer `cbuf` with the command line is part of the state, because it is cut in place
twice: `_mkparam` ends every word with `'\0'`, and `_multimount` ends each piece of a
comma separated list while it tries to mount it.  A pointer into it is an offset.

Every system call is logged with its outcome; the outcome is `ok n` for the `n`-th call
of the run.  `_fatal` leaves the program.  The console messages and the pauses are left
out, as are the contents of the mounted file systems.
-/
import Dingoo.Lib.Buffers
import Dingoo.Lib.CString
import Dingoo.Lib.ExitRun

namespace Dingoo.Mininit

open Dingoo.Lib

abbrev Str := List Char

inductive OpenMode where
  | rdonly
  | rdwr
deriving DecidableEq, Repr

/-- The system calls.  `mkdir` counts as successful where the directory exists; a type
of `none` in `mount` is the one `fstype` guessed. -/
inductive Call where
  | mkdir (path : Str)
  | fstype (source : Option Str)
  | mount (source : Option Str) (target : Str) (type : Option Str) (flags : Nat)
      (data : Option Str)
  | umount (target : Str) (force : Bool)
  | open (path : Str) (mode : OpenMode)
  | read (path : Str)
  | losetup (loop file : Str)
  | access (path : Str) (mode : Nat)
  | chdir (path : Str)
  | chroot (path : Str)
  | dup2 (fd : Nat)
  | execv (path : Str) (argv : List Str)
deriving DecidableEq, Repr

structure State where
  cbuf : Str
  log : List (Call × Bool)
deriving DecidableEq, Repr

/-- A program that may exit with the text of `_fatal`. -/
abbrev M := EStateM Str State

def MS_RDONLY : Nat := 1
def MS_MOVE : Nat := 8192
def R_OK : Nat := 4
def X_OK : Nat := 1

/-- `isspace` on ASCII characters. -/
def isspace (c : Char) : Bool :=
  c = ' ' || c = '\t' || c = '\n' || c = '\x0b' || c = '\x0c' || c = '\r'

/-! ### Splitting the command line -/

/-- The loop of `_mkparam`: the buffer, `s`, and the pointers stored so far. -/
def mkparamLoop (maxparam : Nat) : Nat → Str → Nat → List Nat → Str × List Nat
  | 0, buf, _, paramv => (buf, paramv)
  | n + 1, buf, s, paramv =>
    let s := scan (fun c => c ≠ NUL && isspace c) buf s
    if readAt buf s = NUL then (buf, paramv)
    else
      let paramv := paramv ++ [s]
      if maxparam ≤ paramv.length then (buf, paramv)
      else
        let s := scan (fun c => c ≠ NUL && !isspace c) buf s
        if readAt buf s = NUL then (buf, paramv)
        else mkparamLoop maxparam n (buf.set s NUL) (s + 1) paramv

/-- `_mkparam`: the edited buffer and the pointers. -/
def mkparam (buf : Str) (maxparam : Nat) : Str × List Nat :=
  mkparamLoop maxparam (buf.length + 1) buf 0 []

/-- `buf` after `read` of `contents` and the cut at the end of the line. -/
def lineBuffer (buf contents : Str) (len : Nat) : Str :=
  let buf := splice buf 0 (contents.take (len - 1) ++ [NUL])
  let s := scan (fun c => c ≠ '\n' && c ≠ NUL) buf 0
  if readAt buf s = '\n' then buf.set s NUL else buf

/-! ### The system calls -/

variable (ok : Nat → Bool)

/-- One system call. -/
def sys (c : Call) : M Bool := fun s =>
  .ok (ok s.log.length) { s with log := s.log ++ [(c, ok s.log.length)] }

/-- A call whose failure is fatal where the caller says so. -/
def check (c : Call) (fatal : Bool) (msg : Str) : M Bool := do
  let r ← sys ok c
  if !r && fatal then throw msg else pure r

/-- The directories above `path`, `/a` and `/a/b` for `/a/b/c`. -/
def parents (path : Str) : List Str :=
  ((List.range path.length).filter fun i => 1 ≤ i && path.getD i NUL = '/').map path.take

/-- The loop of `_mkpath`. -/
def mkpath (fatal : Bool) : List Str → M Bool
  | [] => pure true
  | d :: ds => do
    if ← check ok (.mkdir d) fatal ("cannot create directory ".toList ++ d) then mkpath fatal ds
    else pure false

/-- `_mkdir`. -/
def mkdir (path : Str) (fatal : Bool) : M Bool := do
  if ← mkpath ok fatal (parents path) then
    check ok (.mkdir path) fatal ("cannot create directory ".toList ++ path)
  else pure false

/-- `printf` of a pointer to a string. -/
def shown (source : Option Str) : Str := source.getD "(null)".toList

/-- The guess of the type in `_mount`, not made for a move. -/
def guessType (source type : Option Str) (flags : Nat) (fatal : Bool) : M Bool :=
  if type.isNone && flags &&& MS_MOVE = 0 then
    check ok (.fstype source) fatal
      ("cannot not guess ".toList ++ shown source ++ " filesystem type".toList)
  else pure true

/-- `_mount`; `true` stands for a result that is not negative. -/
def mount (source : Option Str) (target : Str) (type : Option Str) (flags : Nat)
    (data : Option Str) (fatal : Bool) : M Bool := do
  if ← mkdir ok target fatal then
    if ← guessType ok source type flags fatal then
      check ok (.mount source target type flags data) fatal
        ("mounting ".toList ++ shown source ++ " on ".toList ++ target ++ " failed".toList)
    else pure false
  else pure false

/-- `_umount`. -/
def umount (target : Str) : M Bool := do
  if ← sys ok (.umount target false) then pure true else sys ok (.umount target true)

/-- The two `open`s of a file: with `mode`, and for reading if that fails. -/
def openEither (path : Str) (mode : OpenMode) : M (Option OpenMode) := do
  if ← sys ok (.open path mode) then pure (some mode)
  else if ← sys ok (.open path .rdonly) then pure (some .rdonly)
  else pure none

/-- `_losetup`. -/
def losetup (loop file : Str) (fatal : Bool) : M Bool := do
  match ← openEither ok file .rdwr with
  | none => if fatal then throw ("cannot open ".toList ++ file) else pure false
  | some mode =>
    match ← openEither ok loop mode with
    | none => if fatal then throw ("cannot open ".toList ++ loop) else pure false
    | some _ => check ok (.losetup loop file) fatal ("cannot setup loop device ".toList ++ loop)

/-- `_read_line` into `cbuf`. -/
def readLine (path contents : Str) (len : Nat) (fatal : Bool) : M Bool := do
  if ← check ok (.open path .rdonly) fatal ("cannot open ".toList ++ path) then
    if ← check ok (.read path) fatal ("cannot read ".toList ++ path) then
      modify fun s => { s with cbuf := lineBuffer s.cbuf contents len }
      pure true
    else pure false
  else pure false

/-- `*s = c`. -/
def write (s : Nat) (c : Char) : M Unit :=
  modify fun st => { st with cbuf := st.cbuf.set s c }

/-! ### Mounting one of several devices -/

section
variable (target : Str) (type : Option Str) (flags : Nat) (data : Option Str)

/-- `access(t, R_OK) >= 0 && _mount(t, …) >= 0`. -/
def tryPiece (path : Str) : M Bool := do
  if ← sys ok (.access path R_OK) then mount ok (some path) target type flags data false
  else pure false

/-- The inner loop of `_multimount`: the pieces from `s` on; `true` if one was mounted. -/
def multimountPieces : Nat → Nat → M Bool
  | 0, _ => pure false
  | n + 1, t => do
    let buf := (← get).cbuf
    let s := scan (fun c => c ≠ ',' && c ≠ NUL) buf t
    let c := readAt buf s
    write s NUL
    let mounted ← tryPiece ok target type flags data (cstr (buf.set s NUL) t)
    write s c
    if mounted then pure true
    else if c = ',' then multimountPieces n (s + 1)
    else pure false

/-- The outer loop of `_multimount`. -/
def multimountTries (source : Nat) : Nat → M Bool
  | 0 => pure false
  | tries + 1 => do
    let n := (← get).cbuf.length
    if ← multimountPieces ok target type flags data (n + 1) source then pure true
    else multimountTries source tries

/-- `_multimount`; `true` stands for the result 0. -/
def multimount (source retries : Nat) (fatal : Bool) : M Bool := do
  if ← multimountTries ok target type flags data source retries then pure true
  else
    let buf := (← get).cbuf
    if fatal then
      throw ("cannot mount ".toList ++ cstr buf source ++ " on ".toList ++ target ++ ['\n'])
    else pure false

end

/-! ### The main function -/

/-- `!strncmp(paramv[i], key, n)`, with `n` the length of `key`. -/
def hasKey (buf key : Str) (p : Nat) : Bool := key.isPrefixOf (cstr buf p)

/-- The `boot` parameter; `true` if there is one. -/
def bootParam (paramv : List Nat) : M Bool := do
  match paramv.find? (hasKey (← get).cbuf "boot=".toList) with
  | none => pure false
  | some p => do
    let _ ← multimount ok "/boot".toList none MS_RDONLY (some "utf8".toList) (p + 5) 20 true
    pure true

/-- One turn of the loop over the `loop` parameters. -/
def loopParam (p : Nat) : M Bool := do
  let buf := (← get).cbuf
  if hasKey buf "loop".toList p && readAt buf (p + 5) = '=' then
    losetup ok (cstr ("/dev/loop".toList ++ [readAt buf (p + 4)]) 0) (cstr buf (p + 6)) true
  else pure true

/-- The `loop` parameters. -/
def loopParams : List Nat → M Unit
  | [] => pure ()
  | p :: paramv => do
    let _ ← loopParam ok p
    loopParams paramv

/-- The `root` parameter. -/
def rootParam (paramv : List Nat) : M Bool := do
  match paramv.find? (hasKey (← get).cbuf "root=".toList) with
  | none => throw "root parameter not found".toList
  | some p => multimount ok "/root".toList none MS_RDONLY none (p + 5) 20 true

/-- The move of the boot mount. -/
def moveBoot (boot : Bool) : M Bool :=
  if boot then mount ok (some "/boot".toList) "/root/boot".toList none MS_MOVE none true
  else pure true

/-- The change to the new root. -/
def switchRoot : M Bool := do
  let _ ← check ok (.chdir "/root".toList) true "changing directory".toList
  let _ ← check ok (.open "./dev/console".toList .rdwr) true "opening console".toList
  let _ ← check ok (.dup2 0) true "duplicating console handle".toList
  let _ ← check ok (.dup2 1) true "duplicating console handle".toList
  let _ ← check ok (.dup2 2) true "duplicating console handle".toList
  let _ ← sys ok (.open "/".toList .rdonly)
  let _ ← umount ok "/sys".toList
  let _ ← umount ok "/proc".toList
  let _ ← mount ok (some ".".toList) "/".toList none MS_MOVE none true
  let _ ← check ok (.chroot ".".toList) true "chroot failed".toList
  check ok (.chdir "/".toList) true "chdir failed".toList

/-- `strcpy(sbuf, src)`; what does not fit into the 256 bytes is undefined and ends the
run here. -/
def strcpySbuf (src : Str) : M Str :=
  if src.length < 256 then pure src else throw "sbuf overrun".toList

/-- One turn of the loop over the `init` parameters; `sbuf` is what the buffer holds. -/
def initParam (sbuf : Str) (p : Nat) : M Str := do
  let buf := (← get).cbuf
  if hasKey buf "init=".toList p then strcpySbuf (cstr buf (p + 5)) else pure sbuf

/-- The `init` parameters. -/
def initParams : List Nat → Str → M Str
  | [], sbuf => pure sbuf
  | p :: paramv, sbuf => do
    let sbuf ← initParam sbuf p
    initParams paramv sbuf

def inits : List Str :=
  ["/sbin/init".toList, "/etc/init".toList, "/bin/init".toList, "/bin/sh".toList]

/-- The search for an executable `init`. -/
def locateInit : List Str → M Str
  | [] => throw "cannot locate init".toList
  | d :: ds => do
    if ← sys ok (.access d X_OK) then strcpySbuf d else locateInit ds

/-- The path of `init`. -/
def initPath (paramv : List Nat) : M Str := do
  let sbuf ← initParams paramv []
  if sbuf = [] then locateInit ok inits else pure sbuf

/-- `main` between the split of the command line and `execv`. -/
def prepare (paramv : List Nat) : M Str := do
  let boot ← bootParam ok paramv
  loopParams ok paramv
  let _ ← rootParam ok paramv
  let _ ← moveBoot ok boot
  let _ ← switchRoot ok
  initPath ok paramv

/-- `main` up to `execv`: the two arguments of the call. -/
def execArgs (contents : Str) : M (Str × List Str) := do
  let _ ← mount ok none "/proc".toList (some "proc".toList) 0 none true
  let _ ← mount ok none "/sys".toList (some "sysfs".toList) 0 none true
  let _ ← readLine ok "/proc/cmdline".toList contents 4096 true
  let paramv ← modifyGet fun s =>
    ((mkparam s.cbuf 62).2, { s with cbuf := (mkparam s.cbuf 62).1 })
  let path ← prepare ok paramv
  let s ← get
  pure (path, path :: paramv.map (cstr s.cbuf))

/-- `main`. -/
def main (contents : Str) : M Unit := do
  let args ← execArgs ok contents
  if ← sys ok (.execv args.1 args.2) then pure () else throw "exec or init failed".toList

end Dingoo.Mininit
