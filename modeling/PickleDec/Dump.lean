import PickleDec.Exec

/-!
# The pseudocode renderer of `dump.c`

`PrintInfo`, the output buffers, and the mutual recursion `dump_obj` →
`dump_list`/`dump_tuple`/`dump_dict` → `dump_iter`/`dump_iter_dict` → `dump_obj`,
`dump_obj` → `dump_what` → `prepend_obj`/`dump_oper` → `dump_obj`.

The recursion follows the object graph, which may be cyclic, and nothing in it
bounds the depth, so `dumpObj` takes fuel. A call either returns the C `bool` with
the printer it leaves, or halts: `Halt.fuel` when the model's fuel runs out, and
`Halt.null` where the code would dereference a `NULL` or freed pointer. Every other
function takes the call it makes to `dump_obj` as an argument.

What the renderer writes to the console (`r_cons_printf` in `printer_drain`) is the
string `Printer.cons`; variable names are cached on the objects, so the printer
carries the object heap. The opers are only read: they are a section variable, as is
`cstr`, the text `%s` makes of a `PyObj *` (`dump_func` passes the two `PyObj *` of a
`PY_FUNC` to `%s`; what that prints is the struct's bytes up to the first zero, which
depends on the layout in `pyobjutil.h`).
-/

set_option autoImplicit false

namespace PickleDec

/-- `PrintInfo`. `stack` is the switch `dump_machine` tests before it dumps the VM
    stack. -/
structure PrintInfo where
  out : Option String
  outstack : List (Option String)
  first : Bool
  ret : Bool
  varid : Nat
  verbose : Bool
  stack : Bool
  deriving DecidableEq, Repr

/-- Modelled from the spec: `print_info_init` is not in the sources. The spec's
    `PrintInfo` starts with no buffer, an empty `outstack`, `first` and `ret` clear,
    the name counter `varid` at zero and `verbose` from `anal.verbose`; the VM stack
    is dumped. -/
def printInfoInit (verbose : Bool) : PrintInfo :=
  { out := none, outstack := [], first := false, ret := false, varid := 0,
    verbose := verbose, stack := true }

/-- The renderer's state: `PrintInfo`, the console, and the objects (for `varname`). -/
structure Printer where
  nfo : PrintInfo
  cons : String
  objs : Store PyObj

/-- Why a call of the renderer does not return. -/
inductive Halt where
  | fuel
  | null
  deriving DecidableEq, Repr

/-! ## Text -/

/-- Lower-case hexadecimal, as `%llx` prints a 64-bit value. -/
def hex64 (n : Nat) : String := String.mk (Nat.toDigits 16 (n % 2 ^ 64))

/-- `%d` given the 64-bit `py_int`: the callee reads an `int`, the low 32 bits. -/
def cIntText (i : Int) : String := toString (Int.bmod i (2 ^ 32))

/-- Six digits, zero-padded on the left. -/
def pad6 (n : Nat) : String :=
  let s := toString n
  String.mk (List.replicate (6 - s.length) '0') ++ s

/-- `%lf` of the double with bit pattern `b`: the exact value rounded to six
    decimals, ties to even; `inf` and `nan` with their sign. -/
def lfText (b : UInt64) : String :=
  let sign := if b >>> 63 = 1 then "-" else ""
  let e := ((b >>> 52) &&& 0x7ff).toNat
  let m := (b &&& 0xfffffffffffff).toNat
  if e = 0x7ff then sign ++ (if m = 0 then "inf" else "nan")
  else
    let mant := if e = 0 then m else m + 2 ^ 52
    let scaled :=
      if 1075 ≤ e then mant * 2 ^ (e - 1075) * 10 ^ 6
      else
        let d := 2 ^ (1075 - max e 1)
        let q := mant * 10 ^ 6 / d
        let r := mant * 10 ^ 6 % d
        if d < 2 * r ∨ (2 * r = d ∧ q % 2 = 1) then q + 1 else q
    sign ++ toString (scaled / 10 ^ 6) ++ "." ++ pad6 (scaled % 10 ^ 6)

/-! ## Buffers -/

namespace Printer

/-- Set fields of `PrintInfo`. -/
def withNfo (p : Printer) (f : PrintInfo → PrintInfo) : Printer := { p with nfo := f p.nfo }

/-- `printer_append` (and `printer_appendf` with the text already formatted):
    `printer_getout`, then append. -/
def append (p : Printer) (str : String) : Printer :=
  p.withNfo fun n => { n with out := some (n.out.getD "" ++ str) }

/-- `printer_drain`: the buffer, if non-empty, goes to the console. -/
def drain (p : Printer) : Printer :=
  match p.nfo.out with
  | some b => if b.length = 0 then p else { p.withNfo (fun n => { n with out := some "" }) with cons := p.cons ++ b }
  | none => p

/-- `printer_drain_free`. -/
def drainFree (p : Printer) : Printer := p.drain.withNfo fun n => { n with out := none }

/-- `obj->varname`; `none` also for a dangling pointer. -/
def varnameOf (p : Printer) (a : Addr) : Option String := (p.objs.get a).bind PyObj.varname

/-- `obj_varname`: the cached name, or a new `var_<hex>` of `memo_id` when that is
    non-zero and of `varid++` otherwise. -/
def objVarname (p : Printer) (a : Addr) : Printer × Option String :=
  match p.objs.get a with
  | none => (p, none)
  | some o =>
    match o.varname with
    | some v => (p, some v)
    | none =>
      let (num, p) :=
        if o.memoId ≠ 0 then (o.memoId.toNat, p)
        else (p.nfo.varid, p.withNfo fun n => { n with varid := n.varid + 1 })
      let v := "var_" ++ hex64 num
      ({ p with objs := p.objs.set a { o with varname := some v } }, some v)

@[simp] theorem withNfo_nfo (p : Printer) (f : PrintInfo → PrintInfo) : (p.withNfo f).nfo = f p.nfo := rfl
@[simp] theorem withNfo_objs (p : Printer) (f : PrintInfo → PrintInfo) : (p.withNfo f).objs = p.objs := rfl
@[simp] theorem withNfo_cons (p : Printer) (f : PrintInfo → PrintInfo) : (p.withNfo f).cons = p.cons := rfl
@[simp] theorem append_objs (p : Printer) (t : String) : (p.append t).objs = p.objs := rfl
@[simp] theorem append_cons (p : Printer) (t : String) : (p.append t).cons = p.cons := rfl
@[simp] theorem append_first (p : Printer) (t : String) : (p.append t).nfo.first = p.nfo.first := rfl
@[simp] theorem append_ret (p : Printer) (t : String) : (p.append t).nfo.ret = p.nfo.ret := rfl
@[simp] theorem varnameOf_append (p : Printer) (t : String) (a : Addr) :
    (p.append t).varnameOf a = p.varnameOf a := rfl
@[simp] theorem varnameOf_withNfo (p : Printer) (f : PrintInfo → PrintInfo) (a : Addr) :
    (p.withNfo f).varnameOf a = p.varnameOf a := rfl

@[simp] theorem drain_objs (p : Printer) : p.drain.objs = p.objs := by
  unfold drain; split <;> (try split) <;> rfl
@[simp] theorem drain_first (p : Printer) : p.drain.nfo.first = p.nfo.first := by
  unfold drain; split <;> (try split) <;> rfl
@[simp] theorem drain_ret (p : Printer) : p.drain.nfo.ret = p.nfo.ret := by
  unfold drain; split <;> (try split) <;> rfl

/-- `newline`: statements end with a newline, inline values do not. -/
def newline (p : Printer) : Printer := if p.nfo.first || p.nfo.ret then p.append "\n" else p

/-- `var_pre_print`: `1` when a name was printed instead of the object, `0` when the
    object is to be printed, `-1` on failure. -/
def varPrePrint (p : Printer) (a : Addr) : Printer × Int :=
  if p.nfo.ret then
    let p := p.append "return "
    match p.varnameOf a with
    | some v => (p.append (v ++ "\n"), 1)
    | none => (p, 0)
  else if p.nfo.first then
    match p.varnameOf a with
    | some v => (if p.nfo.verbose then p.append ("# " ++ v ++ " previously declared\n") else p, 1)
    | none =>
      match p.objVarname a with
      | (p, some v) => (p.append (v ++ " = "), 0)
      | (p, none) => (p, -1)
  else
    match p.varnameOf a with
    | some v => (p.append v, 1)
    | none => (p, 0)

/-- Inline, an unnamed object is printed in place: `var_pre_print` does nothing. -/
theorem varPrePrint_inline_unnamed {p : Printer} {a : Addr} (hr : p.nfo.ret = false)
    (hf : p.nfo.first = false) (hv : p.varnameOf a = none) : p.varPrePrint a = (p, 0) := by
  simp [varPrePrint, hr, hf, hv]

/-- Under `ret`, an unnamed object gets `return ` and is then printed in place. -/
theorem varPrePrint_ret_unnamed {p : Printer} {a : Addr} (hr : p.nfo.ret = true)
    (hv : p.varnameOf a = none) : p.varPrePrint a = (p.append "return ", 0) := by
  simp [varPrePrint, hr, hv]

end Printer

open Printer

section Render

variable (opers : Store PyOper) (cstr : PyObj → String)

/-- A call of `dump_obj`. -/
abbrev Dumper := Printer → Addr → Except Halt (Printer × Bool)

/-- `PREPRINT ()` followed by a scalar's text and `newline`: `dump_bool`,
    `dump_int`, `dump_str`, `dump_float`, `dump_none`, `dump_func`. -/
def dumpScalar (text : String) (p : Printer) (a : Addr) : Printer × Bool :=
  match p.varPrePrint a with
  | (p, 0) => ((p.append text).newline, true)
  | (p, o) => (p, 0 < o)

/-- `dump_bool`. -/
def dumpBool (b : Bool) : Printer → Addr → Printer × Bool := dumpScalar (if b then "True" else "False")

/-- `dump_int`: `%d`. -/
def dumpInt (i : Int) : Printer → Addr → Printer × Bool := dumpScalar (cIntText i)

/-- `dump_str`: the payload as it is. -/
def dumpStr (s : String) : Printer → Addr → Printer × Bool := dumpScalar s

/-- `dump_float`: `%lf`. -/
def dumpFloat (d : UInt64) : Printer → Addr → Printer × Bool := dumpScalar (lfText d)

/-- `dump_none`. -/
def dumpNone : Printer → Addr → Printer × Bool := dumpScalar "None"

/-- `%s` of a `PyObj *`. -/
def objStr (p : Printer) : Option Addr → String
  | some a => ((p.objs.get a).map cstr).getD ""
  | none => "(null)"

/-- `dump_func`: `__import__("%s").%s` of the two object pointers. -/
def dumpFunc (m n : Option Addr) (p : Printer) (a : Addr) : Printer × Bool :=
  dumpScalar ("__import__(\"" ++ objStr cstr p m ++ "\")." ++ objStr cstr p n) p a

/-- The loop of `dump_iter`: elements separated by `, `, stopping at a failure. -/
def dumpIterLoop (dump : Dumper) : Printer → List Addr → Except Halt (Printer × Bool)
  | p, [] => .ok (p, true)
  | p, x :: xs =>
    match dump p x with
    | .ok (p, true) => if xs = [] then .ok (p, true) else dumpIterLoop dump (p.append ", ") xs
    | r => r

/-- The loop of `dump_iter_dict`: `: ` after a key, `, ` after a value but the last. -/
def dumpIterDictLoop (dump : Dumper) : Printer → Bool → List Addr → Except Halt (Printer × Bool)
  | p, _, [] => .ok (p, true)
  | p, onkey, x :: xs =>
    match dump p x with
    | .ok (p, true) =>
      let p := if onkey then p.append ": " else if xs = [] then p else p.append ", "
      dumpIterDictLoop dump p (!onkey) xs
    | r => r

/-- `dump_iter` and `dump_iter_dict` around their loop: elements are inline, so
    `first` and `ret` are cleared and then restored. -/
def dumpIterWith (loop : Printer → Except Halt (Printer × Bool)) (p : Printer) :
    Except Halt (Printer × Bool) :=
  let first := p.nfo.first
  let ret := p.nfo.ret
  match loop (p.withNfo fun n => { n with first := false, ret := false }) with
  | .ok (p, b) => .ok (p.withNfo fun n => { n with first := first, ret := ret }, b)
  | .error e => .error e

/-- `dump_tuple`, `dump_list`, `dump_dict`: `PREPRINT ()`, the brackets around the
    elements, `newline`. The closing bracket is written whatever the elements gave. -/
def dumpBracketed (openB closeB : String) (inner : Printer → Except Halt (Printer × Bool))
    (p : Printer) (a : Addr) : Except Halt (Printer × Bool) :=
  match p.varPrePrint a with
  | (p, 0) =>
    match inner (p.append openB) with
    | .ok (p, b) => .ok (((p.append closeB).newline), b)
    | .error e => .error e
  | (p, o) => .ok (p, 0 < o)

/-- `dump_tuple`. -/
def dumpTuple (dump : Dumper) (items : List Addr) : Printer → Addr → Except Halt (Printer × Bool) :=
  dumpBracketed "(" ")" (dumpIterWith fun p => dumpIterLoop dump p items)

/-- `dump_list`. -/
def dumpList (dump : Dumper) (items : List Addr) : Printer → Addr → Except Halt (Printer × Bool) :=
  dumpBracketed "[" "]" (dumpIterWith fun p => dumpIterLoop dump p items)

/-- `dump_dict`. -/
def dumpDict (dump : Dumper) (items : List Addr) : Printer → Addr → Except Halt (Printer × Bool) :=
  dumpBracketed "\x7b" "\x7d" (dumpIterWith fun p => dumpIterDictLoop dump p true items)

/-- `prepend_obj`: with the current buffer set aside, dump `a` as a statement of its
    own straight to the console, then write its name where it is used. -/
def prependObj (dump : Dumper) (p : Printer) (a : Addr) : Except Halt (Printer × Bool) :=
  if p.nfo.first then .ok (p, false)
  else
    let ret := p.nfo.ret
    let q := p.withNfo fun n =>
      { n with outstack := n.outstack ++ [n.out], first := true, ret := false, out := none }
    match dump q a with
    | .ok (q, b) =>
      let q := q.drainFree
      let q := q.withNfo fun n =>
        { n with out := (n.outstack.getLast?).getD none, outstack := n.outstack.dropLast,
                 first := false, ret := ret }
      if b then
        match q.varnameOf a with
        | some v => .ok (q.append v, true)
        | none => .ok (q, false)
      else .ok (q, false)
    | .error e => .error e

/-- `dump_oper_init`: `<name> = <the one argument>`. -/
def dumpOperInit (dump : Dumper) (vn : String) (args : List Addr) (p : Printer) :
    Except Halt (Printer × Bool) :=
  match args.getLast? with
  | none => .error .null
  | some x =>
    match dump (p.append (vn ++ " = ")) x with
    | .ok (p, true) => .ok (p.append "\n", true)
    | r => r

/-- `dump_oper_reduce`: `<name> = <name><the argument tuple>`; any other argument is
    only logged. -/
def dumpOperReduce (dump : Dumper) (vn : String) (args : List Addr) (p : Printer) :
    Except Halt (Printer × Bool) :=
  match args.getLast? with
  | none => .error .null
  | some x =>
    if (p.objs.get x).map PyObj.type ≠ some .tuple then .ok (p, true)
    else
      match dump (p.append (vn ++ " = " ++ vn)) x with
      | .ok (p, true) => .ok (p.append "\n", true)
      | r => r

/-- `dump_oper_newobj`: `<name> = <name>.__new__(<name>, *<the argument tuple>)`. -/
def dumpOperNewobj (dump : Dumper) (vn : String) (args : List Addr) (p : Printer) :
    Except Halt (Printer × Bool) :=
  match args.getLast? with
  | none => .error .null
  | some x =>
    if (p.objs.get x).map PyObj.type ≠ some .tuple then .ok (p, true)
    else
      match dump (p.append (vn ++ " = " ++ vn ++ ".__new__(" ++ vn ++ ", *")) x with
      | .ok (p, true) => .ok (p.append ")\n", true)
      | r => r

/-- `dump_oper`: only `FAKE_INIT`, `REDUCE` and `NEWOBJ` are rendered. -/
def dumpOper (dump : Dumper) (vn : String) (p : Printer) (q : OAddr) : Except Halt (Printer × Bool) :=
  match opers.get q with
  | none => .error .null
  | some pop =>
    match pop.op with
    | .fakeInit => dumpOperInit dump vn pop.stack p
    | .reduce => dumpOperReduce dump vn pop.stack p
    | .newobj => dumpOperNewobj dump vn pop.stack p
    | _ => .ok (p, false)

/-- The oper loop of `dump_what`, stopping at the first failure. -/
def dumpOperLoop (dump : Dumper) (vn : String) : Printer → List OAddr → Except Halt (Printer × Bool)
  | p, [] => .ok (p, true)
  | p, q :: qs =>
    match dumpOper opers dump vn p q with
    | .ok (p, true) => dumpOperLoop dump vn p qs
    | r => r

/-- `dump_what`. Inline, a named `PY_WHAT` is its name and an unnamed one is
    prepended. As a statement, a named one under `ret` is returned; otherwise it is
    named and its opers are written to a fresh buffer, which then joins the one that
    was current. -/
def dumpWhat (dump : Dumper) (ops : List OAddr) (p : Printer) (a : Addr) :
    Except Halt (Printer × Bool) :=
  if !p.nfo.first then
    match p.varnameOf a with
    | some v => .ok (p.append v, true)
    | none => prependObj dump p a
  else
    match p.varnameOf a, p.nfo.ret with
    | some v, true => .ok ((p.append "return ").append ("return " ++ v ++ "\n"), true)
    | _, _ =>
      match p.objVarname a with
      | (p, none) => .ok (p, false)
      | (p, some v) =>
        let pre := p.nfo.out.getD ""
        let ret := p.nfo.ret
        let p := p.withNfo fun n => { n with out := none, ret := false, first := false }
        match dumpOperLoop opers dump v p ops with
        | .ok (p, true) =>
          let p := p.withNfo fun n => { n with first := true, ret := ret }
          let p := if p.nfo.ret then p.append ("return " ++ v ++ "\n") else p
          let buf := p.nfo.out.getD ""
          if buf.length = 0 then .ok (p, true)
          else .ok ((p.withNfo fun n => { n with out := some pre }).append buf, true)
        | .ok (p, false) => .ok (p.withNfo fun n => { n with first := true, ret := ret }, false)
        | .error e => .error e

/-- `dump_obj`: dispatch on the type. Sets, frozensets and `PY_SPLIT` markers are
    refused ("Can't handle type"). -/
def dumpObj : Nat → Printer → Addr → Except Halt (Printer × Bool)
  | 0, _, _ => .error .fuel
  | n + 1, p, a =>
    match p.objs.get a with
    | none => .error .null
    | some o =>
      match o.val with
      | .bool b => .ok (dumpBool b p a)
      | .int i => .ok (dumpInt i p a)
      | .str s => .ok (dumpStr s p a)
      | .float d => .ok (dumpFloat d p a)
      | .none => .ok (dumpNone p a)
      | .iter .tuple items => dumpTuple (dumpObj n) items p a
      | .iter .list items => dumpList (dumpObj n) items p a
      | .iter .dict items => dumpDict (dumpObj n) items p a
      | .func m nm => .ok (dumpFunc cstr m nm p a)
      | .what ops => dumpWhat opers (dumpObj n) ops p a
      | _ => .ok (p, false)

/-- The loop of `dump_stack`: a comment line per object, then the object as a
    statement, the last one under `ret`. -/
def dumpStackLoop (fuel : Nat) (n : String) : Printer → Nat → List Addr → Except Halt (Printer × Bool)
  | p, _, [] => .ok (p, true)
  | p, len, a :: rest =>
    let len := len - 1
    let p := (p.append ("## " ++ n ++ "[" ++ toString len ++ "] " ++
      (if len = 0 then "TOP" else "") ++ "\n")).drain
    let p := p.withNfo fun i => { i with first := true, ret := if len = 0 then true else i.ret }
    match dumpObj opers cstr fuel p a with
    | .ok (p, true) => dumpStackLoop fuel n p.drain len rest
    | r => r

/-- `dump_stack`. -/
def dumpStack (fuel : Nat) (p : Printer) (stack : List Addr) (n : String) :
    Except Halt (Printer × Bool) :=
  let len := stack.length
  let p := if len = 0 then p.append ("## stack " ++ n ++ " empty\n") else p
  let p := p.append ("## Stack " ++ n ++ " start, len " ++ toString len ++ "\n")
  dumpStackLoop opers cstr fuel n p len stack

end Render

/-- `dump_machine`: `verbose` forced on, a fresh `outstack`, the VM stack dumped if
    `nfo->stack`, the buffer drained. -/
def dumpMachine (cstr : PyObj → String) (fuel : Nat) (s : PMState) (nfo : PrintInfo) :
    Except Halt (Printer × Bool) :=
  let p : Printer := ⟨{ nfo with verbose := true, outstack := [] }, "", s.objs⟩
  if nfo.stack then
    match dumpStack s.opers cstr fuel p s.stack "VM" with
    | .ok (p, b) => .ok (p.drainFree, b)
    | .error e => .error e
  else .ok (p.drainFree, true)

end PickleDec
