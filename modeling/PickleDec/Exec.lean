import PickleDec.What

/-!
# The interpreter: `exec_op` and its handlers

`pickle_dec.c` lines 420–1051, one definition per handler under the handler's name.
Each returns the C `bool` together with the state the handler leaves behind, also
when it fails: `pickle_dec` renders the state whatever `run_pvm` answered, so what a
failing handler changes is observable.

Allocation is modelled as never failing, which removes exactly the branches on a
`NULL` from `R_NEW0`, `r_list_newf` or a failed `r_list_push`.
-/

set_option autoImplicit false

namespace PickleDec

open PMState

/-! ## Memo, `DUP` -/

/-- `memo_put`: the stack top (or `NULL`), its count raised, into slot `loc`. -/
def memoPut (s : PMState) (loc : Int) : Bool × PMState :=
  if 0 ≤ loc then
    let obj := s.stack.getLast?
    let s := match obj with
      | some a => s.bumpObj a 1
      | none => s
    let (m, old) := memoUpdate s.memo loc.toNat obj
    let s := { s with memo := m }
    (true, match old with
      | some v => s.release v
      | none => s)
  else (false, s)

/-- `op_memorize`: `memo_put` at the next free slot, `memo->count`. -/
def opMemorize (s : PMState) : Bool × PMState := memoPut s s.memo.length

/-- `memo_get`: push the object in slot `loc`, its count raised. -/
def memoGet (s : PMState) (loc : Int) : Bool × PMState :=
  if 0 ≤ loc then
    match memoFind s.memo loc.toNat with
    | some a => (true, (s.push a).bumpObj a 1)
    | none => (false, s)
  else (false, s)

/-- `op_dup`. -/
def opDup (s : PMState) : Bool × PMState :=
  match s.stack.getLast? with
  | some a => (true, (s.push a).bumpObj a 1)
  | none => (false, s)

/-! ## Iterables -/

/-- `py_iter_new`: an empty iterable of type `t`. -/
def pyIterNew (s : PMState) (t : IterType) : PMState × Addr := s.newObj (.iter t [])

/-- `py_iter_append_mark`: move the frame into `obj` (a `t`, and for a dict an even
    frame) and restore the stack saved by the last `MARK`. -/
def pyIterAppendMark (s : PMState) (obj : Addr) (t : IterType) : Bool × PMState :=
  if s.typeOf obj = some t.type then
    if t = .dict ∧ s.stack.length % 2 = 1 then (false, s)
    else
      match popLast s.metastack with
      | some (meta, prev) =>
        (true, { s.setItems obj (s.itemsOf obj ++ s.stack) with metastack := meta, stack := prev })
      | none => (false, s)
  else (false, s)

/-- `op_newbool`. -/
def opNewbool (s : PMState) (b : Bool) : Bool × PMState :=
  let (s, obj) := s.newObj (.bool b)
  (true, s.push obj)

/-- `iter_to_mark`: a new `t` holding the marked frame. -/
def iterToMark (s : PMState) (t : IterType) : PMState × Option Addr :=
  let (s, obj) := pyIterNew s t
  match pyIterAppendMark s obj t with
  | (true, s) => (s, some obj)
  | (false, s) => (s.release (some obj), none)

/-- `op_type_create_append`: `TUPLE`, `LIST`, `DICT`, `FROZENSET`. -/
def opTypeCreateAppend (s : PMState) (t : IterType) : Bool × PMState :=
  match iterToMark s t with
  | (s, some obj) => (true, s.push obj)
  | (s, none) => (false, s)

/-- `op_iter_n`: the top `n` objects, in order, as a new `t`. A pop from an empty
    stack returns at once: the objects already popped stay in the abandoned iterable. -/
def opIterN (s : PMState) (n : Nat) (t : IterType) : Bool × PMState :=
  let (s, obj) := pyIterNew s t
  let (ok, stack, items) := iterNLoop n s.stack []
  let s := { s.setItems obj items with stack := stack }
  if ok then (true, s.push obj) else (false, s)

/-- `stack_n_expected_type`: the object `argc` below the top of `objl` has type `t`. -/
def stackNExpectedType (s : PMState) (objl : List Addr) (argc : Nat) (t : PyType) : Bool :=
  match objl.reverse[argc]? with
  | some a => decide (s.typeOf a = some t)
  | none => false

/-- `push_to_stack_iter`: append `obj` to the stack top, if that is a `t`. -/
def pushToStackIter (s : PMState) (t : PyType) (obj : Addr) : Bool × PMState :=
  match s.stack.getLast? with
  | some it => if s.typeOf it = some t then (true, s.setItems it (s.itemsOf it ++ [obj])) else (false, s)
  | none => (false, s)

/-- `op_append`: onto a list below the top, or recorded on a `PY_WHAT`. -/
def opAppend (s : PMState) : Bool × PMState :=
  if 2 ≤ s.stack.length then
    if !stackNExpectedType s s.stack 1 .list then pyWhatAddop s 1 .append
    else
      match popLast s.stack with
      | some (rest, obj) =>
        match pushToStackIter { s with stack := rest } .list obj with
        | (true, s) => (true, s)
        | (false, s) => (false, s.push obj)
      | none => (false, s)
  else (false, s)

/-- `op_appends`: `APPENDS` (with the tag `op`) and `ADDITEMS`: the marked frame
    into the `t` below the mark, or recorded on a `PY_WHAT` made of it. -/
def opAppends (s : PMState) (op : PyOp) (t : IterType) : Bool × PMState :=
  match s.metastack.getLast? with
  | some prev =>
    match prev.getLast? with
    | some obj =>
      if s.typeOf obj ≠ some t.type then pyWhatAddopStack s op else pyIterAppendMark s obj t
    | none => (false, s)
  | none => (false, s)

/-- `op_setitem`: a key and a value into the dict below them, or recorded on a
    `PY_WHAT`. -/
def opSetitem (s : PMState) : Bool × PMState :=
  if 3 ≤ s.stack.length then
    if !stackNExpectedType s s.stack 2 .dict then pyWhatAddop s 2 .setitem
    else
      match s.stack.reverse with
      | value :: key :: obj :: _ =>
        let s := { s with stack := s.stack.dropLast.dropLast }
        if s.typeOf obj = some .dict then (true, s.setItems obj (s.itemsOf obj ++ [key, value]))
        else (false, (s.release (some key)).release (some value))
      | _ => (false, s)
  else (false, s)

/-- `op_setitems`. -/
def opSetitems (s : PMState) : Bool × PMState :=
  match s.metastack.getLast? with
  | some prev =>
    match prev.getLast? with
    | some obj =>
      if s.typeOf obj = some .dict then pyIterAppendMark s obj .dict
      else pyWhatAddopStack s .setitems
    | none => (false, s)
  | none => (false, s)

/-! ## Scalars and strings -/

/-- `strstr (mnemonic, " \"")`: what follows the first space-quote. -/
def afterSpaceQuote : List Char → Option (List Char)
  | ' ' :: '"' :: rest => some rest
  | _ :: rest => afterSpaceQuote rest
  | [] => none

/-- `op_str_arg`: the mnemonic's quoted payload, its closing quote cut off. -/
def opStrArg (mnemonic : String) : Option String :=
  match afterSpaceQuote mnemonic.toList with
  | some rest => if rest = [] then none else some (String.mk rest.dropLast)
  | none => none

/-- `op_none`. -/
def opNone (s : PMState) : Bool × PMState :=
  let (s, obj) := s.newObj .none
  (true, s.push obj)

/-- `push_int_type`: `BININT`, `BININT1`, `BININT2`, `LONG1`, `LONG4`. -/
def pushIntType (s : PMState) (op : RAnalOp) : Bool × PMState :=
  let (s, obj) := s.newObj (.int op.val)
  (true, s.push obj)

/-- `op_float`: the mnemonic scanned as `float "%lf"` or `binfloat %lf`. -/
def opFloat (c : RCore) (s : PMState) (op : RAnalOp) (quoted : Bool) : Bool × PMState :=
  let (s, obj) := s.newObj (.float 0)
  match c.sscanfLf op.mnemonic (if quoted then "float \"%lf\"" else "binfloat %lf") with
  | some d => (true, (s.modObj obj fun o => { o with val := .float d }).push obj)
  | none => (false, s.release (some obj))

/-- `get_big_str`: a long payload read back from the file, else the mnemonic's. -/
def getBigStr (c : RCore) (op : RAnalOp) : Option String :=
  if op.ptr ≠ 0 ∧ 80 < op.ptrsize ∧ op.ptrsize < 2147483647 then c.readEscaped op.ptr op.ptrsize
  else opStrArg op.mnemonic

/-- `push_str`: every string, bytes and unicode opcode. -/
def pushStr (c : RCore) (s : PMState) (op : RAnalOp) : Bool × PMState :=
  let str := getBigStr c op
  let (s, obj) := s.newObj (.str (str.getD ""))
  match str with
  | some _ => (true, s.push obj)
  | none => (false, s.release (some obj))

/-! ## Marks -/

/-- `op_mark`. -/
def opMark (s : PMState) : Bool × PMState :=
  (true, { s with metastack := s.metastack ++ [s.stack], stack := [] })

/-- `op_pop`: the top moves to `popstack`. -/
def opPop (s : PMState) : Bool × PMState :=
  match popLast s.stack with
  | some (rest, obj) => (true, { s with stack := rest, popstack := s.popstack ++ [obj] })
  | none => (false, s)

/-- `op_pop_mark`: the frame moves to `popstack`, the saved stack comes back. -/
def opPopMark (s : PMState) : Bool × PMState :=
  match popLast s.metastack with
  | some (meta, prev) =>
    (true, { s with popstack := s.popstack ++ s.stack, stack := prev, metastack := meta })
  | none => (false, s)

/-! ## Classes -/

/-- Set both fields of a `PY_FUNC`. -/
def PMState.setFunc (s : PMState) (a : Addr) (m n : Option Addr) : PMState :=
  s.modObj a fun o => { o with val := .func m n }

/-- `glob_obj` with `split_module_str` and `str_to_pystr`: the mnemonic's
    `"module name"` as a `PY_FUNC` of two strings. -/
def globObj (s : PMState) (op : RAnalOp) : PMState × Option Addr :=
  let (s, obj) := s.newObj (.func none none)
  let s := match (opStrArg op.mnemonic).map (·.splitOn " ") with
    | some [module, name] =>
      let (s, m) := s.newObj (.str module)
      if name = "" then s.setFunc obj (some m) none
      else
        let (s, n) := s.newObj (.str name)
        s.setFunc obj (some m) (some n)
    | _ => s
  match s.objs.get obj with
  | some { val := .func (some _) (some _), .. } => (s, some obj)
  | _ => (s.release (some obj), none)

/-- `op_global`. -/
def opGlobal (s : PMState) (op : RAnalOp) : Bool × PMState :=
  match globObj s op with
  | (s, some obj) => (true, s.push obj)
  | (s, none) => (false, s)

/-- `op_stack_global`: module and name popped into a `PY_FUNC`. -/
def opStackGlobal (s : PMState) : Bool × PMState :=
  if 2 ≤ s.stack.length then
    let (s, obj) := s.newObj (.func none none)
    match s.stack.reverse with
    | name :: module :: _ =>
      (true, ({ s with stack := s.stack.dropLast.dropLast }.setFunc obj (some module) (some name)).push obj)
    | _ => (false, s.release (some obj))
  else (false, s)

/-- `insantiate`: class and argument list pushed, then `py_what_addop (pvm, 1, o)`
    with `o` the `INST` or, for the mnemonic `obj`, the `OBJ` tag. -/
def insantiate (s : PMState) (op : RAnalOp) (cls args : Option Addr) : Bool × PMState :=
  let o : PyOp := if op.mnemonic = "obj" then .obj else .inst
  match args, cls with
  | some a, some c => pyWhatAddop ((s.push c).push a) 1 o
  | _, _ => (false, (s.release args).release cls)

/-- `op_inst`: the class from the mnemonic, the marked frame as a list. -/
def opInst (s : PMState) (op : RAnalOp) : Bool × PMState :=
  let (s, cls) := globObj s op
  let (s, args) := iterToMark s .list
  insantiate s op cls args

/-- `op_obj`: the first marked object is the class, the rest a list. -/
def opObj (s : PMState) (op : RAnalOp) : Bool × PMState :=
  let (cls, s) := match s.stack with
    | c :: rest => (some c, { s with stack := rest })
    | [] => (none, s)
  let (s, args) := iterToMark s .list
  insantiate s op cls args

/-! ## `exec_op` -/

/-- `exec_op`: dispatch on the opcode. `PROTO` away from the start of the pickle only
    logs; the unhandled opcodes, and any other byte, fail without touching the state. -/
def execOp (c : RCore) (s : PMState) (op : RAnalOp) : PyOp → Bool × PMState
  | .proto => (true, if s.start ≠ s.offset then s else { s with ver := op.val })
  | .frame | .stop => (true, s)
  | .mark => opMark s
  | .pop => opPop s
  | .popMark => opPopMark s
  | .none => opNone s
  | .binint | .binint1 | .binint2 | .long1 | .long4 => pushIntType s op
  | .float => opFloat c s op true
  | .binfloat => opFloat c s op false
  | .string | .unicode | .binunicode8 | .binbytes8 | .bytearray8 | .binstring
  | .binunicode | .binbytes | .shortBinbytes | .shortBinstring | .shortBinunicode =>
    pushStr c s op
  | .obj => opObj s op
  | .inst => opInst s op
  | .global => opGlobal s op
  | .stackGlobal => opStackGlobal s
  | .newobj => pyWhatAddop s 1 .newobj
  | .build => pyWhatAddop s 1 .build
  | .reduce => pyWhatAddop s 1 .reduce
  | .tuple => opTypeCreateAppend s .tuple
  | .emptyTuple => opIterN s 0 .tuple
  | .tuple1 => opIterN s 1 .tuple
  | .tuple2 => opIterN s 2 .tuple
  | .tuple3 => opIterN s 3 .tuple
  | .emptyList => opIterN s 0 .list
  | .append => opAppend s
  | .appends => opAppends s .append .list
  | .list => opTypeCreateAppend s .list
  | .emptyDict => opIterN s 0 .dict
  | .setitem => opSetitem s
  | .setitems => opSetitems s
  | .dict => opTypeCreateAppend s .dict
  | .newtrue => opNewbool s true
  | .newfalse => opNewbool s false
  | .frozenset => opTypeCreateAppend s .frozenSet
  | .emptySet => opIterN s 0 .set
  | .additems => opAppends s .additems .set
  | .memoize => opMemorize s
  | .longBinput | .binput => memoPut s op.val
  | .longBinget | .binget => memoGet s op.val
  | .dup => opDup s
  | _ => (false, s)

/-! ## Runs -/

/-- The zeroed `PMState` of `pickle_dec` as `init_machine_state` fills it in at
    offset `off`: empty stacks and memo, `start = offset = off`. -/
def initState (off : Nat) : PMState :=
  { objs := [], opers := [], stack := [], metastack := [], popstack := [], memo := [],
    offset := off, start := off, ver := 0, recurse := 0, breakOnStop := false }

/-- `init_machine_state`: refuses unless `asm.arch` is `pickle`. -/
def initMachineState (c : RCore) : Option PMState :=
  if c.arch = "pickle" then some (initState c.offset) else none

/-- `empty_memo`: `ht_up_free`, which releases every value with `_kv_free`. -/
def emptyMemo (s : PMState) : PMState :=
  ({ s with memo := [] } : PMState) |> fun s0 => s.memo.foldl (fun s e => s.release e.2) s0

/-- The loop of `run_pvm` over the disassembler's ops: stop before `STOP` when
    `break_on_stop`, fail with the first failing handler, else advance the offset. -/
def runLoop (c : RCore) : PMState → List (PyOp × RAnalOp) → Bool × PMState
  | s, [] => (true, s)
  | s, (code, op) :: rest =>
    if s.breakOnStop ∧ code = .stop then (true, s)
    else
      match execOp c s op code with
      | (true, s) => runLoop c { s with offset := s.offset + op.size } rest
      | (false, s) => (false, s)

/-- `exec_op` over a sequence: every call succeeded, and the state after the last. -/
def execRun (c : RCore) : PMState → List (PyOp × RAnalOp) → Option PMState
  | s, [] => some s
  | s, (code, op) :: rest =>
    match execOp c s op code with
    | (true, s) => execRun c s rest
    | (false, _) => none

/-- `run_pvm`: the loop, then `empty_memo` if it got through. -/
def runPvm (c : RCore) (s : PMState) (ops : List (PyOp × RAnalOp)) : Bool × PMState :=
  match runLoop c s ops with
  | (true, s) => (true, emptyMemo s)
  | (false, s) => (false, s)

/-- A core with `asm.arch = pickle` at offset zero, no io and no float syntax. -/
def RCore.plain : RCore := ⟨0, "pickle", fun _ _ => none, fun _ _ => none⟩

/-- The states `init_machine_state` and successful `exec_op` calls reach; `advance`
    is `run_pvm` moving the offset between two calls. -/
inductive Reachable (c : RCore) : PMState → Prop
  | init {s : PMState} : initMachineState c = some s → Reachable c s
  | step {s s' : PMState} (op : RAnalOp) (code : PyOp) :
      Reachable c s → execOp c s op code = (true, s') → Reachable c s'
  | advance {s : PMState} (k : Nat) : Reachable c s → Reachable c { s with offset := s.offset + k }

/-- A state reached from a reachable one by successful `exec_op` calls is reachable. -/
theorem Reachable.of_execRun {c : RCore} {s s' : PMState} {ops : List (PyOp × RAnalOp)}
    (hs : Reachable c s) (h : execRun c s ops = some s') : Reachable c s' := by
  induction ops generalizing s with
  | nil => cases h; exact hs
  | cons x rest ih =>
    obtain ⟨code, op⟩ := x
    simp only [execRun] at h
    split at h
    · next s₁ heq => exact ih (.step op code hs heq) h
    · cases h

/-- A run from the initial state of the plain core ends in a reachable state. -/
theorem Reachable.of_plainRun {s : PMState} {ops : List (PyOp × RAnalOp)}
    (h : execRun .plain (initState 0) ops = some s) : Reachable .plain s :=
  (Reachable.init (show initMachineState .plain = some (initState 0) from rfl)).of_execRun h

end PickleDec
