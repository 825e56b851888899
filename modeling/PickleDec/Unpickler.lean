import PickleDec.Exec

/-!
# The reference: Python's `_Unpickler` on the data opcodes

What `pickle_dec.c`'s stack machine is measured against: CPython's `pickle.py`
`_Unpickler` (its `stack`, `metastack` and `memo`, and the `load_*` method of each
opcode), restricted to the opcodes that only build data. Two things are fixed so that
the two machines can be compared object for object:

* `APPEND`/`APPENDS` apply only to lists, `SETITEM`/`SETITEMS` only to dicts and
  `ADDITEMS` only to sets; any other target is an error (Python would call a method);
* sets, frozensets and dicts are the insertion-ordered sequences of the items (or
  key, value pairs) they were built from.

Objects live on a heap of payloads at the same addresses `pickle_dec.c` uses, so
"the same object" is "the same address". Scalar payloads are the ones the handlers
read: the decoder delivers them, and a payload the handler cannot parse is an error
on both sides.
-/

set_option autoImplicit false

namespace PickleDec

/-- The data opcodes. -/
def isDataOp : PyOp → Bool
  | .none | .newtrue | .newfalse | .binint | .binint1 | .binint2 | .long1 | .long4
  | .float | .binfloat | .string | .unicode | .binunicode8 | .binbytes8 | .bytearray8
  | .binstring | .binunicode | .binbytes | .shortBinbytes | .shortBinstring
  | .shortBinunicode | .emptyTuple | .emptyList | .emptyDict | .emptySet | .tuple1
  | .tuple2 | .tuple3 | .mark | .tuple | .list | .dict | .frozenset | .append
  | .appends | .setitem | .setitems | .additems | .pop | .popMark | .dup | .memoize
  | .binput | .longBinput | .binget | .longBinget => true
  | _ => false

/-- `_Unpickler`'s state: the heap of objects, `stack`, `metastack`, `memo`. -/
structure RefState where
  heap : Store PyVal
  stack : List Addr
  metastack : List (List Addr)
  memo : List (Nat × Addr)
  deriving DecidableEq, Repr

namespace RefState

/-- `Unpickler.__init__`: nothing on the stacks, an empty memo. -/
def init : RefState := ⟨[], [], [], []⟩

/-- `self.append (obj)` of a new object. -/
def pushNew (r : RefState) (v : PyVal) : RefState :=
  { r with heap := r.heap.alloc v, stack := r.stack ++ [r.heap.length] }

/-- `pop_mark`: the frame, and the stack saved by the last `MARK`. -/
def popMark (r : RefState) : Option (List Addr × RefState) :=
  match popLast r.metastack with
  | some (meta, prev) => some (r.stack, { r with stack := prev, metastack := meta })
  | none => none

/-- Extend the `t` at the top of the stack by `items`. -/
def extendTop (r : RefState) (t : IterType) (items : List Addr) : Option RefState :=
  match r.stack.getLast? with
  | some a =>
    match r.heap.get a with
    | some (.iter t' xs) => if t' = t then some { r with heap := r.heap.set a (.iter t (xs ++ items)) } else none
    | _ => none
  | none => none

/-- `self.memo [k] = self.stack [-1]`. -/
def memoPut (r : RefState) (k : Nat) : Option RefState :=
  match r.stack.getLast? with
  | some a =>
    some { r with memo := match r.memo.lookup k with
      | some _ => r.memo.map fun e => if e.1 = k then (k, a) else e
      | none => r.memo ++ [(k, a)] }
  | none => none

end RefState

open RefState

/-- `load_tuple1`, `load_tuple2`, `load_tuple3`: the top `n` objects replaced by a
    tuple of them (`stack[-n:] = [tuple]`), an `IndexError` below `n`. -/
def refTupleN (r : RefState) (n : Nat) : Option RefState :=
  if n ≤ r.stack.length then
    let k := r.stack.length - n
    some { r with heap := r.heap.alloc (.iter .tuple (r.stack.drop k)),
                  stack := r.stack.take k ++ [r.heap.length] }
  else none

/-- One opcode of `_Unpickler.load`; `none` where Python raises. -/
def refStep (c : RCore) (r : RefState) (op : RAnalOp) : PyOp → Option RefState
  | .none => some (r.pushNew .none)
  | .newtrue => some (r.pushNew (.bool true))
  | .newfalse => some (r.pushNew (.bool false))
  | .binint | .binint1 | .binint2 | .long1 | .long4 => some (r.pushNew (.int op.val))
  | .float => (c.sscanfLf op.mnemonic "float \"%lf\"").map fun d => r.pushNew (.float d)
  | .binfloat => (c.sscanfLf op.mnemonic "binfloat %lf").map fun d => r.pushNew (.float d)
  | .string | .unicode | .binunicode8 | .binbytes8 | .bytearray8 | .binstring
  | .binunicode | .binbytes | .shortBinbytes | .shortBinstring | .shortBinunicode =>
    (getBigStr c op).map fun s => r.pushNew (.str s)
  | .emptyTuple => some (r.pushNew (.iter .tuple []))
  | .emptyList => some (r.pushNew (.iter .list []))
  | .emptyDict => some (r.pushNew (.iter .dict []))
  | .emptySet => some (r.pushNew (.iter .set []))
  | .tuple1 => refTupleN r 1
  | .tuple2 => refTupleN r 2
  | .tuple3 => refTupleN r 3
  | .mark => some { r with metastack := r.metastack ++ [r.stack], stack := [] }
  | .tuple => r.popMark.map fun (items, r) => r.pushNew (.iter .tuple items)
  | .list => r.popMark.map fun (items, r) => r.pushNew (.iter .list items)
  | .frozenset => r.popMark.map fun (items, r) => r.pushNew (.iter .frozenSet items)
  | .dict =>
    r.popMark.bind fun (items, r) =>
      if items.length % 2 = 0 then some (r.pushNew (.iter .dict items)) else none
  | .append =>
    match popLast r.stack with
    | some (rest, value) => extendTop { r with stack := rest } .list [value]
    | none => none
  | .appends => r.popMark.bind fun (items, r) => r.extendTop .list items
  | .setitem =>
    match r.stack.reverse with
    | value :: key :: _ :: _ =>
      extendTop { r with stack := r.stack.dropLast.dropLast } .dict [key, value]
    | _ => none
  | .setitems =>
    r.popMark.bind fun (items, r) =>
      if items.length % 2 = 0 then r.extendTop .dict items else none
  | .additems => r.popMark.bind fun (items, r) => r.extendTop .set items
  | .pop =>
    match popLast r.stack with
    | some (rest, _) => some { r with stack := rest }
    | none => r.popMark.map Prod.snd
  | .popMark => r.popMark.map Prod.snd
  | .dup =>
    match r.stack.getLast? with
    | some a => some { r with stack := r.stack ++ [a] }
    | none => none
  | .memoize => r.memoPut r.memo.length
  | .binput | .longBinput => if 0 ≤ op.val then r.memoPut op.val.toNat else none
  | .binget | .longBinget =>
    if 0 ≤ op.val then (r.memo.lookup op.val.toNat).map fun a => { r with stack := r.stack ++ [a] }
    else none
  | _ => none

/-- `_Unpickler.load` over a sequence of decoded opcodes: `none` if one raises. -/
def refRun (c : RCore) : RefState → List (PyOp × RAnalOp) → Option RefState
  | r, [] => some r
  | r, (code, op) :: rest => (refStep c r op code).bind fun r => refRun c r rest

/-- The C machine agrees with the reference on the stack, every saved frame and the
    memo, and holds the same object at every address. -/
def Agrees (s : PMState) (r : RefState) : Prop :=
  s.objs.map (Option.map PyObj.val) = r.heap ∧ s.stack = r.stack ∧
    s.metastack = r.metastack ∧ s.memo = r.memo.map fun e => (e.1, some e.2)

/-- `MARK` then `POP`: Python's `load_pop` finds the frame empty and pops the mark,
    where `op_pop` fails. -/
theorem refinement_fails_on_pop_after_mark :
    ¬ ∀ (c : RCore) (s₀ : PMState) (ops : List (PyOp × RAnalOp)) (r : RefState),
      initMachineState c = some s₀ → (∀ x ∈ ops, isDataOp x.1 = true) →
      refRun c .init ops = some r → ∃ s, execRun c s₀ ops = some s ∧ Agrees s r := by
  intro h
  obtain ⟨s, hs, -⟩ := h .plain (initState 0) [(.mark, .imm 0), (.pop, .imm 0)] .init rfl
    (by decide) rfl
  have hfail : execRun .plain (initState 0) [(.mark, .imm 0), (.pop, .imm 0)] = none := rfl
  simp [hfail] at hs

/-- The reference with `load_pop` as `op_pop` runs it: `POP` on an empty frame is an
    error rather than a discarded mark. -/
def refStepStrict (c : RCore) (r : RefState) (op : RAnalOp) (code : PyOp) : Option RefState :=
  if code = .pop ∧ r.stack = [] then none else refStep c r op code

/-- `refRun` over `refStepStrict`. -/
def refRunStrict (c : RCore) : RefState → List (PyOp × RAnalOp) → Option RefState
  | r, [] => some r
  | r, (code, op) :: rest => (refStepStrict c r op code).bind fun r => refRunStrict c r rest

/-- The other direction fails: `pickle_dec.c` is more lenient than the reference. On
    `MARK, MEMOIZE` and `MARK, BINPUT 0` the reference has no top to store, and on
    `NONE, NONE, APPEND` no list to extend, and raises; every `exec_op` call answers
    `true`, because `memo_put` stores the empty frame's missing top and `op_append`
    turns a target that is no list into a `PY_WHAT`. -/
theorem reference_errors_interpreter_succeeds :
    initMachineState .plain = some (initState 0) ∧
      ∀ ops ∈ ([[(.mark, .imm 0), (.memoize, .imm 0)], [(.mark, .imm 0), (.binput, .imm 0)],
          [(.none, .imm 0), (.none, .imm 0), (.append, .imm 0)]] : List (List (PyOp × RAnalOp))),
        (∀ x ∈ ops, isDataOp x.1 = true) ∧ refRunStrict .plain .init ops = none ∧
          (execRun .plain (initState 0) ops).isSome := by
  refine ⟨rfl, ?_⟩
  decide

end PickleDec
