import PickleDec.Abort

/-!
# No free of a run finds its cell freed

`run_pvm` frees in four kinds of place. `memo_put` releases the value the slot held.
The split pass of `REDUCE` releases the trailing split `itter_add_split` replaces, and
`split_reduce` then releases its own split. The failing branches of `iter_to_mark`,
`glob_obj`, `op_float`, `push_str`, `op_stack_global`, `insantiate`, `op_setitem` and
the two `py_what_addop`s release what they built or popped. Last, `empty_memo` releases
the memo's values once the loop got through. Each of these is `py_obj_free` or
`pyop_free`, and they nest.

Each handler that frees has a checked twin here, `…Checked`: the same code with every
free replaced by its checked version (`pyObjFreeChecked`, `pyopFreeChecked`). The
checked free answers `none` where the free would read, write or free a freed cell, or
where its fuel would not reach. The handlers that free nothing are their own twins.

From every state `init_machine_state` gives, the twin of `run_pvm` answers `some` of
`run_pvm`'s result (`runPvm_frees_live`). So no free of a run touches a freed cell, and
that includes the failing branches that leak. The proofs reuse the failure analysis of
`Abort`: at each free the state is `Covers` with the freed pointer among the handler's
references, and `Covers.releaseChecked` turns that into the check passing.
-/

set_option autoImplicit false

namespace PickleDec

open PMState

namespace PMState

/-- `py_obj_free (obj)` as the handlers run it, checked. -/
def releaseChecked (s : PMState) (a : Option Addr) : Option PMState := pyObjFreeChecked s.freeFuel s a

/-- `pyop_free (pop)` as the handlers run it, checked. -/
def releaseOperChecked (s : PMState) (p : Option OAddr) : Option PMState := pyopFreeChecked s.freeFuel s p

end PMState

/-! ## The twins -/

/-- `memo_put`, checked. -/
def memoPutChecked (s : PMState) (loc : Int) : Option (Bool × PMState) :=
  if 0 ≤ loc then
    let obj := s.stack.getLast?
    let s := match obj with
      | some a => s.bumpObj a 1
      | none => s
    let (m, old) := memoUpdate s.memo loc.toNat obj
    let s := { s with memo := m }
    (match old with
      | some v => s.releaseChecked v
      | none => some s).map (true, ·)
  else some (false, s)

/-- `iter_to_mark`, checked. -/
def iterToMarkChecked (s : PMState) (t : IterType) : Option (PMState × Option Addr) :=
  let (s, obj) := pyIterNew s t
  match pyIterAppendMark s obj t with
  | (true, s) => some (s, some obj)
  | (false, s) => (s.releaseChecked (some obj)).map (·, none)

/-- `op_type_create_append`, checked. -/
def opTypeCreateAppendChecked (s : PMState) (t : IterType) : Option (Bool × PMState) :=
  (iterToMarkChecked s t).map fun
    | (s, some obj) => (true, s.push obj)
    | (s, none) => (false, s)

/-- `py_what_addop_stack`, checked. -/
def pyWhatAddopStackChecked (s : PMState) (op : PyOp) : Option (Bool × PMState) :=
  match popLast s.metastack with
  | none => some (false, s)
  | some (meta, oldstack) =>
    let (s, pop) := PMState.newOper { s with metastack := meta } op []
    match stackTopToWhat s oldstack with
    | (s, oldstack, some w) =>
      some (true, { (s.appendOper w pop).setOperStack pop s.stack with stack := oldstack })
    | (s, _, none) => (s.releaseOperChecked (some pop)).map (false, ·)

/-- `itter_add_split`, checked. -/
def itterAddSplitChecked (s : PMState) (obj split : Addr) : Option (Bool × PMState) :=
  let s := match popLast (s.itemsOf obj) with
    | some (rest, last) =>
      if s.typeOf last = some PyType.split then (s.setItems obj rest).releaseChecked (some last)
      else some s
    | none => some s
  s.map fun s => (true, (s.setItems obj (s.itemsOf obj ++ [split])).bumpObj split 1)

/-- `split_iter_recures` over a checked `add`. -/
def splitIterRecuresChecked (add : PMState → Addr → Option (Bool × PMState)) :
    PMState → List Addr → Option (Bool × PMState)
  | s, [] => some (true, s)
  | s, x :: xs =>
    add s x >>= fun
      | (true, s) => splitIterRecuresChecked add s xs
      | (false, s) => some (false, s)

/-- `split_what_recures` over a checked `add`. -/
def splitWhatRecuresChecked (add : PMState → Addr → Option (Bool × PMState)) :
    PMState → List OAddr → Option (Bool × PMState)
  | s, [] => some (true, s)
  | s, p :: ps =>
    splitIterRecuresChecked add s (((s.opers.get p).map PyOper.stack).getD []) >>= fun
      | (true, s) => splitWhatRecuresChecked add s ps
      | (false, s) => some (false, s)

/-- `add_splits`, checked. -/
def addSplitsChecked : Nat → PMState → Addr → Addr → Option (Bool × PMState)
  | 0, s, _, _ => some (false, s)
  | n + 1, s, obj, split =>
    match s.objs.get obj with
    | none => some (false, s)
    | some o =>
      if o.recurse = s.recurse then some (true, s)
      else
        let s := s.modObj obj fun o => { o with recurse := s.recurse }
        match o.val with
        | .iter t items =>
          splitIterRecuresChecked (fun s x => addSplitsChecked n s x split) s items >>= fun
            | (true, s) => if t = .tuple then some (true, s) else itterAddSplitChecked s obj split
            | (false, s) => some (false, s)
        | .what ops => splitWhatRecuresChecked (fun s x => addSplitsChecked n s x split) s ops
        | _ => some (true, s)

/-- `split_reduce`, checked. -/
def splitReduceChecked (s : PMState) (pop : OAddr) : Option (Bool × PMState) :=
  let (s, split) := s.newObj (.split none)
  match (s.opers.get pop).bind (·.stack.getLast?) with
  | none => some (false, s)
  | some obj =>
    let s := s.modObj split fun o => { o with val := .split (some pop) }
    let s := s.modOper pop fun q => { q with refcnt := q.refcnt + 1 }
    let s := { s with recurse := s.recurse + 1 }
    addSplitsChecked (s.objs.length + 1) s obj split >>= fun (ret, s) =>
      (s.releaseChecked (some split)).map (ret, ·)

/-- `py_what_addop`, checked. -/
def pyWhatAddopChecked (s : PMState) (argc : Nat) (op : PyOp) : Option (Bool × PMState) :=
  let (s, pop) := s.newOper op []
  let (s, args) := match listPopN s.stack argc with
    | some (rest, args) => ({ s with stack := rest }, some args)
    | none => (s, none)
  let (s, stack, obj) := stackTopToWhat s s.stack
  let s := { s with stack := stack }
  match args, obj with
  | some args, some w =>
    let s := (s.appendOper w pop).setOperStack pop args
    if op = .reduce then splitReduceChecked s pop else some (true, s)
  | args, _ =>
    (PMState.releaseOperChecked { s with stack := s.stack ++ args.getD [] } (some pop)).map (false, ·)

/-- `op_append`, checked. -/
def opAppendChecked (s : PMState) : Option (Bool × PMState) :=
  if 2 ≤ s.stack.length then
    if !stackNExpectedType s s.stack 1 .list then pyWhatAddopChecked s 1 .append
    else
      match popLast s.stack with
      | some (rest, obj) =>
        match pushToStackIter { s with stack := rest } .list obj with
        | (true, s) => some (true, s)
        | (false, s) => some (false, s.push obj)
      | none => some (false, s)
  else some (false, s)

/-- `op_appends`, checked. -/
def opAppendsChecked (s : PMState) (op : PyOp) (t : IterType) : Option (Bool × PMState) :=
  match s.metastack.getLast? with
  | some prev =>
    match prev.getLast? with
    | some obj =>
      if s.typeOf obj ≠ some t.type then pyWhatAddopStackChecked s op else some (pyIterAppendMark s obj t)
    | none => some (false, s)
  | none => some (false, s)

/-- `op_setitem`, checked. -/
def opSetitemChecked (s : PMState) : Option (Bool × PMState) :=
  if 3 ≤ s.stack.length then
    if !stackNExpectedType s s.stack 2 .dict then pyWhatAddopChecked s 2 .setitem
    else
      match s.stack.reverse with
      | value :: key :: obj :: _ =>
        let s := { s with stack := s.stack.dropLast.dropLast }
        if s.typeOf obj = some .dict then some (true, s.setItems obj (s.itemsOf obj ++ [key, value]))
        else ((s.releaseChecked (some key)).bind (·.releaseChecked (some value))).map (false, ·)
      | _ => some (false, s)
  else some (false, s)

/-- `op_setitems`, checked. -/
def opSetitemsChecked (s : PMState) : Option (Bool × PMState) :=
  match s.metastack.getLast? with
  | some prev =>
    match prev.getLast? with
    | some obj =>
      if s.typeOf obj = some .dict then some (pyIterAppendMark s obj .dict)
      else pyWhatAddopStackChecked s .setitems
    | none => some (false, s)
  | none => some (false, s)

/-- `op_float`, checked. -/
def opFloatChecked (c : RCore) (s : PMState) (op : RAnalOp) (quoted : Bool) : Option (Bool × PMState) :=
  let (s, obj) := s.newObj (.float 0)
  match c.sscanfLf op.mnemonic (if quoted then "float \"%lf\"" else "binfloat %lf") with
  | some d => some (true, (s.modObj obj fun o => { o with val := .float d }).push obj)
  | none => (s.releaseChecked (some obj)).map (false, ·)

/-- `push_str`, checked. -/
def pushStrChecked (c : RCore) (s : PMState) (op : RAnalOp) : Option (Bool × PMState) :=
  let str := getBigStr c op
  let (s, obj) := s.newObj (.str (str.getD ""))
  match str with
  | some _ => some (true, s.push obj)
  | none => (s.releaseChecked (some obj)).map (false, ·)

/-- `glob_obj`, checked. -/
def globObjChecked (s : PMState) (op : RAnalOp) : Option (PMState × Option Addr) :=
  let (s, obj) := s.newObj (.func none none)
  let s := splitModuleStr s op obj
  match s.objs.get obj with
  | some { val := .func (some _) (some _), .. } => some (s, some obj)
  | _ => (s.releaseChecked (some obj)).map (·, none)

/-- `op_global`, checked. -/
def opGlobalChecked (s : PMState) (op : RAnalOp) : Option (Bool × PMState) :=
  (globObjChecked s op).map fun
    | (s, some obj) => (true, s.push obj)
    | (s, none) => (false, s)

/-- `op_stack_global`, checked. -/
def opStackGlobalChecked (s : PMState) : Option (Bool × PMState) :=
  if 2 ≤ s.stack.length then
    let (s, obj) := s.newObj (.func none none)
    match s.stack.reverse with
    | name :: module :: _ =>
      some (true, ({ s with stack := s.stack.dropLast.dropLast }.setFunc obj (some module) (some name)).push obj)
    | _ => (s.releaseChecked (some obj)).map (false, ·)
  else some (false, s)

/-- `insantiate`, checked. -/
def insantiateChecked (s : PMState) (op : RAnalOp) (cls args : Option Addr) : Option (Bool × PMState) :=
  let o : PyOp := if op.mnemonic = "obj" then .obj else .inst
  match args, cls with
  | some a, some c => pyWhatAddopChecked ((s.push c).push a) 1 o
  | _, _ => ((s.releaseChecked args).bind (·.releaseChecked cls)).map (false, ·)

/-- `op_inst`, checked. -/
def opInstChecked (s : PMState) (op : RAnalOp) : Option (Bool × PMState) :=
  globObjChecked s op >>= fun (s, cls) =>
    iterToMarkChecked s .list >>= fun (s, args) => insantiateChecked s op cls args

/-- `op_obj`, checked. -/
def opObjChecked (s : PMState) (op : RAnalOp) : Option (Bool × PMState) :=
  let (cls, s) := match s.stack with
    | c :: rest => (some c, { s with stack := rest })
    | [] => (none, s)
  iterToMarkChecked s .list >>= fun (s, args) => insantiateChecked s op cls args

/-- `exec_op`, checked: the handlers that free go to their twins, and the others free
    nothing. -/
def execOpChecked (c : RCore) (s : PMState) (op : RAnalOp) : PyOp → Option (Bool × PMState)
  | .float => opFloatChecked c s op true
  | .binfloat => opFloatChecked c s op false
  | .string | .unicode | .binunicode8 | .binbytes8 | .bytearray8 | .binstring
  | .binunicode | .binbytes | .shortBinbytes | .shortBinstring | .shortBinunicode =>
    pushStrChecked c s op
  | .obj => opObjChecked s op
  | .inst => opInstChecked s op
  | .global => opGlobalChecked s op
  | .stackGlobal => opStackGlobalChecked s
  | .newobj => pyWhatAddopChecked s 1 .newobj
  | .build => pyWhatAddopChecked s 1 .build
  | .reduce => pyWhatAddopChecked s 1 .reduce
  | .tuple => opTypeCreateAppendChecked s .tuple
  | .append => opAppendChecked s
  | .appends => opAppendsChecked s .append .list
  | .list => opTypeCreateAppendChecked s .list
  | .setitem => opSetitemChecked s
  | .setitems => opSetitemsChecked s
  | .dict => opTypeCreateAppendChecked s .dict
  | .frozenset => opTypeCreateAppendChecked s .frozenSet
  | .additems => opAppendsChecked s .additems .set
  | .memoize => memoPutChecked s s.memo.length
  | .longBinput | .binput => memoPutChecked s op.val
  | code => some (execOp c s op code)

/-- `empty_memo`, checked. -/
def emptyMemoChecked (s : PMState) : Option PMState :=
  s.memo.foldlM (fun s e => s.releaseChecked e.2) { s with memo := [] }

/-- The loop of `run_pvm`, checked. -/
def runLoopChecked (c : RCore) : PMState → List (PyOp × RAnalOp) → Option (Bool × PMState)
  | s, [] => some (true, s)
  | s, (code, op) :: rest =>
    if s.breakOnStop ∧ code = .stop then some (true, s)
    else
      execOpChecked c s op code >>= fun
        | (true, s) => runLoopChecked c { s with offset := s.offset + op.size } rest
        | (false, s) => some (false, s)

/-- `run_pvm`, checked. -/
def runPvmChecked (c : RCore) (s : PMState) (ops : List (PyOp × RAnalOp)) : Option (Bool × PMState) :=
  runLoopChecked c s ops >>= fun
    | (true, s) => (emptyMemoChecked s).map (true, ·)
    | (false, s) => some (false, s)

/-! ## A free of a reference the handler owns passes its check -/

namespace Covers

variable {s : PMState} {h : List Addr}

theorem releaseChecked {x : Option Addr} (hc : Covers s (x.toList ++ h)) :
    s.releaseChecked x = some (s.release x) := by
  cases x with
  | none => simp [PMState.releaseChecked, release_none]
  | some a => exact (show Backed s (a :: (h ++ s.memoVals ++ s.roots)) [] from hc.backed).release.1

theorem releaseOperChecked {p : OAddr} (hc : Covers s h) (hp : s.operRefCount p = 0) {q : PyOper}
    (hq : s.opers.get p = some q) (hr : 0 ≤ q.refcnt) :
    s.releaseOperChecked (some p) = some (s.releaseOper (some p)) :=
  (hc.operBacked hp hq hr).releaseOperPtr.1

/-- The handler's new oper of no arguments, released as a failing branch does. -/
theorem allocOper_releaseChecked (hc : Covers s h) (op : PyOp) :
    ((s.newOper op []).1.releaseOperChecked (some s.opers.length)).map (false, ·) =
      some (false, (s.newOper op []).1.releaseOper (some s.opers.length)) := by
  rw [(hc.allocOper op).releaseOperChecked (hc.operRefCount_of_le le_rfl)
    (show _ = some ⟨op, [], s.offset, 0⟩ by simp [newOper]) le_rfl]
  rfl

theorem releaseChecked_map {β : Type} {x : Option Addr} (hc : Covers s (x.toList ++ h)) (f : PMState → β) :
    (s.releaseChecked x).map f = some (f (s.release x)) := by
  rw [hc.releaseChecked]; rfl

/-- Two references the handler holds, released one after the other. -/
theorem releaseTwoChecked {x y : Option Addr} (hc : Covers s (x.toList ++ y.toList)) :
    (s.releaseChecked x).bind (·.releaseChecked y) = some ((s.release x).release y) := by
  rw [hc.releaseChecked, Option.some_bind]
  exact (show Covers _ (y.toList ++ []) by simpa using hc.releaseOpt).releaseChecked

/-- The memo replaced by `m`, each object keeping its number of owners among the memo's
    values and the handler's references. -/
theorem moveMemo (hc : Covers s h) (m : Memo) {h' : List Addr}
    (hcount : ∀ a, (m.filterMap Prod.snd).count a + h'.count a = s.memoVals.count a + h.count a) :
    Covers { s with memo := m } h' :=
  ⟨fun a => by
    have h₁ := hc.objCount a; have h₂ := hcount a
    simp only [objRefCount, roots, memoVals] at h₁ h₂ ⊢; push_cast at h₁ ⊢; omega, hc.operCount⟩

/-- `ht_up_update` on a slot that held a value, with the stored value `v` held: the
    value the slot held is a reference the memo gives up, so its release passes. -/
theorem memoSlot {v : Option Addr} (hc : Covers s v.toList) (hk : (s.memo.map Prod.fst).Nodup) (k : Nat)
    {m : Memo} {x : Option Addr} (hu : memoUpdate s.memo k v = (m, some x)) :
    ({ s with memo := m } : PMState).releaseChecked x = some (({ s with memo := m } : PMState).release x) := by
  have := hc.moveMemo _ (memoUpdate_count hk k v)
  rw [hu] at this
  exact (show Covers _ (x.toList ++ []) by simpa using this).releaseChecked

end Covers

/-! ## Building and giving up -/

section Steps

variable {s : PMState} {h : List Addr}

theorem iterToMarkChecked_eq (hc : Covers s h) (t : IterType) :
    iterToMarkChecked s t = some (iterToMark s t) := by
  unfold iterToMarkChecked iterToMark pyIterNew
  simp only [newObj_snd]
  rcases hp : pyIterAppendMark (s.newObj (.iter t [])).1 s.objs.length t with ⟨_ | _, s'⟩
  · have := pyIterAppendMark_snd_of_fst (show (pyIterAppendMark _ _ t).1 = false by rw [hp])
    rw [hp] at this
    subst this
    exact (hc.newLeaf (.iter t []) rfl rfl).releaseChecked_map _
  · rfl

theorem globObjChecked_eq (hc : Covers s h) (op : RAnalOp) :
    globObjChecked s op = some (globObj s op) := by
  have i1 := splitModuleStr_covers hc op
  rw [globObj_eq]
  unfold globObjChecked
  simp only [newObj_snd]
  rw [i1.releaseChecked (x := some s.objs.length)]
  rcases (splitModuleStr (s.newObj (.func none none)).1 op s.objs.length).objs.get s.objs.length with
    _ | ⟨_ | _ | _ | _ | _ | ⟨_ | _, _ | _⟩ | _ | _ | _⟩ <;> rfl

theorem pyWhatAddopStackChecked_eq (hc : Covers s []) (op : PyOp) :
    pyWhatAddopStackChecked s op = some (pyWhatAddopStack s op) := by
  unfold pyWhatAddopStackChecked pyWhatAddopStack
  cases hm : popLast s.metastack with
  | none => rfl
  | some v =>
    obtain ⟨ms, oldstack⟩ := v
    rw [popLast_eq_some] at hm
    rcases List.eq_nil_or_concat oldstack with rfl | ⟨rest, top, rfl⟩
    · have hc' : Covers { s with metastack := ms } [] :=
        hc.moveRoots s.stack ms s.popstack fun a => by simp [roots, hm]
      simpa [newOper, stackTopToWhat] using hc'.allocOper_releaseChecked op
    · simp only [newOper, stackTopToWhat, List.concat_eq_append, popLast_concat]
      split_ifs <;> rfl

/-- `py_what_addop` with no more than `argc` objects on the stack releases its oper, which
    nothing points to. -/
theorem pyWhatAddopChecked_of_le (hc : Covers s []) {argc : Nat} (hlen : s.stack.length ≤ argc)
    (op : PyOp) : pyWhatAddopChecked s argc op = some (pyWhatAddop s argc op) := by
  rcases List.eq_nil_or_concat s.stack with hs | ⟨rest, top, hs⟩
  · simpa [pyWhatAddopChecked, pyWhatAddop, newOper, listPopN, stackTopToWhat, hs] using
      hc.allocOper_releaseChecked op
  rw [List.concat_eq_append] at hs
  have hp : listPopN (rest ++ [top]) argc = none := by rw [← hs]; simp [listPopN]; omega
  by_cases htw : s.typeOf top = some .what
  · have htw' : (s.objs.get top).map PyObj.type = some .what := htw
    simpa [pyWhatAddopChecked, pyWhatAddop, newOper, hp, stackTopToWhat, hs, typeOf, htw'] using
      hc.allocOper_releaseChecked op
  · have htw' : ¬ (s.objs.get top).map PyObj.type = some .what := htw
    have := congrArg (Option.map (false, ·)) (@Covers.releaseOperChecked _ _ s.opers.length (hc.wrapTop hs op)
      (by simpa [operRefCount, Store.countIn_alloc, PyObj.fresh, PyVal.operPtrs] using
        hc.operRefCount_of_le le_rfl)
      _ (show _ = some ⟨op, [], s.offset, 0⟩ by simp) le_rfl)
    simp only [pyWhatAddopChecked, pyWhatAddop, newOper, hp, stackTopToWhat, hs, popLast_concat, typeOf, htw',
      if_false, pyWhatNew, newObj]
    simpa [modObj, Store.modify_alloc_self, PyObj.fresh] using this

end Steps

/-! ## The split pass -/

section Loops

variable {P : PMState → Prop} {add : PMState → Addr → Bool × PMState}
  {addC : PMState → Addr → Option (Bool × PMState)}

/-- `split_iter_recures` over a checked `add` that agrees with `add` wherever `P` holds,
    and `P` kept by `add`. -/
theorem splitIterRecuresChecked_eq (hadd : ∀ s x, P s → addC s x = some (add s x))
    (hP : ∀ s x, P s → P (add s x).2) :
    ∀ (s : PMState) (xs : List Addr), P s → splitIterRecuresChecked addC s xs = some (splitIterRecures add s xs)
  | _, [], _ => rfl
  | s, x :: xs, h => by
    have hx := hP s x h
    simp only [splitIterRecuresChecked, splitIterRecures, hadd s x h, Option.bind_eq_bind, Option.some_bind]
    rcases hax : add s x with ⟨_ | _, s'⟩
    · rfl
    · rw [hax] at hx
      exact splitIterRecuresChecked_eq hadd hP s' xs hx

theorem splitWhatRecuresChecked_eq (hadd : ∀ s x, P s → addC s x = some (add s x))
    (hP : ∀ s x, P s → P (add s x).2) :
    ∀ (s : PMState) (ps : List OAddr), P s → splitWhatRecuresChecked addC s ps = some (splitWhatRecures add s ps)
  | _, [], _ => rfl
  | s, p :: ps, h => by
    have hx := splitIterRecures_preserves hP s (((s.opers.get p).map PyOper.stack).getD []) h
    simp only [splitWhatRecuresChecked, splitWhatRecures, splitIterRecuresChecked_eq hadd hP _ _ h,
      Option.bind_eq_bind, Option.some_bind]
    rcases hax : splitIterRecures add s (((s.opers.get p).map PyOper.stack).getD []) with ⟨_ | _, s'⟩
    · rfl
    · rw [hax] at hx
      exact splitWhatRecuresChecked_eq hadd hP s' ps hx

end Loops

/-- `itter_add_split` on an iterable: a trailing split it replaces is a pointer the
    iterable gives up, so its release passes. -/
theorem itterAddSplitChecked_eq {s : PMState} {h : List Addr} (hc : Covers s h) {obj split : Addr}
    {o : PyObj} {t : IterType} {xs : List Addr} (ho : s.objs.get obj = some o) (hv : o.val = .iter t xs) :
    itterAddSplitChecked s obj split = some (itterAddSplit s obj split) := by
  unfold itterAddSplitChecked itterAddSplit
  rw [itemsOf_of_iter s ho hv]
  cases hpop : popLast xs with
  | none => rfl
  | some v =>
    obtain ⟨rest, last⟩ := v
    rw [popLast_eq_some] at hpop
    subst hpop
    dsimp only
    split_ifs
    · have hc' : Covers (s.setItems obj rest) ((some last).toList ++ h) :=
        hc.take ho _ (by simp [PyObj.withItems, hv]) (by simp [PyObj.withItems, hv]) fun o => o.withItems_refcnt rest
      rw [hc'.releaseChecked]
      rfl
    · rfl

/-- `add_splits`, with any fuel, from any object, along the pass. -/
theorem addSplitsChecked_eq {S : Addr} {s₀ : PMState} (hS : s₀.IsSplit S) :
    ∀ (n : Nat) (s : PMState) (obj : Addr), PassOk S s₀ s →
      addSplitsChecked n s obj S = some (addSplits n s obj S)
  | 0, _, _, _ => rfl
  | n + 1, s, obj, hp => by
    have ih : ∀ s x, PassOk S s₀ s → addSplitsChecked n s x S = some (addSplits n s x S) :=
      fun s x hp => addSplitsChecked_eq hS n s x hp
    have hP : ∀ s x, PassOk S s₀ s → PassOk S s₀ (addSplits n s x S).2 := PassOk.addSplits hS n
    unfold addSplitsChecked addSplits
    cases hc : s.objs.get obj with
    | none => rfl
    | some o =>
      simp only
      split_ifs
      · rfl
      have hp1 := hp.mark obj
      have hc1 : (s.modObj obj fun o => { o with recurse := s.recurse }).objs.get obj =
          some { o with recurse := s.recurse } := by simp [hc]
      cases hv : o.val with
      | iter t items =>
        have hp2 := splitIterRecures_preserves hP _ items hp1
        dsimp only
        rw [splitIterRecuresChecked_eq ih hP _ items hp1]
        rcases hr : splitIterRecures (fun s x => addSplits n s x S)
          (s.modObj obj fun o => { o with recurse := s.recurse }) items with ⟨_ | _, s₂⟩
        · rfl
        · rw [hr] at hp2
          simp only [Option.bind_eq_bind, Option.some_bind]
          split_ifs with ht
          · rfl
          · obtain ⟨o₂, hc₂, hv₂⟩ := hp1.iter_of_iter hc1 hv hp2
            exact itterAddSplitChecked_eq hp2.inv.covers hc₂ hv₂
      | what ops => exact splitWhatRecuresChecked_eq ih hP _ ops hp1
      | _ => rfl

/-- The pass from a state holding the split, then the handle released. -/
theorem addSplits_releaseChecked {S : Addr} {s : PMState} (hi : Inv s [S]) (hS : s.IsSplit S)
    (n : Nat) (a : Addr) :
    (addSplitsChecked n s a S >>= fun (ret, s) => (s.releaseChecked (some S)).map (ret, ·)) =
      some (match addSplits n s a S with | (ret, s) => (ret, s.release (some S))) := by
  have hp := PassOk.addSplits hS n s a ⟨hi, .refl s⟩
  rw [addSplitsChecked_eq hS n s a ⟨hi, .refl s⟩]
  rcases hA : addSplits n s a S with ⟨ret, s'⟩
  rw [hA] at hp
  simp only [Option.bind_eq_bind, Option.some_bind]
  rw [hp.inv.covers.releaseChecked (x := some S)]
  rfl

/-- `split_reduce` for an oper with arguments, from a state satisfying the invariant. -/
theorem splitReduceChecked_eq {s : PMState} (hi : Inv s []) {pop : OAddr} {q : PyOper}
    (hq : s.opers.get pop = some q) (hne : q.stack ≠ []) :
    splitReduceChecked s pop = some (splitReduce s pop) := by
  set S := s.objs.length
  have i1 : Inv (s.newObj (.split none)).1 [S] := hi.newLeaf (.split none) rfl rfl (by decide)
  have hS1 : (s.newObj (.split none)).1.objs.get S = some (PyObj.fresh (.split none) s.offset) := by
    simp [get_newObj, S]
  have i2 := (i1.setReduce hS1 rfl (some pop) pop (by simpa using hq) 1 fun p' => by
    by_cases hp : pop = p' <;> simp [hp, List.count_singleton, Ne.symm]).newGen
  simp only [splitReduceChecked, splitReduce, newObj_snd, newObj_opers, hq, Option.some_bind,
    List.getLast?_eq_getLast _ hne]
  exact addSplits_releaseChecked i2 (by simp [IsSplit, typeOf, hS1, PyObj.type, PyVal.type]) _ _

/-! ## `py_what_addop` -/

section Record

variable {s : PMState} {argc : Nat} {rest args : List Addr} {top : Addr}

theorem pyWhatAddopChecked_of_what (hp : listPopN s.stack argc = some (rest ++ [top], args))
    (htw : s.typeOf top = some .what) (op : PyOp) :
    pyWhatAddopChecked s argc op =
      let s₁ : PMState := { s with
        stack := rest ++ [top]
        opers := s.opers.alloc ⟨op, args, s.offset, 0⟩
        objs := s.objs.modify top (·.addOper s.opers.length) }
      if op = .reduce then splitReduceChecked s₁ s.opers.length else some (true, s₁) := by
  have htw' : (s.objs.get top).map PyObj.type = some .what := htw
  simp only [pyWhatAddopChecked, newOper, hp, stackTopToWhat, popLast_concat, typeOf, htw', if_true]
  simp [appendOper, setOperStack, modObj, modOper, Store.modify_alloc_self]

theorem pyWhatAddopChecked_of_wrap (hp : listPopN s.stack argc = some (rest ++ [top], args))
    (htw : s.typeOf top ≠ some .what) (op : PyOp) :
    pyWhatAddopChecked s argc op =
      let s₁ : PMState := { s with
        stack := rest ++ [s.objs.length]
        opers := (s.opers.alloc ⟨op, args, s.offset, 0⟩).alloc ⟨.fakeInit, [top], s.offset, 0⟩
        objs := s.objs.alloc (PyObj.fresh (.what [s.opers.length + 1, s.opers.length]) s.offset) }
      if op = .reduce then splitReduceChecked s₁ s.opers.length else some (true, s₁) := by
  have htw' : ¬ (s.objs.get top).map PyObj.type = some .what := htw
  simp only [pyWhatAddopChecked, newOper, hp, stackTopToWhat, popLast_concat, typeOf, htw', if_false,
    pyWhatNew, newObj]
  simp [appendOper, setOperStack, modObj, modOper, Store.modify_alloc_self,
    Store.modify_alloc_of_lt, PyObj.addOper, PyObj.fresh]

end Record

section Handlers

variable {s : PMState}

/-- `py_what_addop` below its arguments, for an oper other than `REDUCE`, frees nothing. -/
theorem pyWhatAddopChecked_of_lt {argc : Nat} {op : PyOp} (hlen : argc < s.stack.length)
    (hop : op ≠ .reduce) : pyWhatAddopChecked s argc op = some (pyWhatAddop s argc op) := by
  cases hp : listPopN s.stack argc with
  | none => simp [listPopN, hlen] at hp
  | some v =>
    obtain ⟨rest, args⟩ := v
    obtain ⟨-, -, hne⟩ := listPopN_eq_some hp
    obtain ⟨rest', top, rfl⟩ : ∃ rest' top, rest = rest' ++ [top] :=
      ⟨rest.dropLast, rest.getLast hne, (List.dropLast_append_getLast hne).symm⟩
    by_cases htw : s.typeOf top = some .what
    · rw [pyWhatAddop_of_what hp htw op, pyWhatAddopChecked_of_what hp htw op]; simp [hop]
    · rw [pyWhatAddop_of_wrap hp htw op, pyWhatAddopChecked_of_wrap hp htw op]; simp [hop]

/-- `py_what_addop` from a state satisfying the invariant: the failing branch releases an
    oper that nothing points to, and `REDUCE`'s split pass frees only what it owns. -/
theorem pyWhatAddopChecked_eq (hi : Inv s []) {argc : Nat} {op : PyOp} (hfit : operFits op argc = true) :
    pyWhatAddopChecked s argc op = some (pyWhatAddop s argc op) := by
  rcases Nat.lt_or_ge argc s.stack.length with hlen | hlen
  swap
  · exact pyWhatAddopChecked_of_le hi.covers hlen op
  by_cases hop : op = .reduce
  swap
  · exact pyWhatAddopChecked_of_lt hlen hop
  subst hop
  cases hp : listPopN s.stack argc with
  | none => simp [listPopN, hlen] at hp
  | some v =>
    obtain ⟨rest, args⟩ := v
    obtain ⟨hst, hl, hne⟩ := listPopN_eq_some hp
    obtain ⟨rest', top, rfl⟩ : ∃ rest' top, rest = rest' ++ [top] :=
      ⟨rest.dropLast, rest.getLast hne, (List.dropLast_append_getLast hne).symm⟩
    have hargs : args ≠ [] := fun h0 => by simp [h0, operFits] at hl hfit; omega
    by_cases htw : s.typeOf top = some .what
    · obtain ⟨o, ops, ho, hv⟩ := exists_what_of_typeOf s htw
      rw [pyWhatAddop_of_what hp htw, pyWhatAddopChecked_of_what hp htw]
      dsimp only
      rw [if_pos rfl, if_pos rfl]
      exact splitReduceChecked_eq (q := ⟨.reduce, args, s.offset, 0⟩)
        (hi.recordOn (rest' ++ [top]) s.metastack s.popstack args
          (fun a => by simp only [roots, hst, List.count_append]; omega) ho hv (by simp) .reduce (hl ▸ hfit))
        (by simp) hargs
    · rw [pyWhatAddop_of_wrap hp htw, pyWhatAddopChecked_of_wrap hp htw]
      dsimp only
      rw [if_pos rfl, if_pos rfl]
      exact splitReduceChecked_eq (q := ⟨.reduce, args, s.offset, 0⟩)
        (hi.wrapRecord rest' s.metastack s.popstack args top
          (fun a => by simp only [roots, hst, List.count_append]; omega) htw .reduce (hl ▸ hfit))
        (by simp) hargs

/-- `memo_put` from a state satisfying the invariant. -/
theorem memoPutChecked_eq (hi : Inv s []) (loc : Int) : memoPutChecked s loc = some (memoPut s loc) := by
  unfold memoPutChecked memoPut
  split_ifs
  · cases hobj : s.stack.getLast? with
    | none =>
      dsimp only
      rcases hu : memoUpdate s.memo loc.toNat none with ⟨m, _ | x⟩
      · rfl
      · dsimp only
        rw [Covers.memoSlot (v := none) hi.covers hi.memoKeys _ hu]; rfl
    | some a =>
      obtain ⟨o, ho⟩ := hi.live_of_root (show a ∈ s.roots by simp [roots, List.mem_of_getLast?_eq_some hobj])
      dsimp only
      rcases hu : memoUpdate (s.bumpObj a 1).memo loc.toNat (some a) with ⟨m, _ | x⟩
      · rfl
      · dsimp only
        rw [Covers.memoSlot (v := some a) (hi.share ho).covers hi.memoKeys _ hu]; rfl
  · rfl

theorem opFloatChecked_eq (hc : Covers s []) (c : RCore) (op : RAnalOp) (q : Bool) :
    opFloatChecked c s op q = some (opFloat c s op q) := by
  simp only [opFloatChecked, opFloat, newObj_snd]
  cases c.sscanfLf op.mnemonic (if q then "float \"%lf\"" else "binfloat %lf")
  · exact (hc.newLeaf (.float 0) rfl rfl).releaseChecked_map _
  · rfl

theorem pushStrChecked_eq (hc : Covers s []) (c : RCore) (op : RAnalOp) :
    pushStrChecked c s op = some (pushStr c s op) := by
  simp only [pushStrChecked, pushStr, newObj_snd]
  cases getBigStr c op
  · exact (hc.newLeaf (.str "") rfl rfl).releaseChecked_map _
  · rfl

theorem opStackGlobalChecked_eq (hc : Covers s []) : opStackGlobalChecked s = some (opStackGlobal s) := by
  unfold opStackGlobalChecked opStackGlobal
  split_ifs
  · simp only [newObj_snd, newObj_stack]
    rcases s.stack.reverse with _ | ⟨_, _ | ⟨_, _⟩⟩
    all_goals first | rfl | exact (hc.newLeaf (.func none none) rfl rfl).releaseChecked_map _
  · rfl

theorem opTypeCreateAppendChecked_eq (hi : Inv s []) (t : IterType) :
    opTypeCreateAppendChecked s t = some (opTypeCreateAppend s t) := by
  unfold opTypeCreateAppendChecked opTypeCreateAppend
  rw [iterToMarkChecked_eq hi.covers]
  rfl

theorem opGlobalChecked_eq (hi : Inv s []) (op : RAnalOp) : opGlobalChecked s op = some (opGlobal s op) := by
  unfold opGlobalChecked opGlobal
  rw [globObjChecked_eq hi.covers]
  generalize globObj s op = g
  rfl

theorem opAppendChecked_eq (hi : Inv s []) : opAppendChecked s = some (opAppend s) := by
  unfold opAppendChecked opAppend
  split_ifs
  · exact pyWhatAddopChecked_eq hi rfl
  · rcases popLast s.stack with _ | ⟨rest, obj⟩
    · rfl
    · dsimp only
      rcases pushToStackIter { s with stack := rest } .list obj with ⟨_ | _, _⟩ <;> rfl
  · rfl

theorem opAppendsChecked_eq (hi : Inv s []) (op : PyOp) (t : IterType) :
    opAppendsChecked s op t = some (opAppends s op t) := by
  unfold opAppendsChecked opAppends
  rcases s.metastack.getLast? with _ | prev
  · rfl
  dsimp only
  rcases prev.getLast? with _ | obj
  · rfl
  dsimp only
  split_ifs
  · exact pyWhatAddopStackChecked_eq hi.covers op
  · rfl

theorem opSetitemsChecked_eq (hi : Inv s []) : opSetitemsChecked s = some (opSetitems s) := by
  unfold opSetitemsChecked opSetitems
  rcases s.metastack.getLast? with _ | prev
  · rfl
  dsimp only
  rcases prev.getLast? with _ | obj
  · rfl
  dsimp only
  split_ifs
  · rfl
  · exact pyWhatAddopStackChecked_eq hi.covers .setitems

/-- `op_setitem` whose dict is not one releases the key and the value it popped, which
    the stack gave up. -/
theorem opSetitemChecked_eq (hi : Inv s []) : opSetitemChecked s = some (opSetitem s) := by
  unfold opSetitemChecked opSetitem
  split_ifs
  · exact pyWhatAddopChecked_eq hi rfl
  · rcases hr : s.stack.reverse with _ | ⟨value, _ | ⟨key, _ | ⟨obj, r⟩⟩⟩
    any_goals rfl
    have hst : s.stack = r.reverse ++ [obj, key, value] := by
      rw [← List.reverse_reverse s.stack, hr]; simp
    have hdrop : s.stack.dropLast.dropLast = r.reverse ++ [obj] := by
      rw [hst]; simp [List.dropLast_append_of_ne_nil]
    have hc : Covers { s with stack := r.reverse ++ [obj] } [key, value] :=
      hi.covers.moveRoots _ _ _ fun a => by
        simp only [roots, hst, List.count_append, List.count_cons, List.count_nil]; omega
    dsimp only
    rw [hdrop]
    split_ifs
    · rfl
    · rw [(show Covers _ ((some key).toList ++ (some value).toList) from hc).releaseTwoChecked]; rfl
  · rfl

/-- `insantiate` after `iter_to_mark`, with the class, if there is one, held. -/
theorem insantiateChecked_eq {s₁ s₂ : PMState} {cls args : Option Addr} (hc : Covers s₁ cls.toList)
    (op : RAnalOp) (ht : iterToMark s₁ .list = (s₂, args)) :
    insantiateChecked s₂ op cls args = some (insantiate s₂ op cls args) := by
  have i1 := iterToMark_covers hc .list
  rw [ht] at i1
  rcases cls with _ | c <;> rcases args with _ | a
  · exact congrArg (Option.map (false, ·)) i1.releaseTwoChecked
  · exact congrArg (Option.map (false, ·)) i1.releaseTwoChecked
  · exact congrArg (Option.map (false, ·)) i1.releaseTwoChecked
  · obtain ⟨rfl, -⟩ := iterToMark_some ht
    exact pyWhatAddopChecked_of_lt (by simp [push]) (by split <;> decide)

theorem opInstChecked_eq (hi : Inv s []) (op : RAnalOp) : opInstChecked s op = some (opInst s op) := by
  have hc := globObj_covers hi.covers op
  unfold opInstChecked opInst
  rw [globObjChecked_eq hi.covers]
  generalize globObj s op = g at hc
  rcases g with ⟨s₁, cls⟩
  simp only [Option.bind_eq_bind, Option.some_bind]
  rw [iterToMarkChecked_eq hc]
  rcases ht : iterToMark s₁ .list with ⟨s₂, args⟩
  simp only [Option.some_bind]
  exact insantiateChecked_eq (by simpa using hc) op ht

theorem opObjChecked_eq (hi : Inv s []) (op : RAnalOp) : opObjChecked s op = some (opObj s op) := by
  unfold opObjChecked opObj
  cases hst : s.stack with
  | nil =>
    dsimp only
    rw [iterToMarkChecked_eq hi.covers]
    rcases ht : iterToMark s .list with ⟨s₂, args⟩
    simp only [Option.bind_eq_bind, Option.some_bind]
    exact insantiateChecked_eq (show Covers s (none : Option Addr).toList from hi.covers) op ht
  | cons c rest =>
    have hc : Covers { s with stack := rest } [c] :=
      hi.covers.moveRoots _ _ _ fun a => by
        simp only [roots, hst, List.count_append, List.count_cons, List.count_nil]; omega
    dsimp only
    rw [iterToMarkChecked_eq hc]
    rcases ht : iterToMark { s with stack := rest } .list with ⟨s₂, args⟩
    simp only [Option.bind_eq_bind, Option.some_bind]
    exact insantiateChecked_eq (show Covers _ (some c).toList from hc) op ht

/-- Every call of `exec_op` from a state satisfying the invariant: each free it makes
    passes its check, whatever the call answers. -/
theorem execOpChecked_eq (hi : Inv s []) (c : RCore) (op : RAnalOp) (code : PyOp) :
    execOpChecked c s op code = some (execOp c s op code) := by
  cases code
  case float => exact opFloatChecked_eq hi.covers c op true
  case binfloat => exact opFloatChecked_eq hi.covers c op false
  case string | unicode | binunicode8 | binbytes8 | bytearray8 | binstring | binunicode | binbytes
    | shortBinbytes | shortBinstring | shortBinunicode => exact pushStrChecked_eq hi.covers c op
  case obj => exact opObjChecked_eq hi op
  case inst => exact opInstChecked_eq hi op
  case global => exact opGlobalChecked_eq hi op
  case stackGlobal => exact opStackGlobalChecked_eq hi.covers
  case newobj | build | reduce => exact pyWhatAddopChecked_eq hi rfl
  case tuple | list | dict | frozenset => exact opTypeCreateAppendChecked_eq hi _
  case append => exact opAppendChecked_eq hi
  case appends | additems => exact opAppendsChecked_eq hi _ _
  case setitem => exact opSetitemChecked_eq hi
  case setitems => exact opSetitemsChecked_eq hi
  case memoize | longBinput | binput => exact memoPutChecked_eq hi _
  all_goals rfl

end Handlers

/-! ## `run_pvm` -/

theorem emptyMemoChecked_eq {s : PMState} (hc : Covers s []) : emptyMemoChecked s = some (emptyMemo s) :=
  (emptyMemo_frees s.roots s.memo { s with memo := [] } (hc.backed.of_heaps rfl rfl)).1

theorem runLoopChecked_eq (c : RCore) :
    ∀ (ops : List (PyOp × RAnalOp)) (s : PMState), Inv s [] → runLoopChecked c s ops = some (runLoop c s ops)
  | [], _, _ => rfl
  | (code, op) :: rest, s, hi => by
    unfold runLoopChecked runLoop
    split_ifs
    · rfl
    rw [execOpChecked_eq hi c op code]
    rcases he : execOp c s op code with ⟨_ | _, s₁⟩
    · rfl
    · have hi₁ := execOp_inv hi c op code (by rw [he])
      rw [he] at hi₁
      exact runLoopChecked_eq c rest _ (hi₁.advance op.size)

theorem runPvmChecked_eq (c : RCore) {s : PMState} (hi : Inv s []) (ops : List (PyOp × RAnalOp)) :
    runPvmChecked c s ops = some (runPvm c s ops) := by
  have hc := runLoop_covers c ops s hi
  unfold runPvmChecked runPvm
  rw [runLoopChecked_eq c ops s hi]
  generalize runLoop c s ops = r at hc ⊢
  rcases r with ⟨_ | _, t⟩
  · rfl
  · simp only [Option.bind_eq_bind, Option.some_bind]
    rw [emptyMemoChecked_eq hc]
    rfl

/-- From the state `init_machine_state` gives, every free that `run_pvm` makes finds its
    cell live, with fuel to spare: in the handlers, their failing branches included, in the
    split pass of `REDUCE` and in `empty_memo`. The run with every free checked answers
    what the run answers, whatever that is. -/
theorem runPvm_frees_live (c : RCore) (s₀ : PMState) (ops : List (PyOp × RAnalOp))
    (hinit : initMachineState c = some s₀) :
    runPvmChecked c { s₀ with breakOnStop := true } ops = some (runPvm c { s₀ with breakOnStop := true } ops) := by
  have hi := (Reachable.init hinit).inv
  exact runPvmChecked_eq c (s := { s₀ with breakOnStop := true }) (hi.control s₀.offset s₀.ver true) ops

/-- `EMPTY_LIST`, `BINPUT 0`, `EMPTY_LIST`, `BINPUT 0`, then `LIST` with no mark: the second
    `BINPUT` releases the first list's memo reference, and `LIST` fails and releases the
    list it made. -/
def memoOverwriteOps : List (PyOp × RAnalOp) :=
  [(.emptyList, .imm 0), (.binput, .imm 0), (.emptyList, .imm 0), (.binput, .imm 0), (.list, .imm 0)]

theorem runPvm_frees_live_memo_overwrite :
    initMachineState .plain = some (initState 0) ∧
      runPvmChecked .plain { initState 0 with breakOnStop := true } memoOverwriteOps =
        some (runPvm .plain { initState 0 with breakOnStop := true } memoOverwriteOps) :=
  ⟨rfl, runPvm_frees_live .plain _ memoOverwriteOps rfl⟩

end PickleDec
