import PickleDec.Backed
import PickleDec.Instantiate

/-!
# What a failing handler leaves: leaks, never a lost count

`pickle_dec` runs `empty_state` whether `run_pvm` got through or not, and `run_pvm` stops
at the first handler that fails, in whatever state that handler leaves. The failing
branches give up on what they built: `op_iter_n` abandons the iterable it was filling,
with the objects it popped inside and its count still at one; `iter_to_mark`,
`glob_obj`, `op_float`, `push_str`, `insantiate` and `op_setitem` release what they hold
with `py_obj_free`; the two `py_what_addop`s release their new oper with `pyop_free`,
`py_what_addop` after it has already upgraded the stack top.

None of them lowers a count and keeps the owner. `Covers s h` is the count part of `Inv`
as an inequality: no cell has more owners, the handler's own references `h` counted,
than its count says. Every call of `exec_op` from a reachable state leaves it, whatever
the call answered (`execOp_covers`), and on such a state `empty_state` touches no freed
cell (`emptyStateChecked_of_backed`).
-/

set_option autoImplicit false

namespace PickleDec

open PMState

/-- No cell has more owners than its count says: the roots, the memo's values, the heaps
    and the references `h` a handler holds. -/
structure Covers (s : PMState) (h : List Addr) : Prop where
  objCount : ∀ a, (s.objRefCount a + h.count a : Int) ≤ s.objs.held PyObj.refcnt a
  operCount : ∀ p, (s.operRefCount p : Int) ≤ s.opers.held PyOper.refcnt p

theorem Inv.covers {s : PMState} {h : List Addr} (hi : Inv s h) : Covers s h :=
  ⟨fun a => (hi.objCount a).le, fun p => (hi.operCount p).le⟩

theorem owners_roots (s : PMState) (h : List Addr) (a : Addr) :
    s.owners (h ++ s.memoVals ++ s.roots) a = s.objRefCount a + h.count a := by
  simp only [owners, heapRefs, objRefCount, List.count_append]; omega

namespace Covers

variable {s : PMState} {h : List Addr}

theorem backed (hc : Covers s h) : Backed s (h ++ s.memoVals ++ s.roots) [] :=
  ⟨fun a => by rw [owners_roots]; exact hc.objCount a,
    fun p => by simpa [operOwners] using hc.operCount p⟩

theorem of_backed (hb : Backed s (h ++ s.memoVals ++ s.roots) []) : Covers s h :=
  ⟨fun a => by have := hb.objCount a; rw [owners_roots] at this; push_cast at this; exact this,
    fun p => by simpa [operOwners] using hb.operCount p⟩

/-- A reference the handler gives up without a release: a leak. -/
theorem mono (hc : Covers s h) {h' : List Addr} (hh : ∀ a, h'.count a ≤ h.count a) : Covers s h' :=
  ⟨fun a => le_trans (by have := hh a; omega) (hc.objCount a), hc.operCount⟩

theorem perm (hc : Covers s h) {h' : List Addr} (hp : h.Perm h') : Covers s h' :=
  hc.mono fun a => (hp.count_eq a).ge

/-- The first addresses not yet allocated have no owner. -/
theorem objRefCount_length (hc : Covers s h) : s.objRefCount s.objs.length = 0 ∧ h.count s.objs.length = 0 := by
  have := hc.objCount s.objs.length
  simp [Store.held] at this
  omega

theorem operRefCount_of_le (hc : Covers s h) {q : OAddr} (hq : s.opers.length ≤ q) : s.operRefCount q = 0 := by
  have := hc.operCount q
  simp [Store.held, Store.get, List.getElem?_eq_none hq] at this
  omega

/-- A free leaves the roots and the memo as they were. -/
theorem of_heapsOnly {s' : PMState} {E : List Addr} (hs : HeapsOnly s s') (hb : Backed s' (E ++ s.memoVals ++ s.roots) []) :
    Covers s' E := by
  obtain ⟨objs, opers, rfl⟩ := hs
  exact of_backed hb

/-- `py_obj_free` on a reference the handler holds. -/
theorem release {a : Addr} (hc : Covers s (a :: h)) : Covers (s.release (some a)) h :=
  of_heapsOnly (heapsOnly_release s (some a))
    (show Backed s (a :: (h ++ s.memoVals ++ s.roots)) [] from hc.backed).release.2

theorem releaseOpt {x : Option Addr} (hc : Covers s (x.toList ++ h)) : Covers (s.release x) h := by
  cases x
  · exact hc
  · exact hc.release

/-- An oper that nothing points to, live with a count of at least zero, is the handler's
    own: it backs one more owner. -/
theorem operBacked {p : OAddr} (hc : Covers s h) (hp : s.operRefCount p = 0) {q : PyOper}
    (hq : s.opers.get p = some q) (hr : 0 ≤ q.refcnt) : Backed s (h ++ s.memoVals ++ s.roots) [p] :=
  ⟨hc.backed.objCount, fun p' => by
    by_cases hpp : p = p'
    · subst hpp; simp [operOwners, hp, Store.held, hq, hr]
    · simpa [operOwners, List.count_singleton', Ne.symm hpp] using hc.operCount p'⟩

/-- `pyop_free` on an oper that nothing points to: the handler's own. -/
theorem releaseOper {p : OAddr} (hc : Covers s h) (hp : s.operRefCount p = 0) {q : PyOper}
    (hq : s.opers.get p = some q) (hr : 0 ≤ q.refcnt) : Covers (s.releaseOper (some p)) h :=
  of_heapsOnly ((heapsOnly_pyObjFree _).2 s (some p)) (hc.operBacked hp hq hr).releaseOperPtr.2

/-- A fresh object that points to nothing, held. -/
theorem newLeaf (hc : Covers s h) (v : PyVal) (hv : v.objPtrs = []) (hv' : v.operPtrs = []) :
    Covers (s.newObj v).1 (s.objs.length :: h) where
  objCount a := by
    have := hc.objCount a
    rw [objRefCount_newObj, hv]
    by_cases ha : a = s.objs.length
    · subst ha; simp [Store.held, get_newObj, PyObj.fresh] at this ⊢; omega
    · simp [Store.held, get_newObj, ha, List.count_cons, Ne.symm ha] at this ⊢; exact this
  operCount p := by rw [operRefCount_newObj, hv']; simpa using hc.operCount p

/-- The roots and the handles rearranged, each object keeping its number of owners
    among them. -/
theorem moveRoots (hc : Covers s h) {h' : List Addr} (st : List Addr) (ms : List (List Addr)) (ps : List Addr)
    (hcount : ∀ a, (st ++ ms.flatten ++ ps ++ h').count a = (s.roots ++ h).count a) :
    Covers { s with stack := st, metastack := ms, popstack := ps } h' :=
  ⟨fun a => by
    have := hc.objCount a; have := hcount a
    simp only [objRefCount, roots, memoVals, List.count_append] at *; omega, hc.operCount⟩

/-- The object at `c` trades pointers with the handler: the references `ys` it held
    become pointers of the object, which gives up `zs` to the handler. -/
theorem reshape {ys zs : List Addr} (hc : Covers s (ys ++ h)) {c : Addr} {o : PyObj}
    (ho : s.objs.get c = some o) (f : PyObj → PyObj)
    (hf : ∀ a, (f o).val.objPtrs.count a + zs.count a = o.val.objPtrs.count a + ys.count a)
    (hf' : (f o).val.operPtrs = o.val.operPtrs) (hr : ∀ o, (f o).refcnt = o.refcnt) :
    Covers (s.modObj c f) (zs ++ h) where
  objCount a := by
    have h₁ := Store.countIn_modify (fun o : PyObj => o.val.objPtrs) s.objs c a f
    simp only [ho, Store.cnt_some, Option.map_some'] at h₁
    have h₂ := hf a
    have := hc.objCount a
    rw [show (s.modObj c f).objs.held PyObj.refcnt a = s.objs.held PyObj.refcnt a from
      Store.held_modify_of _ _ _ _ _ hr]
    simp only [objRefCount, roots_modObj, memoVals_modObj, modObj_objs, modObj_opers,
      List.count_append] at this ⊢
    push_cast at this ⊢; omega
  operCount p := by
    have h₂ := Store.countIn_modify (fun o : PyObj => o.val.operPtrs) s.objs c p f
    simp only [ho, Store.cnt_some, Option.map_some', hf'] at h₂
    have : (s.modObj c f).operRefCount p = s.operRefCount p := by
      simp only [operRefCount, modObj_objs]; omega
    rw [this]; exact hc.operCount p

/-- References the handler holds become pointers of the object at `c`. -/
theorem fill {ys : List Addr} (hc : Covers s (ys ++ h)) {c : Addr} {o : PyObj} (ho : s.objs.get c = some o)
    (f : PyObj → PyObj) (hf : (f o).val.objPtrs = o.val.objPtrs ++ ys) (hf' : (f o).val.operPtrs = o.val.operPtrs)
    (hr : ∀ o, (f o).refcnt = o.refcnt) : Covers (s.modObj c f) h :=
  (hc.reshape ho f (fun a => by simp [hf]) hf' hr : Covers _ ([] ++ h))

/-- Pointers `zs` of the object at `c` become references the handler holds. -/
theorem take {zs : List Addr} (hc : Covers s h) {c : Addr} {o : PyObj} (ho : s.objs.get c = some o)
    (f : PyObj → PyObj) (hf : o.val.objPtrs = (f o).val.objPtrs ++ zs) (hf' : (f o).val.operPtrs = o.val.operPtrs)
    (hr : ∀ o, (f o).refcnt = o.refcnt) : Covers (s.modObj c f) (zs ++ h) :=
  (show Covers s ([] ++ h) from hc).reshape ho f (fun a => by simp [hf]) hf' hr

/-- A fresh iterable of type `t` collects `ys`, taken off the roots, and is held. -/
theorem collect (hc : Covers s h) (t : IterType) (st : List Addr) (ms : List (List Addr)) (ps ys : List Addr)
    (hcount : ∀ a, (st ++ ms.flatten ++ ps ++ ys).count a = s.roots.count a) :
    Covers (({ (s.newObj (.iter t [])).1 with stack := st, metastack := ms, popstack := ps }).setItems
      s.objs.length ys) (s.objs.length :: h) := by
  have i1 : Covers { (s.newObj (.iter t [])).1 with stack := st, metastack := ms, popstack := ps }
      (ys ++ s.objs.length :: h) := (hc.newLeaf (.iter t []) rfl rfl).moveRoots st ms ps
    fun a => by have := hcount a; simp only [roots_newObj, List.count_append] at this ⊢; omega
  exact i1.fill (show _ = some (PyObj.fresh (.iter t []) s.offset) by simp [get_newObj]) _
    (by simp [PyObj.withItems, PyObj.fresh]) (by simp [PyObj.withItems, PyObj.fresh])
    fun o => o.withItems_refcnt ys

end Covers

/-! ## Failing branches that leave the state as they found it -/

/-- The loop of `op_iter_n` moves objects from the end of the stack to the front of the
    items, whether or not it gets through. -/
theorem iterNLoop_append : ∀ (n : Nat) (stack items : List Addr),
    (iterNLoop n stack items).2.1 ++ (iterNLoop n stack items).2.2 = stack ++ items
  | 0, _, _ => rfl
  | n + 1, stack, items => by
    unfold iterNLoop
    split
    · rfl
    · next st o hp => rw [iterNLoop_append n st (o :: items), popLast_eq_some.mp hp]; simp

theorem pyIterAppendMark_snd_of_fst {s : PMState} {obj : Addr} {t : IterType}
    (h : (pyIterAppendMark s obj t).1 = false) : (pyIterAppendMark s obj t).2 = s := by
  unfold pyIterAppendMark at h ⊢
  split_ifs at h ⊢
  · rfl
  · revert h
    split
    · intro h; cases h
    · intro; rfl
  · rfl

theorem pushToStackIter_snd_of_fst {s : PMState} {t : PyType} {obj : Addr}
    (h : (pushToStackIter s t obj).1 = false) : (pushToStackIter s t obj).2 = s := by
  unfold pushToStackIter at h ⊢
  revert h
  split
  · split_ifs
    · intro h; cases h
    · intro; rfl
  · intro; rfl

/-- The state after a handler is covered whatever it answered: by `Inv` when it got
    through, by the failure analysis otherwise. -/
theorem covers_of_result {r : Bool × PMState} (hinv : r.1 = true → Inv r.2 [])
    (hfail : r.1 = false → Covers r.2 []) : Covers r.2 [] := by
  cases hr : r.1
  · exact hfail hr
  · exact (hinv hr).covers

/-! ## Building and giving up -/

section Steps

variable {s : PMState} {h : List Addr}

/-- `iter_to_mark`: the frame collected into a fresh iterable the handler holds, or, when
    there is no mark, the fresh iterable released. -/
theorem iterToMark_covers (hc : Covers s h) (t : IterType) :
    Covers (iterToMark s t).1 ((iterToMark s t).2.toList ++ h) := by
  rcases hr : iterToMark s t with ⟨s', _ | obj⟩
  · have : s' = (s.newObj (.iter t [])).1.release (some s.objs.length) := by
      unfold iterToMark pyIterNew at hr
      simp only [newObj_snd] at hr
      rcases hp : pyIterAppendMark (s.newObj (.iter t [])).1 s.objs.length t with ⟨_ | _, s''⟩ <;>
        simp only [hp, Prod.mk.injEq, reduceCtorEq, and_false] at hr
      obtain ⟨rfl, -⟩ := hr
      have := pyIterAppendMark_snd_of_fst (show (pyIterAppendMark _ _ t).1 = false by rw [hp])
      simp only [hp] at this
      rw [this]
    subst this
    exact (hc.newLeaf (.iter t []) rfl rfl).release
  · obtain ⟨rfl, ms, prev, hm, -, rfl⟩ := iterToMark_some hr
    exact hc.collect t prev ms s.popstack s.stack fun a => by
      simp only [roots, hm, List.flatten_append, List.flatten_singleton, List.count_append]; omega

/-- `split_module_str` as `glob_obj` runs it on its fresh `PY_FUNC` at `obj`: the
    mnemonic's `"module name"` as the fields, each a fresh `PY_STR`, or the module alone
    when the name is empty. -/
def splitModuleStr (s : PMState) (op : RAnalOp) (obj : Addr) : PMState :=
  match (opStrArg op.mnemonic).map (·.splitOn " ") with
  | some [module, name] =>
    let (s, m) := s.newObj (.str module)
    if name = "" then s.setFunc obj (some m) none
    else
      let (s, n) := s.newObj (.str name)
      s.setFunc obj (some m) (some n)
  | _ => s

/-- `glob_obj` is `py_obj_new`, `split_module_str`, then the check of both fields. -/
theorem globObj_eq (s : PMState) (op : RAnalOp) :
    globObj s op =
      let (s, obj) := s.newObj (.func none none)
      let s := splitModuleStr s op obj
      match s.objs.get obj with
      | some { val := .func (some _) (some _), .. } => (s, some obj)
      | _ => (s.release (some obj), none) := rfl

/-- `split_module_str`: the new `PY_FUNC` held, with the strings it made as its fields. -/
theorem splitModuleStr_covers (hc : Covers s h) (op : RAnalOp) :
    Covers (splitModuleStr (s.newObj (.func none none)).1 op s.objs.length) (s.objs.length :: h) := by
  unfold splitModuleStr
  simp only [newObj_snd, length_newObj]
  generalize (opStrArg op.mnemonic).map (·.splitOn " ") = r
  have i1 := hc.newLeaf (.func none none) rfl rfl
  have hf : ∀ k, ((s.newObj (.func none none)).1.objs.alloc k).get s.objs.length =
      some (PyObj.fresh (.func none none) s.offset) := fun k => by simp [get_newObj]
  rcases r with _ | ⟨_ | ⟨module, _ | ⟨name, _ | ⟨_, _⟩⟩⟩⟩ <;> dsimp only
  case some.cons.cons.nil =>
    have i2 := i1.newLeaf (.str module) rfl rfl
    simp only [length_newObj] at i2
    split_ifs
    · exact (show Covers _ ([s.objs.length + 1] ++ s.objs.length :: h) from i2).fill (hf _)
        (fun o => { o with val := .func (some (s.objs.length + 1)) none })
        (by simp [PyObj.fresh, PyVal.objPtrs]) (by simp [PyObj.fresh, PyVal.operPtrs]) fun _ => rfl
    · have i3 := (i2.newLeaf (.str name) rfl rfl).perm (List.Perm.swap _ _ _)
      exact (show Covers _ ([s.objs.length + 1, s.objs.length + 1 + 1] ++ s.objs.length :: h) from
        by simpa only [length_newObj] using i3).fill
        (show (((s.newObj (.func none none)).1.newObj (.str module)).1.newObj (.str name)).1.objs.get
          s.objs.length = some (PyObj.fresh (.func none none) s.offset) by
            simp [get_newObj, show s.objs.length ≠ s.objs.length + 1 + 1 by omega])
        (fun o => { o with val := .func (some (s.objs.length + 1)) (some (s.objs.length + 1 + 1)) })
        (by simp [PyObj.fresh, PyVal.objPtrs]) (by simp [PyObj.fresh, PyVal.operPtrs]) fun _ => rfl
  all_goals exact i1

/-- `glob_obj`: the new `PY_FUNC` held, with the strings of the mnemonic as its fields; when
    the mnemonic does not give both, the `PY_FUNC` released with what it holds. -/
theorem globObj_covers (hc : Covers s h) (op : RAnalOp) :
    Covers (globObj s op).1 ((globObj s op).2.toList ++ h) := by
  have i1 := splitModuleStr_covers hc op
  rw [globObj_eq]
  simp only [newObj_snd]
  split
  exacts [i1, i1.release]

/-- `py_oper_new` of no arguments: the handler's own oper, which nothing points to. -/
theorem Covers.allocOper (hc : Covers s h) (op : PyOp) : Covers (s.newOper op []).1 h where
  objCount a := by
    have := hc.objCount a
    simpa [newOper, objRefCount, roots, memoVals] using this
  operCount p := by
    by_cases hp : p = s.opers.length
    · subst hp
      have := hc.operRefCount_of_le le_rfl
      simp only [operRefCount] at this
      simp [newOper, operRefCount, Store.held, this]
    · simpa [newOper, operRefCount, Store.held, hp] using hc.operCount p

/-- The handler's new oper of no arguments, released. -/
theorem Covers.allocOper_release (hc : Covers s h) (op : PyOp) :
    Covers ((s.newOper op []).1.releaseOper (some s.opers.length)) h :=
  (hc.allocOper op).releaseOper (hc.operRefCount_of_le le_rfl)
    (show _ = some ⟨op, [], s.offset, 0⟩ by simp [newOper]) le_rfl

/-- `stack_top_to_what` wrapping the top `top`, after `py_what_addop` allocated its own
    oper: the top moves into the `FAKE_INIT` oper of a fresh `PY_WHAT` that takes its
    place on the stack. -/
theorem Covers.wrapTop (hc : Covers s []) {rest : List Addr} {top : Addr} (hs : s.stack = rest ++ [top])
    (op : PyOp) :
    Covers { s with
      stack := rest ++ [s.objs.length]
      opers := (s.opers.alloc ⟨op, [], s.offset, 0⟩).alloc ⟨.fakeInit, [top], s.offset, 0⟩
      objs := s.objs.alloc (PyObj.fresh (.what [s.opers.length + 1]) s.offset) } [] where
  objCount a := by
    have h₁ := hc.objCount a
    have h₀ := hc.objRefCount_length.1
    simp only [objRefCount, roots, memoVals, hs, Store.countIn_alloc, List.count_append, List.count_cons,
      List.count_nil, beq_iff_eq, PyObj.fresh, PyVal.objPtrs, Store.held, Store.get_alloc,
      Option.map_some', Option.getD_some] at h₁ h₀ ⊢
    have htop : top ≠ s.objs.length := fun ht => by subst ht; simp at h₀
    by_cases ha : a = s.objs.length
    · subst ha
      simp only [htop, if_true, if_false, Option.map_some', Option.getD_some] at h₀ ⊢; push_cast; omega
    · simp only [ha, Ne.symm ha, if_false]; push_cast at h₁ ⊢; split_ifs at h₁ ⊢ <;> omega
  operCount p := by
    have h₁ := hc.operCount p
    have h₀ : ∀ q, s.opers.length ≤ q → s.operRefCount q = 0 := fun _ => hc.operRefCount_of_le
    simp only [operRefCount, Store.countIn_alloc, PyObj.fresh, PyVal.operPtrs, List.count_cons,
      List.count_nil, beq_iff_eq, Store.held, Store.get_alloc, Store.length_alloc] at h₀ h₁ ⊢
    by_cases hp : p = s.opers.length + 1
    · simp [hp, h₀ _ (Nat.le_succ _)]
    by_cases hp' : p = s.opers.length
    · simp [hp', h₀ _ le_rfl]
    · simpa [hp, hp', Ne.symm hp] using h₁

/-- `py_what_addop` with no more than `argc` objects on the stack: `list_pop_n` fails, and
    the oper is released after `stack_top_to_what` has wrapped a top that is not a
    `PY_WHAT`. -/
theorem pyWhatAddop_covers_of_le (hc : Covers s []) {argc : Nat} (hlen : s.stack.length ≤ argc)
    (op : PyOp) : Covers (pyWhatAddop s argc op).2 [] := by
  rcases List.eq_nil_or_concat s.stack with hs | ⟨rest, top, hs⟩
  · simpa [pyWhatAddop, newOper, listPopN, stackTopToWhat, hs] using hc.allocOper_release op
  rw [List.concat_eq_append] at hs
  have hp : listPopN (rest ++ [top]) argc = none := by rw [← hs]; simp [listPopN]; omega
  by_cases htw : s.typeOf top = some .what
  · have htw' : (s.objs.get top).map PyObj.type = some .what := htw
    simpa [pyWhatAddop, newOper, hp, stackTopToWhat, hs, typeOf, htw'] using hc.allocOper_release op
  · have htw' : ¬ (s.objs.get top).map PyObj.type = some .what := htw
    have := @Covers.releaseOper _ _ s.opers.length (hc.wrapTop hs op)
      (by simpa [operRefCount, Store.countIn_alloc, PyObj.fresh, PyVal.operPtrs] using
        hc.operRefCount_of_le le_rfl)
      _ (show _ = some ⟨op, [], s.offset, 0⟩ by simp) le_rfl
    simp only [pyWhatAddop, newOper, hp, stackTopToWhat, hs, popLast_concat, typeOf, htw', if_false,
      pyWhatNew, newObj]
    simpa [modObj, Store.modify_alloc_self, PyObj.fresh] using this

end Steps

/-! ## Every handler, whatever it answers -/

section Handlers

variable {s : PMState}

/-- A handler whose failing branches leave the state as they found it. -/
theorem covers_of_unchanged {r : Bool × PMState} (hi : Inv s []) (hinv : r.1 = true → Inv r.2 [])
    (hfail : r.1 = false → r.2 = s) : Covers r.2 [] :=
  covers_of_result hinv fun h => hfail h ▸ hi.covers

theorem opPop_covers (hi : Inv s []) : Covers (opPop s).2 [] :=
  covers_of_unchanged hi (opPop_inv hi) fun h => by revert h; unfold opPop; split <;> simp

theorem opPopMark_covers (hi : Inv s []) : Covers (opPopMark s).2 [] :=
  covers_of_unchanged hi (opPopMark_inv hi) fun h => by revert h; unfold opPopMark; split <;> simp

theorem opDup_covers (hi : Inv s []) : Covers (opDup s).2 [] :=
  covers_of_unchanged hi (opDup_inv hi) fun h => by revert h; unfold opDup; split <;> simp

theorem memoGet_covers (hi : Inv s []) (loc : Int) : Covers (memoGet s loc).2 [] :=
  covers_of_unchanged hi (memoGet_inv hi loc) fun h => by
    revert h; unfold memoGet
    split_ifs
    · split <;> simp
    · simp

/-- `op_float` that cannot scan its mnemonic releases the `PY_FLOAT` it made. -/
theorem opFloat_covers (hi : Inv s []) (c : RCore) (op : RAnalOp) (q : Bool) :
    Covers (opFloat c s op q).2 [] :=
  covers_of_result (opFloat_inv hi c op q) fun h => by
    revert h
    simp only [opFloat]
    cases c.sscanfLf op.mnemonic (if q then "float \"%lf\"" else "binfloat %lf")
    · exact fun _ => (hi.covers.newLeaf (.float 0) rfl rfl).release
    · simp

/-- `push_str` with no payload releases the `PY_STR` it made. -/
theorem pushStr_covers (hi : Inv s []) (c : RCore) (op : RAnalOp) : Covers (pushStr c s op).2 [] :=
  covers_of_result (pushStr_inv hi c op) fun h => by
    revert h
    simp only [pushStr]
    cases getBigStr c op
    · exact fun _ => (hi.covers.newLeaf (.str "") rfl rfl).release
    · simp

/-- `op_iter_n` that runs out of objects abandons its iterable, with what it popped
    inside: a leak. -/
theorem opIterN_covers (hi : Inv s []) (n : Nat) (t : IterType) (hd : t = .dict → n % 2 = 0) :
    Covers (opIterN s n t).2 [] :=
  covers_of_result (opIterN_inv hi n t hd) fun h => by
    revert h
    unfold opIterN pyIterNew
    simp only [newObj_stack, newObj_snd]
    rcases hl : iterNLoop n s.stack [] with ⟨_ | _, rest, items⟩
    · have happ : rest ++ items = s.stack := by simpa [hl] using iterNLoop_append n s.stack []
      exact fun _ => (hi.covers.collect t rest s.metastack s.popstack items fun a => by
        simp only [roots, ← happ, List.append_nil, List.count_append]; omega).mono (by simp)
    · simp

theorem opTypeCreateAppend_covers (hi : Inv s []) (t : IterType) :
    Covers (opTypeCreateAppend s t).2 [] :=
  covers_of_result (opTypeCreateAppend_inv hi t) fun h => by
    revert h
    have := iterToMark_covers hi.covers t
    unfold opTypeCreateAppend
    split
    · simp
    · next s' heq => rw [heq] at this; exact fun _ => this

theorem opGlobal_covers (hi : Inv s []) (op : RAnalOp) : Covers (opGlobal s op).2 [] :=
  covers_of_result (opGlobal_inv hi op) fun h => by
    revert h
    have := globObj_covers hi.covers op
    unfold opGlobal
    split
    · simp
    · next s' heq => rw [heq] at this; exact fun _ => this

theorem opStackGlobal_covers (hi : Inv s []) : Covers (opStackGlobal s).2 [] :=
  covers_of_result (opStackGlobal_inv hi) fun h => by
    revert h
    unfold opStackGlobal
    split_ifs
    · simp only [newObj_snd, newObj_stack]
      split
      · simp
      · exact fun _ => (hi.covers.newLeaf (.func none none) rfl rfl).release
    · exact fun _ => hi.covers

theorem pyWhatAddop_covers (hi : Inv s []) {argc : Nat} {op : PyOp} (hfit : operFits op argc = true) :
    Covers (pyWhatAddop s argc op).2 [] := by
  rcases Nat.lt_or_ge argc s.stack.length with hlen | hlen
  · obtain ⟨s₁, q, hi₁, hq, hl, -, heq⟩ := pyWhatAddop_record_of_lt hi hfit hlen
    rw [heq]
    split_ifs with hr
    · subst hr
      exact (splitReduce_inv hi₁ hq fun h0 => by simp [h0, operFits] at hl hfit; omega).covers
    · exact hi₁.covers
  · exact pyWhatAddop_covers_of_le hi.covers hlen op

/-- `py_what_addop_stack` with an empty frame below the mark releases its oper. -/
theorem pyWhatAddopStack_covers (hi : Inv s []) {op : PyOp} (hfit : ∀ n, operFits op n = true) :
    Covers (pyWhatAddopStack s op).2 [] :=
  covers_of_result (pyWhatAddopStack_inv hi hfit) fun h => by
    revert h
    unfold pyWhatAddopStack
    cases hm : popLast s.metastack with
    | none => exact fun _ => hi.covers
    | some v =>
      obtain ⟨ms, oldstack⟩ := v
      rw [popLast_eq_some] at hm
      rcases List.eq_nil_or_concat oldstack with rfl | ⟨rest, top, rfl⟩
      · have hc : Covers { s with metastack := ms } [] :=
          hi.covers.moveRoots s.stack ms s.popstack fun a => by simp [roots, hm]
        simpa [newOper, stackTopToWhat] using hc.allocOper_release op
      · simp only [newOper, stackTopToWhat, List.concat_eq_append, popLast_concat]
        split_ifs <;> simp

theorem opAppend_covers (hi : Inv s []) : Covers (opAppend s).2 [] :=
  covers_of_result (opAppend_inv hi) fun h => by
    revert h
    unfold opAppend
    split_ifs
    · exact fun _ => pyWhatAddop_covers hi rfl
    · split
      · next rest obj hp =>
        rw [popLast_eq_some] at hp
        rcases hq : pushToStackIter { s with stack := rest } .list obj with ⟨_ | _, s'⟩
        · have := pushToStackIter_snd_of_fst (show (pushToStackIter _ _ _).1 = false by rw [hq])
          rw [hq] at this
          subst this
          exact fun _ => hi.covers.moveRoots (rest ++ [obj]) s.metastack s.popstack fun a => by
            simp [roots, hp]
        · simp
      · exact fun _ => hi.covers
    · exact fun _ => hi.covers

theorem opAppends_covers (hi : Inv s []) {op : PyOp} {t : IterType} (hfit : ∀ n, operFits op n = true) :
    Covers (opAppends s op t).2 [] :=
  covers_of_result (opAppends_inv hi hfit) fun h => by
    revert h
    unfold opAppends
    cases s.metastack.getLast? with
    | none => exact fun _ => hi.covers
    | some prev =>
      dsimp only
      cases prev.getLast? with
      | none => exact fun _ => hi.covers
      | some obj =>
        dsimp only
        split_ifs
        · exact fun _ => pyWhatAddopStack_covers hi hfit
        · exact fun h => by rw [pyIterAppendMark_snd_of_fst h]; exact hi.covers

theorem opSetitems_covers (hi : Inv s []) : Covers (opSetitems s).2 [] :=
  covers_of_result (opSetitems_inv hi) fun h => by
    revert h
    unfold opSetitems
    cases s.metastack.getLast? with
    | none => exact fun _ => hi.covers
    | some prev =>
      dsimp only
      cases prev.getLast? with
      | none => exact fun _ => hi.covers
      | some obj =>
        dsimp only
        split_ifs
        · exact fun h => by rw [pyIterAppendMark_snd_of_fst h]; exact hi.covers
        · exact fun _ => pyWhatAddopStack_covers hi fun _ => rfl

/-- `op_setitem` whose dict is not one releases the key and the value it popped. -/
theorem opSetitem_covers (hi : Inv s []) : Covers (opSetitem s).2 [] :=
  covers_of_result (opSetitem_inv hi) fun h => by
    revert h
    unfold opSetitem
    split_ifs
    · exact fun _ => pyWhatAddop_covers hi rfl
    · split
      · next value key obj r hr =>
        have hst : s.stack = r.reverse ++ [obj, key, value] := by
          rw [← List.reverse_reverse s.stack, hr]; simp
        have hdrop : s.stack.dropLast.dropLast = r.reverse ++ [obj] := by
          rw [hst]; simp [List.dropLast_append_of_ne_nil]
        dsimp only
        split_ifs
        · simp
        · rw [hdrop]
          exact fun _ => (Covers.release (Covers.release (hi.covers.moveRoots _ _ _ fun a => by
            simp only [roots, hst, List.count_append, List.count_cons, List.count_nil]; omega)))
      · exact fun _ => hi.covers
    · exact fun _ => hi.covers

/-- `py_what_addop` below its arguments finds a top, so only `REDUCE`'s split pass can
    fail. -/
theorem pyWhatAddop_fst_of_lt {argc : Nat} {op : PyOp} (hlen : argc < s.stack.length)
    (hop : op ≠ .reduce) : (pyWhatAddop s argc op).1 = true := by
  cases hp : listPopN s.stack argc with
  | none => simp [listPopN, hlen] at hp
  | some v =>
    obtain ⟨rest, args⟩ := v
    obtain ⟨-, -, hne⟩ := listPopN_eq_some hp
    obtain ⟨rest', top, rfl⟩ : ∃ rest' top, rest = rest' ++ [top] :=
      ⟨rest.dropLast, rest.getLast hne, (List.dropLast_append_getLast hne).symm⟩
    by_cases htw : s.typeOf top = some .what
    · rw [pyWhatAddop_of_what hp htw op]; simp [hop]
    · rw [pyWhatAddop_of_wrap hp htw op]; simp [hop]

/-- `insantiate` after `iter_to_mark`, with the class, if there is one, held: with both,
    the oper is recorded; otherwise what is there is released. -/
theorem insantiate_covers {s₁ s₂ : PMState} {cls args : Option Addr} (hc : Covers s₁ cls.toList)
    (hi : ∀ c, cls = some c → Inv s₁ [c] ∧ ¬ s₁.IsSplit c) (op : RAnalOp)
    (ht : iterToMark s₁ .list = (s₂, args)) : Covers (insantiate s₂ op cls args).2 [] := by
  have i1 := iterToMark_covers hc .list
  rw [ht] at i1
  rcases cls with _ | c <;> rcases args with _ | a
  · exact i1
  · exact i1.release
  · exact i1.release
  · obtain ⟨hi₁, hc₁⟩ := hi c rfl
    have hT : (insantiate s₂ op (some c) (some a)).1 = true := by
      obtain ⟨rfl, -, prev, -, -, rfl⟩ := iterToMark_some ht
      exact pyWhatAddop_fst_of_lt (by simp [push]) (by split <;> decide)
    exact (insantiate_inv hi₁ hc₁ op ht hT).covers

theorem opInst_covers (hi : Inv s []) (op : RAnalOp) : Covers (opInst s op).2 [] := by
  have hc := globObj_covers hi.covers op
  unfold opInst
  generalize hg : globObj s op = g at hc
  rcases g with ⟨s₁, cls⟩
  dsimp only
  rcases ht : iterToMark s₁ .list with ⟨s₂, args⟩
  exact @insantiate_covers s₁ s₂ cls args (by simpa using hc)
    (fun c hcls => by subst hcls; exact globObj_inv hi hg) op ht

theorem opObj_covers (hi : Inv s []) (op : RAnalOp) : Covers (opObj s op).2 [] := by
  unfold opObj
  cases hst : s.stack with
  | nil =>
    dsimp only
    rcases ht : iterToMark s .list with ⟨s₂, args⟩
    exact @insantiate_covers s s₂ none args hi.covers (fun _ h => nomatch h) op ht
  | cons c rest =>
    have i1 : Inv { s with stack := rest } ([] ++ [c]) := by
      refine hi.moveRoots _ _ _ (fun a => ?_) fun a ha => hi.rootsNoSplit a ?_
      · simp only [roots, hst, List.count_append, List.count_cons, List.count_nil]; omega
      · simp only [roots, hst, List.mem_append, List.mem_cons] at ha ⊢; tauto
    dsimp only
    rcases ht : iterToMark { s with stack := rest } .list with ⟨s₂, args⟩
    exact @insantiate_covers _ s₂ (some c) args i1.covers
      (fun _ h => by cases h; exact ⟨i1, hi.rootsNoSplit c (by simp [roots, hst])⟩) op ht

/-- Every call of `exec_op` from a state satisfying the invariant leaves a state where no
    cell has more owners than its count, whatever the call answered. -/
theorem execOp_covers (hi : Inv s []) (c : RCore) (op : RAnalOp) (code : PyOp) :
    Covers (execOp c s op code).2 [] := by
  cases code <;> unfold execOp <;> dsimp only
  case proto => split_ifs; exacts [hi.covers, ⟨hi.covers.1, hi.covers.2⟩]
  case mark => exact (opMark_inv hi).covers
  case pop => exact opPop_covers hi
  case popMark => exact opPopMark_covers hi
  case none => exact (opNone_inv hi).covers
  case binint | binint1 | binint2 | long1 | long4 => exact (pushIntType_inv hi op).covers
  case float | binfloat => exact opFloat_covers hi c op _
  case string | unicode | binunicode8 | binbytes8 | bytearray8 | binstring | binunicode | binbytes
    | shortBinbytes | shortBinstring | shortBinunicode => exact pushStr_covers hi c op
  case obj => exact opObj_covers hi op
  case inst => exact opInst_covers hi op
  case global => exact opGlobal_covers hi op
  case stackGlobal => exact opStackGlobal_covers hi
  case newobj | build | reduce => exact pyWhatAddop_covers hi rfl
  case tuple | list | dict | frozenset => exact opTypeCreateAppend_covers hi _
  case emptyTuple | tuple1 | tuple2 | tuple3 | emptyList | emptyDict | emptySet =>
    exact opIterN_covers hi _ _ (by decide)
  case append => exact opAppend_covers hi
  case appends | additems => exact opAppends_covers hi fun _ => rfl
  case setitem => exact opSetitem_covers hi
  case setitems => exact opSetitems_covers hi
  case newtrue | newfalse => exact (opNewbool_inv hi _).covers
  case memoize | longBinput | binput => exact (memoPut_inv hi _).1.covers
  case longBinget | binget => exact memoGet_covers hi _
  case dup => exact opDup_covers hi
  all_goals exact hi.covers

end Handlers

/-! ## `run_pvm` and the teardown of `pickle_dec` -/

/-- `empty_memo` releases the memo's references. -/
theorem Covers.emptyMemo {s : PMState} (hc : Covers s []) : Covers (emptyMemo s) [] :=
  of_heapsOnly (emptyMemo_bounded s 0).choose_spec.2.2.1
    (emptyMemo_frees s.roots s.memo { s with memo := [] } (hc.backed.of_heaps rfl rfl)).2.1

/-- `run_pvm`'s loop, from a state satisfying the invariant, stops in a covered state,
    whether a handler failed or not. -/
theorem runLoop_covers (c : RCore) :
    ∀ (ops : List (PyOp × RAnalOp)) (s : PMState), Inv s [] → Covers (runLoop c s ops).2 []
  | [], _, hi => hi.covers
  | (code, op) :: rest, s, hi => by
    unfold runLoop
    split_ifs
    · exact hi.covers
    have hc := execOp_covers hi c op code
    rcases he : execOp c s op code with ⟨_ | _, s₁⟩
    · rw [he] at hc; exact hc
    · have hi₁ := execOp_inv hi c op code (by rw [he])
      rw [he] at hi₁
      exact runLoop_covers c rest _ (hi₁.advance op.size)

theorem runPvm_covers (c : RCore) {s : PMState} (hi : Inv s []) (ops : List (PyOp × RAnalOp)) :
    Covers (runPvm c s ops).2 [] := by
  have hc := runLoop_covers c ops s hi
  unfold runPvm
  generalize runLoop c s ops = r at hc ⊢
  rcases r with ⟨_ | _, t⟩
  exacts [hc, hc.emptyMemo]

/-- The state `pickle_dec` has after `init_machine_state` and `run_pvm`, whatever
    `run_pvm` answered. -/
theorem runPvm_init_covers {c : RCore} {s₀ s : PMState} {ok : Bool} {ops : List (PyOp × RAnalOp)}
    (hinit : initMachineState c = some s₀) (h : runPvm c { s₀ with breakOnStop := true } ops = (ok, s)) :
    Covers s [] := by
  have hi := (Reachable.init hinit).inv
  have hc := runPvm_covers c (s := { s₀ with breakOnStop := true }) (hi.control s₀.offset s₀.ver true) ops
  rwa [h] at hc

/-- `pickle_dec` runs `empty_state` on the state `run_pvm` leaves whatever `run_pvm`
    answered: after a handler failed, as after a run that got through, no free it makes
    reads, writes or frees a freed cell. -/
theorem pickleDec_teardown_safe (c : RCore) (s₀ s : PMState) (ok : Bool) (ops : List (PyOp × RAnalOp))
    (hinit : initMachineState c = some s₀) (h : runPvm c { s₀ with breakOnStop := true } ops = (ok, s)) :
    emptyStateChecked s = some (emptyState s) :=
  emptyStateChecked_of_backed s (runPvm_init_covers hinit h).backed

/-- The state `run_pvm` leaves, which `pickle_dec` dumps and then tears down, whatever
    `run_pvm` answered: no object has more owning references than its count (`refcnt + 1`,
    zero once freed), and no oper either. A failed handler may leave a count too high,
    never too low, so no reference names a freed cell. -/
theorem runPvm_counts_cover_owners (c : RCore) (s₀ s : PMState) (ok : Bool) (ops : List (PyOp × RAnalOp))
    (hinit : initMachineState c = some s₀) (h : runPvm c { s₀ with breakOnStop := true } ops = (ok, s)) :
    (∀ a, (s.objRefCount a : Int) ≤ s.objs.held PyObj.refcnt a) ∧
      ∀ p, (s.operRefCount p : Int) ≤ s.opers.held PyOper.refcnt p :=
  let hc := runPvm_init_covers hinit h
  ⟨fun a => by simpa using hc.objCount a, hc.operCount⟩

/-! ## The iterable `op_iter_n` abandons -/

/-- The loop of `op_iter_n` on fewer than `n` objects pops them all, then fails. -/
theorem iterNLoop_of_lt : ∀ (n : Nat) (stack items : List Addr), stack.length < n →
    iterNLoop n stack items = (false, [], stack ++ items)
  | 0, _, _, h => absurd h (Nat.not_lt_zero _)
  | n + 1, stack, items, h => by
    rcases List.eq_nil_or_concat stack with rfl | ⟨st, o, rfl⟩
    · rfl
    · simp only [List.concat_eq_append, List.length_append, List.length_singleton] at h
      simp only [List.concat_eq_append, iterNLoop, popLast_concat, iterNLoop_of_lt n st (o :: items) (by omega),
        List.append_assoc, List.singleton_append]

/-- `op_iter_n` on a frame of fewer than `n` objects: it fails with the frame popped into
    the new iterable, which nothing owns, and `empty_state` never frees it. -/
theorem opIterN_short_leaks (c : RCore) (s : PMState) (hs : Reachable c s) (n : Nat) (t : IterType)
    (hn : s.stack.length < n) :
    (opIterN s n t).1 = false ∧ (opIterN s n t).2.stack = [] ∧
      (opIterN s n t).2.objRefCount s.objs.length = 0 ∧
      (emptyState (opIterN s n t).2).objs.get s.objs.length =
        some ((PyObj.fresh (.iter t []) s.offset).withItems s.stack) := by
  have heq : opIterN s n t = (false, ({ (s.newObj (.iter t [])).1 with
      stack := [], metastack := s.metastack, popstack := s.popstack }).setItems s.objs.length s.stack) := by
    simp only [opIterN, pyIterNew, newObj_stack, newObj_snd, iterNLoop_of_lt n s.stack [] hn, List.append_nil]
    rfl
  have i1 : Covers (opIterN s n t).2 [s.objs.length] := by
    rw [heq]
    exact hs.inv.covers.collect t [] s.metastack s.popstack s.stack fun a => by
      simp only [roots, List.nil_append, List.count_append]; omega
  have hget : (opIterN s n t).2.objs.get s.objs.length =
      some ((PyObj.fresh (.iter t []) s.offset).withItems s.stack) := by
    rw [heq]; simp [setItems, modObj, get_newObj]
  refine ⟨by rw [heq], by rw [heq]; rfl, ?_⟩
  generalize (opIterN s n t).2 = S at i1 hget ⊢
  have h0 : S.objRefCount s.objs.length = 0 := by
    have := i1.objCount s.objs.length
    simp only [Store.held, hget, Option.map_some', Option.getD_some, PyObj.withItems_refcnt, PyObj.fresh,
      List.count_singleton_self] at this
    omega
  have hkeep := (emptyState_keeps_unowned (show Covers S [] from i1.mono fun _ => by simp).backed).1 s.objs.length
    (by have := owners_roots S [] s.objs.length; simp only [List.nil_append, List.count_nil] at this; omega)
  exact ⟨h0, hkeep.trans hget⟩

/-- `EMPTY_LIST, TUPLE2`: `TUPLE2` pops the list into its tuple, then finds the stack
    empty and fails. -/
def abandonedTupleOps : List (PyOp × RAnalOp) := [(.emptyList, .imm 0), (.tuple2, .imm 0)]

/-- The teardown after the failing `TUPLE2` is safe, and leaves the abandoned tuple and the
    list inside it live. -/
theorem pickleDec_teardown_safe_abandoned_tuple :
    ∃ s, runPvm .plain { initState 0 with breakOnStop := true } abandonedTupleOps = (false, s) ∧
      emptyStateChecked s = some (emptyState s) ∧
      ((emptyState s).objs.get 0).isSome ∧ ((emptyState s).objs.get 1).isSome :=
  ⟨_, rfl, pickleDec_teardown_safe .plain (initState 0) _ false abandonedTupleOps rfl rfl, rfl, rfl⟩

/-- After the failing `TUPLE2`, the abandoned tuple has no owning reference and a count
    of one. -/
theorem runPvm_counts_cover_owners_abandoned_tuple :
    ∃ s, runPvm .plain { initState 0 with breakOnStop := true } abandonedTupleOps = (false, s) ∧
      ((∀ a, (s.objRefCount a : Int) ≤ s.objs.held PyObj.refcnt a) ∧
        ∀ p, (s.operRefCount p : Int) ≤ s.opers.held PyOper.refcnt p) ∧
      s.objs.held PyObj.refcnt 1 = 1 ∧ s.objRefCount 1 = 0 :=
  ⟨_, rfl, runPvm_counts_cover_owners .plain (initState 0) _ false abandonedTupleOps rfl rfl, rfl, rfl⟩

/-- `TUPLE2` on the one list `EMPTY_LIST` pushed. -/
theorem opIterN_short_leaks_tuple2 :
    ∃ s, execRun .plain (initState 0) [(.emptyList, .imm 0)] = some s ∧
      (opIterN s 2 .tuple).1 = false ∧ (opIterN s 2 .tuple).2.stack = [] ∧
      (opIterN s 2 .tuple).2.objRefCount s.objs.length = 0 ∧
      (emptyState (opIterN s 2 .tuple).2).objs.get s.objs.length =
        some ((PyObj.fresh (.iter .tuple []) s.offset).withItems s.stack) :=
  ⟨_, rfl, opIterN_short_leaks .plain _
    (Reachable.of_plainRun (show execRun .plain (initState 0) [(.emptyList, .imm 0)] = _ from rfl)) 2 .tuple
    (by decide)⟩

end PickleDec
