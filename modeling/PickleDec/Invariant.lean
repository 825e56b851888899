import PickleDec.Graph

/-!
# The heap invariant

What holds of every state that `init_machine_state` and successful `exec_op` calls
reach, as one structure `Inv`:

* reference counts, as the ownership note at the top of `pickle_dec.c` describes them:
  a live object's `refcnt` is one less than the number of its owning references, a
  live oper's likewise, and nothing points to a freed cell;
* every live object other than a `PY_SPLIT` is reachable from the roots along edges
  no handler removes (`ReachNS`), and every live oper is recorded on a live `PY_WHAT`;
* the shape of a `PY_WHAT`'s oper list;
* where the `PY_SPLIT` markers of the `REDUCE` pass may be: only among the elements of
  lists, sets, frozensets and dicts, never two in a row, never inside a dict's
  key/value pair;
* generation marks: no object carries a `recurse` above the machine's;
* the memo has one entry per slot.

`Inv s h` counts the objects listed in `h` as owned too: they are the local variables
of a handler halfway through (a fresh object not pushed yet, the split `split_reduce`
holds during its pass). A handler is then a chain of steps, each keeping `Inv` with
the handles it holds; `Reachable` states satisfy `Inv s []`.
-/

set_option autoImplicit false

namespace PickleDec

/-- The objects a payload owns in places no `PY_SPLIT` may take: the elements of a
    tuple and the fields of a `PY_FUNC`. -/
def PyVal.fixedPtrs : PyVal → List Addr
  | .iter .tuple items => items
  | .func m n => m.toList ++ n.toList
  | _ => []

theorem PyVal.mem_objPtrs_of_mem_fixedPtrs {v : PyVal} {a : Addr} (h : a ∈ v.fixedPtrs) :
    a ∈ v.objPtrs := by
  rcases v with _ | _ | _ | _ | _ | _ | ⟨_ | _ | _ | _ | _, _⟩ | _ | _ <;>
    simp_all [fixedPtrs, objPtrs]

/-- The arities an oper recorded after `FAKE_INIT` can have, by opcode: one argument
    for the `argc = 1` calls of `py_what_addop`, two for `SETITEM`, and any number for
    the mark-bounded calls of `py_what_addop_stack`, which record `APPENDS` under the
    tag `APPEND`. -/
def operFits : PyOp → Nat → Bool
  | .reduce, n | .build, n | .newobj, n | .inst, n | .obj, n => n == 1
  | .setitem, n => n == 2
  | .append, _ | .setitems, _ | .additems, _ => true
  | _, _ => false

namespace PMState

/-- The objects held as memo values. -/
def memoVals (s : PMState) : List Addr := s.memo.filterMap Prod.snd

/-- The owning references to the object `a`: on the stack, the saved frames and
    `popstack`, as a memo value, as an element or field of a live object, and as an
    argument of a live oper. -/
def objRefCount (s : PMState) (a : Addr) : Nat :=
  s.roots.count a + s.memoVals.count a + s.objs.countIn (fun o => o.val.objPtrs) a +
    s.opers.countIn PyOper.stack a

/-- The owning references to the oper `p`: the `PY_WHAT` lists and `PY_SPLIT`s naming it. -/
def operRefCount (s : PMState) (p : OAddr) : Nat := s.objs.countIn (fun o => o.val.operPtrs) p

/-- `a` is a live `PY_SPLIT`. -/
def IsSplit (s : PMState) (a : Addr) : Prop := s.typeOf a = some .split

instance (s : PMState) : DecidablePred s.IsSplit :=
  fun a => inferInstanceAs (Decidable (s.typeOf a = some .split))

/-- `a` is reachable along `ReachNS` from a root or from one of the handles `h`. -/
def Rooted (s : PMState) (h : List Addr) (a : Addr) : Prop := ∃ r ∈ s.roots ++ h, ReachNS s r a

/-- No two adjacent elements of `xs` are `PY_SPLIT`s. -/
def SplitsApart (s : PMState) (xs : List Addr) : Prop :=
  xs.Chain' fun x y => ¬ (s.IsSplit x ∧ s.IsSplit y)

/-- The number of elements of `xs` that are not `PY_SPLIT`s. -/
def nonSplits (s : PMState) (xs : List Addr) : Nat := xs.countP fun x => !decide (s.IsSplit x)

/-- A dict's elements: the non-split ones are even in number, and every split is
    preceded by an even number of them, so no split separates a key from its value. -/
def DictPaired (s : PMState) (xs : List Addr) : Prop :=
  s.nonSplits xs % 2 = 0 ∧
    ∀ i (hi : i < xs.length), s.IsSplit xs[i] → s.nonSplits (xs.take i) % 2 = 0

/-- The oper list of a `PY_WHAT`: a first `FAKE_INIT` of one object that is not a
    `PY_WHAT`, then opers whose arities fit their opcodes (`operFits`, which refuses
    `FAKE_INIT`). -/
def WhatShape (s : PMState) (ops : List OAddr) : Prop :=
  ∃ p rest, ops = p :: rest ∧
    (∃ q x, s.opers.get p = some q ∧ q.op = .fakeInit ∧ q.stack = [x] ∧ s.typeOf x ≠ some .what) ∧
    ∀ p' ∈ rest, ∃ q, s.opers.get p' = some q ∧ operFits q.op q.stack.length = true

end PMState

open PMState

/-- The invariant of reachable states; `h` are the objects a running handler holds. -/
structure Inv (s : PMState) (h : List Addr) : Prop where
  objCount : ∀ a, (s.objRefCount a + h.count a : Int) = s.objs.held PyObj.refcnt a
  operCount : ∀ p, (s.operRefCount p : Int) = s.opers.held PyOper.refcnt p
  rooted : ∀ a o, s.objs.get a = some o → ¬ s.IsSplit a → s.Rooted h a
  operOwned : ∀ p q, s.opers.get p = some q → ∃ w o, s.objs.get w = some o ∧ p ∈ o.val.whatOps
  whatShape : ∀ w o, s.objs.get w = some o → o.type = .what → s.WhatShape o.val.whatOps
  rootsNoSplit : ∀ a ∈ s.roots, ¬ s.IsSplit a
  memoNoSplit : ∀ a ∈ s.memoVals, ¬ s.IsSplit a
  argsNoSplit : ∀ p q, s.opers.get p = some q → ∀ a ∈ q.stack, ¬ s.IsSplit a
  fixedNoSplit : ∀ b o, s.objs.get b = some o → ∀ a ∈ o.val.fixedPtrs, ¬ s.IsSplit a
  apart : ∀ b o, s.objs.get b = some o → s.SplitsApart o.val.objPtrs
  paired : ∀ b o xs, s.objs.get b = some o → o.val = .iter .dict xs → s.DictPaired xs
  recurseLe : ∀ a o, s.objs.get a = some o → o.recurse ≤ s.recurse
  memoKeys : (s.memo.map Prod.fst).Nodup

/-! ## Views of the state through the primitives -/

namespace PMState

variable (s : PMState)

@[simp] theorem newObj_opers (v : PyVal) : (s.newObj v).1.opers = s.opers := rfl
@[simp] theorem newObj_stack (v : PyVal) : (s.newObj v).1.stack = s.stack := rfl
@[simp] theorem newObj_metastack (v : PyVal) : (s.newObj v).1.metastack = s.metastack := rfl
@[simp] theorem newObj_popstack (v : PyVal) : (s.newObj v).1.popstack = s.popstack := rfl
@[simp] theorem newObj_memo (v : PyVal) : (s.newObj v).1.memo = s.memo := rfl
@[simp] theorem newObj_recurse (v : PyVal) : (s.newObj v).1.recurse = s.recurse := rfl
@[simp] theorem newObj_offset (v : PyVal) : (s.newObj v).1.offset = s.offset := rfl
@[simp] theorem newObj_snd (v : PyVal) : (s.newObj v).2 = s.objs.length := rfl
@[simp] theorem length_newObj (v : PyVal) : (s.newObj v).1.objs.length = s.objs.length + 1 := by
  simp [newObj]
@[simp] theorem roots_newObj (v : PyVal) : (s.newObj v).1.roots = s.roots := rfl
@[simp] theorem memoVals_newObj (v : PyVal) : (s.newObj v).1.memoVals = s.memoVals := rfl

theorem get_newObj (v : PyVal) (a : Addr) :
    (s.newObj v).1.objs.get a =
      if a = s.objs.length then some (PyObj.fresh v s.offset) else s.objs.get a := by
  simp [newObj]

theorem childrenNS_of_get_none {a : Addr} (h : s.objs.get a = none) : s.childrenNS a = [] := by
  simp [childrenNS, h]

theorem typeOf_newObj (v : PyVal) (a : Addr) :
    (s.newObj v).1.typeOf a = if a = s.objs.length then some v.type else s.typeOf a := by
  by_cases h : a = s.objs.length <;> simp [typeOf, newObj, h, PyObj.fresh, PyObj.type]

theorem objRefCount_newObj (v : PyVal) (a : Addr) :
    (s.newObj v).1.objRefCount a = s.objRefCount a + v.objPtrs.count a := by
  simp [objRefCount, newObj, roots, memoVals, PyObj.fresh]; omega

theorem operRefCount_newObj (v : PyVal) (p : OAddr) :
    (s.newObj v).1.operRefCount p = s.operRefCount p + v.operPtrs.count p := by
  simp [operRefCount, newObj, PyObj.fresh]

@[simp] theorem operArgs_setObjs (objs : Store PyObj) :
    ({ s with objs := objs } : PMState).operArgs = s.operArgs := rfl

theorem childrenNS_newObj (v : PyVal) (a : Addr) :
    (s.newObj v).1.childrenNS a =
      if a = s.objs.length then v.objPtrs ++ v.whatOps.flatMap s.operArgs else s.childrenNS a := by
  by_cases h : a = s.objs.length
  · simp [childrenNS, h, newObj, PyObj.fresh]
  · rw [if_neg h]; unfold childrenNS; simp [newObj, h]

@[simp] theorem setItems_objs (c : Addr) (ys : List Addr) :
    (s.setItems c ys).objs = s.objs.modify c (·.withItems ys) := rfl
@[simp] theorem setItems_opers (c : Addr) (ys : List Addr) : (s.setItems c ys).opers = s.opers := rfl
@[simp] theorem roots_setItems (c : Addr) (ys : List Addr) : (s.setItems c ys).roots = s.roots := rfl
@[simp] theorem memoVals_setItems (c : Addr) (ys : List Addr) :
    (s.setItems c ys).memoVals = s.memoVals := rfl
@[simp] theorem setItems_memo (c : Addr) (ys : List Addr) : (s.setItems c ys).memo = s.memo := rfl
@[simp] theorem setItems_recurse (c : Addr) (ys : List Addr) :
    (s.setItems c ys).recurse = s.recurse := rfl
@[simp] theorem operArgs_setItems (c : Addr) (ys : List Addr) :
    (s.setItems c ys).operArgs = s.operArgs := rfl

theorem get_setItems (c : Addr) (ys : List Addr) (a : Addr) :
    (s.setItems c ys).objs.get a =
      if c = a then (s.objs.get a).map (·.withItems ys) else s.objs.get a := by
  simp [setItems, modObj]

@[simp] theorem typeOf_setItems (c : Addr) (ys : List Addr) (a : Addr) :
    (s.setItems c ys).typeOf a = s.typeOf a := by
  simp only [typeOf, get_setItems]
  split_ifs <;> cases s.objs.get a <;> simp

@[simp] theorem isSplit_setItems (c : Addr) (ys : List Addr) (a : Addr) :
    (s.setItems c ys).IsSplit a ↔ s.IsSplit a := by
  simp [IsSplit]

theorem get_setItems_self {c : Addr} {o : PyObj} {t : IterType} {xs : List Addr}
    (hc : s.objs.get c = some o) (hv : o.val = .iter t xs) (ys : List Addr) :
    (s.setItems c ys).objs.get c = some { o with val := .iter t ys } := by
  simp [get_setItems, hc, PyObj.withItems, hv]

theorem objRefCount_setItems {c : Addr} {o : PyObj} {t : IterType} {xs : List Addr}
    (hc : s.objs.get c = some o) (hv : o.val = .iter t xs) (ys : List Addr) (a : Addr) :
    (s.setItems c ys).objRefCount a + xs.count a = s.objRefCount a + ys.count a := by
  have := Store.countIn_modify (fun o : PyObj => o.val.objPtrs) s.objs c a (·.withItems ys)
  simp only [hc, Option.map_some', Store.cnt_some, PyObj.withItems_val hv, hv,
    PyVal.objPtrs_iter] at this
  simp only [objRefCount, roots_setItems, memoVals_setItems, setItems_objs, setItems_opers]
  omega

theorem operRefCount_setItems (c : Addr) (ys : List Addr) (p : OAddr) :
    (s.setItems c ys).operRefCount p = s.operRefCount p := by
  refine Store.countIn_modify_of _ _ _ _ _ fun o => ?_
  unfold PyObj.withItems; split <;> simp_all

@[simp] theorem modObj_objs (b : Addr) (f : PyObj → PyObj) :
    (s.modObj b f).objs = s.objs.modify b f := rfl
@[simp] theorem modObj_opers (b : Addr) (f : PyObj → PyObj) : (s.modObj b f).opers = s.opers := rfl
@[simp] theorem modObj_memo (b : Addr) (f : PyObj → PyObj) : (s.modObj b f).memo = s.memo := rfl
@[simp] theorem modObj_recurse (b : Addr) (f : PyObj → PyObj) :
    (s.modObj b f).recurse = s.recurse := rfl
@[simp] theorem roots_modObj (b : Addr) (f : PyObj → PyObj) : (s.modObj b f).roots = s.roots := rfl
@[simp] theorem memoVals_modObj (b : Addr) (f : PyObj → PyObj) :
    (s.modObj b f).memoVals = s.memoVals := rfl
@[simp] theorem operArgs_modObj (b : Addr) (f : PyObj → PyObj) :
    (s.modObj b f).operArgs = s.operArgs := rfl

section KeepVal

/-! ### Updates that keep the payload: `refcnt`, `recurse` -/

variable {f : PyObj → PyObj} (hf : ∀ o, (f o).val = o.val) (b : Addr)
include hf

theorem get_modObj_val (a : Addr) :
    ((s.modObj b f).objs.get a).map PyObj.val = (s.objs.get a).map PyObj.val := by
  simp only [modObj, Store.get_modify]; split_ifs <;> cases s.objs.get a <;> simp [hf]

theorem typeOf_modObj (a : Addr) : (s.modObj b f).typeOf a = s.typeOf a := by
  have := get_modObj_val s hf b a
  simp only [typeOf]
  cases h1 : (s.modObj b f).objs.get a <;> cases h2 : s.objs.get a <;> simp_all [PyObj.type]

theorem isSplit_modObj (a : Addr) : (s.modObj b f).IsSplit a ↔ s.IsSplit a := by
  simp [IsSplit, typeOf_modObj s hf]

theorem objRefCount_modObj (a : Addr) : (s.modObj b f).objRefCount a = s.objRefCount a := by
  simp only [objRefCount, modObj]
  rw [Store.countIn_modify_of _ _ _ _ _ fun o => by rw [hf]]
  rfl

theorem operRefCount_modObj (p : OAddr) : (s.modObj b f).operRefCount p = s.operRefCount p := by
  simp only [operRefCount, modObj]
  exact Store.countIn_modify_of _ _ _ _ _ fun o => by rw [hf]

theorem childrenNS_modObj (a : Addr) : (s.modObj b f).childrenNS a = s.childrenNS a := by
  have := get_modObj_val s hf b a
  unfold childrenNS
  cases h1 : (s.modObj b f).objs.get a <;> cases h2 : s.objs.get a <;> simp_all

end KeepVal

theorem exists_what_of_typeOf {a : Addr} (h : s.typeOf a = some .what) :
    ∃ o ops, s.objs.get a = some o ∧ o.val = .what ops := by
  unfold typeOf at h
  obtain ⟨o, ho, hty⟩ := Option.map_eq_some'.mp h
  refine ⟨o, o.val.whatOps, ho, ?_⟩
  rcases o with ⟨_ | _ | _ | _ | _ | _ | ⟨_ | _ | _ | _ | _, _⟩ | _ | _, _, _, _, _, _⟩ <;>
    simp_all [PyObj.type, PyVal.type, IterType.type]

theorem itemsOf_of_iter {a : Addr} {o : PyObj} {t : IterType} {xs : List Addr}
    (hc : s.objs.get a = some o) (hv : o.val = .iter t xs) : s.itemsOf a = xs := by
  unfold itemsOf; rw [hc]
  obtain ⟨v, _, _, _, _, _⟩ := o
  cases hv; rfl

/-- An object whose tag is an iterable's holds that iterable's payload. -/
theorem exists_iter_of_typeOf {a : Addr} {t : IterType} (h : s.typeOf a = some t.type) :
    ∃ o, s.objs.get a = some o ∧ o.val = .iter t (s.itemsOf a) := by
  unfold typeOf at h
  obtain ⟨o, ho, hty⟩ := Option.map_eq_some'.mp h
  refine ⟨o, ho, ?_⟩
  rcases o with ⟨_ | _ | _ | _ | _ | _ | ⟨t', xs⟩ | _ | _, _, _, _, _, _⟩ <;>
    cases t <;> simp_all [PyObj.type, PyVal.type, IterType.type, itemsOf] <;>
    cases t' <;> simp_all [IterType.type]

@[simp] theorem typeOf_bumpObj (a : Addr) (d : Int) (x : Addr) :
    (s.bumpObj a d).typeOf x = s.typeOf x :=
  @typeOf_modObj s (fun o => { o with refcnt := o.refcnt + d }) (fun _ => rfl) a x

@[simp] theorem childrenNS_bumpObj (a : Addr) (d : Int) (x : Addr) :
    (s.bumpObj a d).childrenNS x = s.childrenNS x :=
  @childrenNS_modObj s (fun o => { o with refcnt := o.refcnt + d }) (fun _ => rfl) a x

@[simp] theorem isSplit_bumpObj (a : Addr) (d : Int) (x : Addr) :
    (s.bumpObj a d).IsSplit x ↔ s.IsSplit x :=
  @isSplit_modObj s (fun o => { o with refcnt := o.refcnt + d }) (fun _ => rfl) a x

theorem isSplit_newObj_of_lt (v : PyVal) {a : Addr} (ha : a < s.objs.length) :
    (s.newObj v).1.IsSplit a ↔ s.IsSplit a := by
  simp [IsSplit, typeOf_newObj, Nat.ne_of_lt ha]

/-- An object some object points to along `childrenNS` has an owner outside the
    stacks and the memo. -/
theorem ownedPtrs_pos_of_child {a b : Addr} (ha : a ∈ s.childrenNS b) :
    0 < s.objs.countIn (fun o => o.val.objPtrs) a + s.opers.countIn PyOper.stack a := by
  unfold childrenNS at ha
  split at ha
  · next o hb =>
    rcases List.mem_append.mp ha with ha | ha
    · have := Store.countIn_pos (fun o : PyObj => o.val.objPtrs) hb ha; omega
    · obtain ⟨p, -, hp⟩ := List.mem_flatMap.mp ha
      unfold operArgs at hp
      cases hq : s.opers.get p with
      | none => simp [hq] at hp
      | some q => have := Store.countIn_pos PyOper.stack hq (by simpa [hq] using hp); omega
  · simp at ha

/-- A live `PY_SPLIT` holds a split payload. -/
theorem exists_split_of_isSplit {a : Addr} (h : s.IsSplit a) :
    ∃ o r, s.objs.get a = some o ∧ o.val = .split r := by
  unfold IsSplit typeOf at h
  obtain ⟨o, ho, hty⟩ := Option.map_eq_some'.mp h
  refine ⟨o, ?_, ho, ?_⟩
  · exact match o.val with | .split r => r | _ => none
  rcases o with ⟨_ | _ | _ | _ | _ | _ | ⟨_ | _ | _ | _ | _, _⟩ | _ | _, _, _, _, _, _⟩ <;>
    simp_all [PyObj.type, PyVal.type, IterType.type]

/-- A `PY_SPLIT` has no edges along `childrenNS`. -/
theorem childrenNS_of_isSplit {a : Addr} (h : s.IsSplit a) : s.childrenNS a = [] := by
  obtain ⟨o, r, ho, hv⟩ := exists_split_of_isSplit s h
  simp [childrenNS, ho, hv, PyVal.objPtrs, PyVal.whatOps]

/-! ## Transfer along agreeing types -/

variable {s} {s' : PMState}

theorem SplitsApart.congr {xs : List Addr} (hx : ∀ x ∈ xs, s'.IsSplit x ↔ s.IsSplit x)
    (h : s.SplitsApart xs) : s'.SplitsApart xs := by
  unfold SplitsApart at *
  rw [List.Chain'.iff_mem] at h ⊢
  exact h.imp fun a b ⟨ha, hb, hab⟩ => ⟨ha, hb, by rwa [hx a ha, hx b hb]⟩

theorem nonSplits_congr {xs : List Addr} (hx : ∀ x ∈ xs, s'.IsSplit x ↔ s.IsSplit x) :
    s'.nonSplits xs = s.nonSplits xs :=
  List.countP_congr fun x hm => by simp [hx x hm]

theorem DictPaired.congr {xs : List Addr} (hx : ∀ x ∈ xs, s'.IsSplit x ↔ s.IsSplit x)
    (h : s.DictPaired xs) : s'.DictPaired xs := by
  refine ⟨nonSplits_congr hx ▸ h.1, fun i hi hs => ?_⟩
  rw [nonSplits_congr fun x hm => hx x (List.mem_of_mem_take hm)]
  exact h.2 i hi ((hx _ (List.getElem_mem hi)).mp hs)

theorem WhatShape.congr {ops : List OAddr} (h : s.WhatShape ops)
    (hop : ∀ p q, s.opers.get p = some q →
      ∃ q', s'.opers.get p = some q' ∧ q'.op = q.op ∧ q'.stack = q.stack)
    (hty : ∀ p q, s.opers.get p = some q → ∀ x ∈ q.stack, s'.typeOf x = s.typeOf x) :
    s'.WhatShape ops := by
  obtain ⟨p, rest, rfl, ⟨q, x, hq, hop1, hst, hx⟩, hrest⟩ := h
  obtain ⟨q', hq', hop', hst'⟩ := hop p q hq
  refine ⟨p, rest, rfl, ⟨q', x, hq', hop' ▸ hop1, hst' ▸ hst, ?_⟩, fun p' hp' => ?_⟩
  · rwa [hty p q hq x (by simp [hst])]
  · obtain ⟨r, hr, hfit⟩ := hrest p' hp'
    obtain ⟨r', hr', hop'', hst''⟩ := hop p' r hr
    exact ⟨r', hr', by rw [hop'', hst'']; exact hfit⟩

theorem WhatShape.snoc {ops : List OAddr} (h : s.WhatShape ops) {p : OAddr} {q : PyOper}
    (hq : s.opers.get p = some q) (hfit : operFits q.op q.stack.length = true) :
    s.WhatShape (ops ++ [p]) := by
  obtain ⟨p₀, rest, rfl, hfirst, hrest⟩ := h
  refine ⟨p₀, rest ++ [p], rfl, hfirst, fun p' hp' => ?_⟩
  rcases List.mem_append.mp hp' with hp' | hp'
  · exact hrest p' hp'
  · rw [List.mem_singleton.mp hp']; exact ⟨q, hq, hfit⟩

theorem Rooted.mono {h h' : List Addr} (hE : ∀ x, ∀ y ∈ s.childrenNS x, y ∈ s'.childrenNS x)
    (hr : ∀ r ∈ s.roots ++ h, s'.Rooted h' r) {a : Addr} (ha : s.Rooted h a) :
    s'.Rooted h' a :=
  let ⟨r, hm, hp⟩ := ha
  let ⟨r', hm', hp'⟩ := hr r hm
  ⟨r', hm', hp'.trans (Path.mono hE hp)⟩

theorem Rooted.of_mem {h : List Addr} {a : Addr} (ha : a ∈ s.roots ++ h) : s.Rooted h a :=
  ⟨a, ha, .refl _⟩

/-! ## Lists of elements with splits -/

theorem nonSplits_append (xs ys : List Addr) :
    s.nonSplits (xs ++ ys) = s.nonSplits xs + s.nonSplits ys := List.countP_append ..

theorem nonSplits_eq_length {ys : List Addr} (hy : ∀ y ∈ ys, ¬ s.IsSplit y) :
    s.nonSplits ys = ys.length :=
  List.countP_eq_length.mpr fun y hm => by simp [hy y hm]

theorem SplitsApart.append {xs ys : List Addr} (hx : s.SplitsApart xs)
    (hy : ∀ y ∈ ys, ¬ s.IsSplit y) : s.SplitsApart (xs ++ ys) := by
  have hc : ys.Chain' fun x y => ¬ (s.IsSplit x ∧ s.IsSplit y) :=
    List.Pairwise.chain' (List.pairwise_of_forall_mem_list fun a ha _ _ h => hy a ha h.1)
  exact List.chain'_append.mpr ⟨hx, hc, fun _ _ y hy' h => hy y (List.mem_of_mem_head? hy') h.2⟩

theorem DictPaired.append {xs ys : List Addr} (hx : s.DictPaired xs)
    (hy : ∀ y ∈ ys, ¬ s.IsSplit y) (he : ys.length % 2 = 0) : s.DictPaired (xs ++ ys) := by
  refine ⟨?_, fun i hi hs => ?_⟩
  · rw [nonSplits_append, nonSplits_eq_length hy]; have := hx.1; omega
  · by_cases hil : i < xs.length
    · rw [List.getElem_append_left hil] at hs
      rw [List.take_append_of_le_length hil.le]
      exact hx.2 i hil hs
    · rw [List.getElem_append_right (Nat.le_of_not_lt hil)] at hs
      exact absurd hs (hy _ (List.getElem_mem _))

end PMState

open PMState

namespace Inv

variable {s : PMState} {h : List Addr}

/-- An object with an owner is live. -/
theorem live_of_count (hi : Inv s h) {a : Addr} (hpos : 0 < s.objRefCount a + h.count a) :
    ∃ o, s.objs.get a = some o := by
  have := hi.objCount a
  cases hg : s.objs.get a with
  | none => simp [Store.held, hg] at this; omega
  | some o => exact ⟨o, rfl⟩

theorem live_of_root (hi : Inv s h) {a : Addr} (ha : a ∈ s.roots) : ∃ o, s.objs.get a = some o :=
  hi.live_of_count (by have := List.count_pos_iff.mpr ha; simp only [objRefCount]; omega)

theorem live_of_memo (hi : Inv s h) {a : Addr} (ha : a ∈ s.memoVals) : ∃ o, s.objs.get a = some o :=
  hi.live_of_count (by have := List.count_pos_iff.mpr ha; simp only [objRefCount]; omega)

theorem live_of_handle (hi : Inv s h) {a : Addr} (ha : a ∈ h) : ∃ o, s.objs.get a = some o :=
  hi.live_of_count (by have := List.count_pos_iff.mpr ha; omega)

theorem live_of_ptr (hi : Inv s h) {a b : Addr} {o : PyObj} (hb : s.objs.get b = some o)
    (ha : a ∈ o.val.objPtrs) : ∃ o', s.objs.get a = some o' :=
  hi.live_of_count (by
    have := Store.countIn_pos (fun o : PyObj => o.val.objPtrs) hb ha
    simp only [objRefCount]; omega)

theorem live_of_arg (hi : Inv s h) {a : Addr} {p : OAddr} {q : PyOper}
    (hp : s.opers.get p = some q) (ha : a ∈ q.stack) : ∃ o', s.objs.get a = some o' :=
  hi.live_of_count (by
    have := Store.countIn_pos PyOper.stack hp ha
    simp only [objRefCount]; omega)

/-- An oper with an owner is live. -/
theorem operLive_of_ptr (hi : Inv s h) {b : Addr} {o : PyObj} {p : OAddr}
    (hb : s.objs.get b = some o) (hp : p ∈ o.val.operPtrs) : ∃ q, s.opers.get p = some q := by
  have := hi.operCount p
  have hpos := Store.countIn_pos (fun o : PyObj => o.val.operPtrs) hb hp
  cases hg : s.opers.get p with
  | none => simp [Store.held, hg, operRefCount] at this; omega
  | some q => exact ⟨q, rfl⟩

/-- An oper address not yet allocated has no owner. -/
theorem operRefCount_of_le (hi : Inv s h) {q : OAddr} (hq : s.opers.length ≤ q) :
    s.operRefCount q = 0 := by
  have := hi.operCount q
  simp [Store.held, Store.get, List.getElem?_eq_none hq] at this
  omega

theorem operRefCount_length (hi : Inv s h) : s.operRefCount s.opers.length = 0 :=
  hi.operRefCount_of_le le_rfl

/-- The first object address not yet allocated has no owner. -/
theorem objRefCount_length (hi : Inv s h) : s.objRefCount s.objs.length = 0 ∧ h.count s.objs.length = 0 := by
  have := hi.objCount s.objs.length
  simp [Store.held] at this
  omega

/-- An oper some live object names is below the first unallocated address. -/
theorem operLt_of_ptr (hi : Inv s h) {b : Addr} {o : PyObj} {p : OAddr}
    (hb : s.objs.get b = some o) (hp : p ∈ o.val.operPtrs) : p < s.opers.length :=
  let ⟨_, hq⟩ := hi.operLive_of_ptr hb hp; Store.lt_of_get hq

theorem lt_of_live {s : PMState} {a : Addr} (h : ∃ o, s.objs.get a = some o) : a < s.objs.length :=
  let ⟨_, ho⟩ := h; Store.lt_of_get ho

end Inv

end PickleDec
