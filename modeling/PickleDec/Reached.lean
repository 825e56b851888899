import PickleDec.Preserve

/-!
# What every reachable state satisfies

The invariant `Inv`, which every state that `init_machine_state` and successful
`exec_op` calls reach satisfies (`Reachable.inv`), read back as the statements the
teardown and the renderer rely on:

* reference counts: a live object's `refcnt` is its number of owning references less
  one, a live oper's likewise, and every memo value is reachable from the stacks;
* the oper list of a `PY_WHAT`;
* where `PY_SPLIT` markers may sit.

The runs below are the witnesses: `EMPTY_LIST, EMPTY_LIST, REDUCE` builds a `PY_WHAT`
whose `REDUCE` argument, a list, receives the split.
-/

set_option autoImplicit false

namespace PickleDec

open PMState

/-- `EMPTY_LIST, EMPTY_LIST, REDUCE`: the first list becomes a `PY_WHAT` reducing the
    second, which gets a split. -/
def reduceListOps : List (PyOp × RAnalOp) :=
  [(.emptyList, .imm 0), (.emptyList, .imm 0), (.reduce, .imm 0)]

/-- `NONE, MARK, ADDITEMS, MARK, SETITEMS, MARK, NONE, SETITEMS`: `None` is neither a set
    nor a dict, so each mark-bounded call records its frame on the `PY_WHAT` it becomes:
    an empty one twice, then one of a single object. -/
def markedFramesOps : List (PyOp × RAnalOp) :=
  [(.none, .imm 0), (.mark, .imm 0), (.additems, .imm 0), (.mark, .imm 0), (.setitems, .imm 0),
    (.mark, .imm 0), (.none, .imm 0), (.setitems, .imm 0)]

/-! ## Reference counts and the memo -/

/-- In a reachable state a live object's count is one less than its owning references
    (stack, saved frames, `popstack`, memo values, elements and `PY_FUNC` fields of live
    objects, arguments of live opers), a live oper's one less than the `PY_WHAT` lists
    and splits naming it, and every memo value is reachable from the stacks along
    owning references. -/
theorem reachable_refcounts {c : RCore} {s : PMState} (hs : Reachable c s) :
    (∀ a o, s.objs.get a = some o → o.refcnt = (s.objRefCount a : Int) - 1) ∧
    (∀ p q, s.opers.get p = some q → q.refcnt = (s.operRefCount p : Int) - 1) ∧
    ∀ a ∈ s.memoVals, ∃ r ∈ s.roots, Reach s r a := by
  have hi := hs.inv
  refine ⟨fun a o ho => ?_, fun p q hq => ?_, fun a ha => ?_⟩
  · have := hi.objCount a
    simp [Store.held, ho] at this; omega
  · have := hi.operCount p
    simp [Store.held, hq] at this; omega
  · obtain ⟨o, ho⟩ := hi.live_of_memo ha
    obtain ⟨r, hr, hp⟩ := hi.rooted a o ho (hi.memoNoSplit a ha)
    exact ⟨r, by simpa using hr, hp.toReach⟩

theorem reachable_refcounts_after_reduce :
    ∃ s, execRun .plain (initState 0) reduceListOps = some s ∧
      (∀ a o, s.objs.get a = some o → o.refcnt = (s.objRefCount a : Int) - 1) ∧
      (∀ p q, s.opers.get p = some q → q.refcnt = (s.operRefCount p : Int) - 1) ∧
      ∀ a ∈ s.memoVals, ∃ r ∈ s.roots, Reach s r a :=
  ⟨_, rfl, reachable_refcounts (Reachable.of_plainRun (show execRun .plain (initState 0) reduceListOps = _ from rfl))⟩

/-! ## The opers of a `PY_WHAT` -/

/-- `py_what_addop_stack` checks no length: `ADDITEMS` and `SETITEMS` are recorded with an
    empty frame, and `SETITEMS` with an odd one. -/
theorem marked_frames_recorded_unchecked :
    ∃ s, Reachable .plain s ∧ ∃ w o, s.objs.get w = some o ∧ o.type = .what ∧
      (o.val.whatOps.tail.filterMap s.opers.get).map (fun q => (q.op, q.stack.length)) =
        [(.additems, 0), (.setitems, 0), (.setitems, 1)] :=
  ⟨_, Reachable.of_plainRun (show execRun .plain (initState 0) markedFramesOps = _ from rfl),
    1, _, rfl, rfl, rfl⟩

/-- Every `PY_WHAT` of a reachable state has a first oper `FAKE_INIT` of one object that is
    not a `PY_WHAT`, and then opers whose argument counts fit their tags (`operFits`): one
    for `REDUCE`, `BUILD`, `NEWOBJ`, `INST` and `OBJ`, two for `SETITEM`, and any number for
    `SETITEMS` and `ADDITEMS`, which the mark-bounded calls record with the whole frame.
    `operFits` puts no bound on `APPEND`. -/
theorem reachable_what_shape {c : RCore} {s : PMState} (hs : Reachable c s) {w : Addr} {o : PyObj}
    (hw : s.objs.get w = some o) (ht : o.type = .what) : s.WhatShape o.val.whatOps :=
  hs.inv.whatShape w o hw ht

theorem reachable_what_shape_after_reduce :
    ∃ s o, execRun .plain (initState 0) reduceListOps = some s ∧ s.objs.get 2 = some o ∧
      o.type = .what ∧ s.WhatShape o.val.whatOps :=
  ⟨_, _, rfl, rfl, rfl, @reachable_what_shape _ _
    (Reachable.of_plainRun (show execRun .plain (initState 0) reduceListOps = _ from rfl)) 2 _ rfl rfl⟩

/-! ## Where the splits are -/

/-- An element that is not in a fixed place (a tuple's, a `PY_FUNC`'s) is an element of a
    list, set, frozenset or dict. -/
theorem PyVal.mem_nonTuple_of_not_fixed {v : PyVal} {a : Addr} (ha : a ∈ v.objPtrs)
    (hf : a ∉ v.fixedPtrs) : ∃ t xs, v = .iter t xs ∧ t ≠ .tuple := by
  rcases v with _ | _ | _ | _ | _ | _ | ⟨_ | _ | _ | _ | _, xs⟩ | _ | _ <;>
    simp_all [PyVal.objPtrs, PyVal.fixedPtrs]

/-- In a reachable state the splits are elements of lists, sets, frozensets and dicts
    only: never on the stack, in a saved frame, in `popstack`, in the memo, in a tuple,
    in a `PY_FUNC` or among an oper's arguments. No two are adjacent, and in a dict every
    split is preceded by an even number of other elements, which are even in number. -/
theorem reachable_split_placement {c : RCore} {s : PMState} (hs : Reachable c s) :
    (∀ a ∈ s.stack, ¬ s.IsSplit a) ∧ (∀ l ∈ s.metastack, ∀ a ∈ l, ¬ s.IsSplit a) ∧
    (∀ a ∈ s.popstack, ¬ s.IsSplit a) ∧ (∀ a ∈ s.memoVals, ¬ s.IsSplit a) ∧
    (∀ p q, s.opers.get p = some q → ∀ a ∈ q.stack, ¬ s.IsSplit a) ∧
    (∀ b o a, s.objs.get b = some o → a ∈ o.val.objPtrs → s.IsSplit a →
      ∃ t xs, o.val = .iter t xs ∧ t ≠ .tuple) ∧
    (∀ b o t xs, s.objs.get b = some o → o.val = .iter t xs → s.SplitsApart xs) ∧
    (∀ b o xs, s.objs.get b = some o → o.val = .iter .dict xs → s.DictPaired xs) := by
  have hi := hs.inv
  refine ⟨fun a ha => hi.rootsNoSplit a (by simp [roots, ha]),
    fun l hl a ha => hi.rootsNoSplit a
      (List.mem_append_left _ (List.mem_append_right _ (List.mem_flatten.mpr ⟨l, hl, ha⟩))),
    fun a ha => hi.rootsNoSplit a (by simp [roots, ha]), hi.memoNoSplit, hi.argsNoSplit,
    fun b o a hb ha hs => PyVal.mem_nonTuple_of_not_fixed ha fun hf => hi.fixedNoSplit b o hb a hf hs,
    fun b o t xs hb hv => by simpa [hv] using hi.apart b o hb, hi.paired⟩

theorem reachable_split_placement_after_reduce :
    ∃ s, execRun .plain (initState 0) reduceListOps = some s ∧ s.IsSplit 3 ∧
      ((∀ a ∈ s.stack, ¬ s.IsSplit a) ∧ (∀ l ∈ s.metastack, ∀ a ∈ l, ¬ s.IsSplit a) ∧
      (∀ a ∈ s.popstack, ¬ s.IsSplit a) ∧ (∀ a ∈ s.memoVals, ¬ s.IsSplit a) ∧
      (∀ p q, s.opers.get p = some q → ∀ a ∈ q.stack, ¬ s.IsSplit a) ∧
      (∀ b o a, s.objs.get b = some o → a ∈ o.val.objPtrs → s.IsSplit a →
        ∃ t xs, o.val = .iter t xs ∧ t ≠ .tuple) ∧
      (∀ b o t xs, s.objs.get b = some o → o.val = .iter t xs → s.SplitsApart xs) ∧
      (∀ b o xs, s.objs.get b = some o → o.val = .iter .dict xs → s.DictPaired xs)) :=
  ⟨_, rfl, rfl, reachable_split_placement (Reachable.of_plainRun (show execRun .plain (initState 0) reduceListOps = _ from rfl))⟩

end PickleDec
