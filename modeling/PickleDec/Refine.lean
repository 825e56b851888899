import PickleDec.Preserve
import PickleDec.Unpickler

/-!
# `exec_op` against the reference on the data opcodes

The simulation of `Unpickler`'s reference by `pickle_dec.c`'s handlers: from states that
agree (`Agrees`: the same payload at every address, the same stack, saved frames and
memo), one data opcode the reference runs is one `exec_op` call that gets through, and
the states still agree. A run follows by induction.

The reference here is `refStepStrict`, whose `POP` refuses an empty frame: `op_pop`
has no branch that pops the mark (`refinement_fails_on_pop_after_mark`). The invariant
rides along, because `memo_put` frees the value it replaces unless another reference
holds it (`memoPut_inv`).
-/

set_option autoImplicit false

namespace PickleDec

open PMState RefState

/-! ## Agreement -/

/-- The handler's answer gets through, in a state that agrees with `r'`. -/
def Runs (x : Bool × PMState) (r' : RefState) : Prop := x.1 = true ∧ Agrees x.2 r'

variable {s : PMState} {r : RefState}

namespace Agrees

theorem length (ha : Agrees s r) : s.objs.length = r.heap.length := by
  rw [← ha.1, List.length_map]

theorem get (ha : Agrees s r) (a : Addr) : r.heap.get a = (s.objs.get a).map PyObj.val := by
  rw [← ha.1, Store.get_map]

theorem obj_of_get (ha : Agrees s r) {a : Addr} {v : PyVal} (h : r.heap.get a = some v) :
    ∃ o, s.objs.get a = some o ∧ o.val = v := by
  rw [ha.get] at h; exact Option.map_eq_some'.mp h

theorem typeOf_iter (ha : Agrees s r) {a : Addr} {t : IterType} {xs : List Addr}
    (h : r.heap.get a = some (.iter t xs)) : s.typeOf a = some t.type := by
  obtain ⟨o, ho, hv⟩ := ha.obj_of_get h
  simp [typeOf, ho, PyObj.type, hv, PyVal.type]

theorem pushNew (ha : Agrees s r) (v : PyVal) :
    Agrees ((s.newObj v).1.push (s.newObj v).2) (r.pushNew v) :=
  ⟨by simp only [newObj, push, RefState.pushNew, Store.map_alloc, ha.1]; rfl,
    by simp only [newObj, push, RefState.pushNew, ha.length, ha.2.1], ha.2.2.1, ha.2.2.2⟩

/-- Replacing the elements of a live iterable, as `extendTop` does. -/
theorem setItems (ha : Agrees s r) {a : Addr} {o : PyObj} {t : IterType} {xs : List Addr}
    (ho : s.objs.get a = some o) (hv : o.val = .iter t xs) (ys : List Addr) :
    Agrees (s.setItems a ys) { r with heap := r.heap.set a (.iter t ys) } :=
  ⟨by rw [PMState.setItems, modObj, Store.map_modify _ _ _ _ ho, PyObj.withItems_val hv, ha.1],
    ha.2.1, ha.2.2.1, ha.2.2.2⟩

theorem bumpObj (ha : Agrees s r) (a : Addr) (d : Int) : Agrees (s.bumpObj a d) r :=
  ⟨(vals_bumpObj s a d).trans ha.1, ha.2.1, ha.2.2.1, ha.2.2.2⟩

theorem withStack (ha : Agrees s r) (st : List Addr) :
    Agrees { s with stack := st } { r with stack := st } := ⟨ha.1, rfl, ha.2.2.1, ha.2.2.2⟩

theorem push (ha : Agrees s r) (a : Addr) :
    Agrees (s.push a) { r with stack := r.stack ++ [a] } :=
  ⟨ha.1, by rw [PMState.push, ha.2.1], ha.2.2.1, ha.2.2.2⟩

end Agrees

/-! ## The reference's steps, inverted -/

namespace RefState

theorem popMark_eq_some {items : List Addr} {r' : RefState} (h : r.popMark = some (items, r')) :
    ∃ meta prev, popLast r.metastack = some (meta, prev) ∧ items = r.stack ∧
      r' = { r with stack := prev, metastack := meta } := by
  unfold popMark at h
  split at h
  · next meta prev hm => cases h; exact ⟨meta, prev, hm, rfl, rfl⟩
  · cases h

theorem extendTop_eq_some {t : IterType} {items : List Addr} {r' : RefState}
    (h : r.extendTop t items = some r') :
    ∃ a xs, r.stack.getLast? = some a ∧ r.heap.get a = some (.iter t xs) ∧
      r' = { r with heap := r.heap.set a (.iter t (xs ++ items)) } := by
  unfold extendTop at h
  split at h
  · next a ha =>
    split at h
    · next t' xs hg =>
      split_ifs at h with ht
      subst ht; cases h; exact ⟨a, xs, ha, hg, rfl⟩
    · cases h
  · cases h

end RefState

/-! ## One handler at a time -/

theorem opIterN_agrees (ha : Agrees s r) (t : IterType) {n : Nat} (hn : n ≤ r.stack.length) :
    Runs (opIterN s n t) { r with
      heap := r.heap.alloc (.iter t (r.stack.drop (r.stack.length - n))),
      stack := r.stack.take (r.stack.length - n) ++ [r.heap.length] } := by
  unfold opIterN pyIterNew
  simp only [newObj, ha.2.1, iterNLoop_eq hn]
  refine ⟨rfl, ?_, ?_, ha.2.2.1, ha.2.2.2⟩
  · simp [push, PMState.setItems, modObj, Store.modify_alloc_self, Store.map_alloc, ha.1,
      PyObj.withItems, PyObj.fresh]
  · simp [push, ha.length]

/-- `py_iter_append_mark` on a live iterable of the right type below the mark. -/
theorem pyIterAppendMark_agrees (ha : Agrees s r) {a : Addr} {t : IterType} {xs : List Addr}
    {meta : List (List Addr)} {prev : List Addr} (hget : r.heap.get a = some (.iter t xs))
    (hm : popLast r.metastack = some (meta, prev)) (hd : t = .dict → r.stack.length % 2 = 0) :
    Runs (pyIterAppendMark s a t) { r with
      heap := r.heap.set a (.iter t (xs ++ r.stack)), stack := prev, metastack := meta } := by
  obtain ⟨o, ho, hv⟩ := ha.obj_of_get hget
  have hpar : ¬ (t = .dict ∧ s.stack.length % 2 = 1) := fun h => by
    have := hd h.1; rw [ha.2.1] at h; omega
  unfold pyIterAppendMark
  rw [if_pos (ha.typeOf_iter hget), if_neg hpar, ha.2.2.1, hm, itemsOf_of_iter s ho hv, ha.2.1]
  exact ⟨rfl, (ha.setItems ho hv _).1, rfl, rfl, ha.2.2.2⟩

theorem opTypeCreateAppend_agrees (ha : Agrees s r) (t : IterType) {meta : List (List Addr)}
    {prev : List Addr} (hm : popLast r.metastack = some (meta, prev))
    (hd : t = .dict → r.stack.length % 2 = 0) :
    Runs (opTypeCreateAppend s t) (({ r with stack := prev, metastack := meta } : RefState).pushNew
      (.iter t r.stack)) := by
  have h1 : Agrees (s.newObj (.iter t [])).1
      { r with heap := r.heap.alloc (.iter t []) } :=
    ⟨by simp only [newObj, Store.map_alloc, ha.1]; rfl, ha.2.1, ha.2.2.1, ha.2.2.2⟩
  obtain ⟨hr, h2⟩ := pyIterAppendMark_agrees h1
    (show Store.get (r.heap.alloc (.iter t [])) s.objs.length = some (.iter t []) by
      simp [ha.length]) hm hd
  unfold opTypeCreateAppend iterToMark pyIterNew
  dsimp only [newObj] at hr h2 ⊢
  rcases hx : pyIterAppendMark { s with objs := s.objs.alloc (PyObj.fresh (.iter t []) s.offset) }
    s.objs.length t with ⟨b, s₂⟩
  simp only [hx] at hr h2 ⊢; subst hr
  refine ⟨rfl, ?_, ?_, h2.2.2.1, h2.2.2.2⟩
  · simp only [push, h2.1]
    simp [RefState.pushNew, Store.alloc, Store.set, newObj, ha.length]
  · simp [push, h2.2.1, RefState.pushNew, newObj, ha.length]

theorem opAppends_agrees (ha : Agrees s r) (op : PyOp) {t : IterType} (ht : t ≠ .dict)
    {r' : RefState} (h : r.popMark.bind (fun (items, r) => r.extendTop t items) = some r') :
    Runs (opAppends s op t) r' := by
  obtain ⟨⟨items, r₁⟩, hp, he⟩ := Option.bind_eq_some.mp h
  obtain ⟨meta, prev, hm, rfl, rfl⟩ := popMark_eq_some hp
  obtain ⟨a, xs, hl, hg, rfl⟩ := extendTop_eq_some he
  dsimp only at hl hg
  have hlast : s.metastack.getLast? = some prev := by
    rw [ha.2.2.1, popLast_eq_some.mp hm, List.getLast?_concat]
  unfold opAppends
  simp only [hlast, hl, if_neg (not_not.mpr (ha.typeOf_iter hg))]
  exact pyIterAppendMark_agrees ha hg hm fun hd => absurd hd ht

theorem opSetitems_agrees (ha : Agrees s r) {r' : RefState}
    (h : r.popMark.bind (fun (items, r) =>
      if items.length % 2 = 0 then r.extendTop .dict items else none) = some r') :
    Runs (opSetitems s) r' := by
  obtain ⟨⟨items, r₁⟩, hp, he⟩ := Option.bind_eq_some.mp h
  obtain ⟨meta, prev, hm, rfl, rfl⟩ := popMark_eq_some hp
  dsimp only at he
  split_ifs at he with heven
  obtain ⟨a, xs, hl, hg, rfl⟩ := extendTop_eq_some he
  dsimp only at hl hg
  have hlast : s.metastack.getLast? = some prev := by
    rw [ha.2.2.1, popLast_eq_some.mp hm, List.getLast?_concat]
  unfold opSetitems
  simp only [hlast, hl, ha.typeOf_iter hg, IterType.type, if_true]
  exact pyIterAppendMark_agrees ha hg hm fun _ => heven

theorem opAppend_agrees (ha : Agrees s r) {rest : List Addr} {value : Addr}
    (hp : popLast r.stack = some (rest, value)) {r' : RefState}
    (h : extendTop { r with stack := rest } .list [value] = some r') : Runs (opAppend s) r' := by
  obtain ⟨a, xs, hl, hg, rfl⟩ := extendTop_eq_some h
  dsimp only at hl hg
  obtain ⟨rest', rfl⟩ := List.getLast?_eq_some_iff.mp hl
  obtain ⟨o, ho, hv⟩ := ha.obj_of_get hg
  have hty : s.typeOf a = some .list := ha.typeOf_iter hg
  have hst : s.stack = rest' ++ [a] ++ [value] := ha.2.1.trans (popLast_eq_some.mp hp)
  unfold opAppend pushToStackIter
  have hty' : ({ s with stack := rest' ++ [a] } : PMState).typeOf a = some .list := hty
  have hit : ({ s with stack := rest' ++ [a] } : PMState).itemsOf a = xs := itemsOf_of_iter s ho hv
  simp only [hst, stackNExpectedType, List.reverse_append, List.length_append, popLast_concat,
    List.getLast?_concat, hty', hit]
  simp [hty]
  exact ⟨rfl, (ha.withStack (rest' ++ [a])).setItems ho hv _⟩

theorem opSetitem_agrees (ha : Agrees s r) {value key o : Addr} {tl : List Addr}
    (hrev : r.stack.reverse = value :: key :: o :: tl) {r' : RefState}
    (h : extendTop { r with stack := r.stack.dropLast.dropLast } .dict [key, value] = some r') :
    Runs (opSetitem s) r' := by
  have hst : r.stack = tl.reverse ++ [o] ++ [key] ++ [value] := by
    rw [← List.reverse_reverse r.stack, hrev]; simp
  obtain ⟨a, xs, hl, hg, rfl⟩ := extendTop_eq_some h
  dsimp only at hl hg
  simp only [hst, List.dropLast_concat, List.getLast?_concat, Option.some.injEq] at hl
  subst hl
  obtain ⟨o', ho, hv⟩ := ha.obj_of_get hg
  have hty : s.typeOf o = some .dict := ha.typeOf_iter hg
  have hit : ({ s with stack := tl.reverse ++ [o] } : PMState).itemsOf o = xs :=
    itemsOf_of_iter s ho hv
  unfold opSetitem
  simp only [ha.2.1, hst, stackNExpectedType, List.dropLast_concat, hrev]
  simp [hty, typeOf, ho, hv, PyObj.type, PyVal.type, IterType.type]
  rw [hit]
  exact ⟨rfl, by simpa [hst] using (ha.withStack (tl.reverse ++ [o])).setItems ho hv (xs ++ [key, value])⟩

theorem opPop_agrees (ha : Agrees s r) {rest : List Addr} {v : Addr}
    (hp : popLast r.stack = some (rest, v)) : Runs (opPop s) { r with stack := rest } := by
  unfold opPop; rw [ha.2.1, hp]; exact ⟨rfl, ha.1, rfl, ha.2.2.1, ha.2.2.2⟩

theorem opPopMark_agrees (ha : Agrees s r) {meta : List (List Addr)} {prev : List Addr}
    (hm : popLast r.metastack = some (meta, prev)) :
    Runs (opPopMark s) { r with stack := prev, metastack := meta } := by
  unfold opPopMark; rw [ha.2.2.1, hm]; exact ⟨rfl, ha.1, rfl, rfl, ha.2.2.2⟩

theorem opDup_agrees (ha : Agrees s r) {a : Addr} (hl : r.stack.getLast? = some a) :
    Runs (opDup s) { r with stack := r.stack ++ [a] } := by
  unfold opDup; rw [ha.2.1, hl]; exact ⟨rfl, ha.2.1 ▸ (ha.push a).bumpObj a 1⟩

theorem lookup_memo_map (m : List (Nat × Addr)) (k : Nat) :
    (m.map fun e => (e.1, some e.2)).lookup k = (m.lookup k).map some := by
  induction m with
  | nil => rfl
  | cons e m ih => simp only [List.map_cons, List.lookup]; cases k == e.1 <;> simp [ih]

theorem memoGet_agrees (ha : Agrees s r) {loc : Int} (hloc : 0 ≤ loc) {a : Addr}
    (hf : r.memo.lookup loc.toNat = some a) :
    Runs (memoGet s loc) { r with stack := r.stack ++ [a] } := by
  unfold memoGet
  simp only [if_pos hloc, memoFind, ha.2.2.2, lookup_memo_map, hf, Option.map_some', Option.join]
  exact ⟨rfl, (ha.push a).bumpObj a 1⟩

theorem memoUpdate_map (m : List (Nat × Addr)) (k : Nat) (a : Addr) :
    (memoUpdate (m.map fun e => (e.1, some e.2)) k (some a)).1 =
      (match m.lookup k with
        | some _ => m.map fun (e : Nat × Addr) => if e.1 = k then (k, a) else e
        | none => m ++ [(k, a)]).map fun (e : Nat × Addr) => (e.1, some e.2) := by
  unfold memoUpdate
  rw [lookup_memo_map]
  cases m.lookup k with
  | none => simp
  | some _ =>
    simp only [Option.map_some', List.map_map]
    exact List.map_congr_left fun e _ => by by_cases h : e.1 = k <;> simp [h]

theorem memoPut_agrees (hi : Inv s []) (ha : Agrees s r) {loc : Int} (hloc : 0 ≤ loc)
    {r' : RefState} (h : r.memoPut loc.toNat = some r') : Runs (memoPut s loc) r' := by
  unfold RefState.memoPut at h
  rcases hl : r.stack.getLast? with _ | a <;> rw [hl] at h
  · cases h
  cases h
  have hl' : s.stack.getLast? = some a := ha.2.1 ▸ hl
  obtain ⟨objs, opers, he⟩ : HeapsOnly
      { s.bumpObj a 1 with memo := (memoUpdate s.memo loc.toNat (some a)).1 } (memoPut s loc).2 := by
    unfold memoPut; rw [if_pos hloc]; simp only [hl']
    split
    · exact heapsOnly_release _ _
    · exact .refl _
  refine ⟨by simp [memoPut, hloc], (memoPut_inv hi loc).2.trans ha.1, ?_, ?_, ?_⟩ <;> rw [he]
  · exact ha.2.1
  · exact ha.2.2.1
  · show (memoUpdate s.memo loc.toNat (some a)).1 = _
    rw [ha.2.2.2]; exact memoUpdate_map _ _ _

theorem opFloat_agrees (ha : Agrees s r) (c : RCore) (op : RAnalOp) (quoted : Bool) {d : UInt64}
    (hd : c.sscanfLf op.mnemonic (if quoted then "float \"%lf\"" else "binfloat %lf") = some d) :
    Runs (opFloat c s op quoted) (r.pushNew (.float d)) := by
  unfold opFloat
  simp only [newObj, hd]
  refine ⟨rfl, ?_, ?_, ha.2.2.1, ha.2.2.2⟩
  · simp [modObj, push, Store.modify_alloc_self, Store.map_alloc, ha.1, RefState.pushNew, PyObj.fresh]
  · simp [push, modObj, ha.2.1, ha.length, RefState.pushNew]

theorem pushStr_agrees (ha : Agrees s r) (c : RCore) (op : RAnalOp) {x : String}
    (hx : getBigStr c op = some x) : Runs (pushStr c s op) (r.pushNew (.str x)) := by
  unfold pushStr; rw [hx]; exact ⟨rfl, ha.pushNew (.str x)⟩

/-! ## `exec_op` and runs -/

/-- One data opcode: where the reference gets through with `POP` refusing an empty
    frame, `exec_op` gets through too, and the two machines still agree. -/
theorem execOp_agrees (hi : Inv s []) (ha : Agrees s r) (c : RCore) (op : RAnalOp) {code : PyOp}
    (hd : isDataOp code = true) {r' : RefState} (h : refStepStrict c r op code = some r') :
    Runs (execOp c s op code) r' := by
  have hpop : ¬ (code = .pop ∧ r.stack = []) := fun hp => by simp [refStepStrict, hp] at h
  rw [refStepStrict, if_neg hpop] at h
  cases code <;> (try exact absurd hd (by decide)) <;> unfold refStep at h <;>
    dsimp only at h <;> unfold execOp <;> dsimp only
  case none | newtrue | newfalse | binint | binint1 | binint2 | long1 | long4 =>
    cases h; exact ⟨rfl, ha.pushNew _⟩
  case float | binfloat =>
    obtain ⟨d, hd', rfl⟩ := Option.map_eq_some'.mp h
    exact opFloat_agrees ha c op _ (by simpa using hd')
  case string | unicode | binunicode8 | binbytes8 | bytearray8 | binstring | binunicode | binbytes
    | shortBinbytes | shortBinstring | shortBinunicode =>
    obtain ⟨x, hx, rfl⟩ := Option.map_eq_some'.mp h
    exact pushStr_agrees ha c op hx
  case emptyTuple | emptyList | emptyDict | emptySet =>
    cases h; simpa using opIterN_agrees ha _ (Nat.zero_le r.stack.length)
  case tuple1 | tuple2 | tuple3 =>
    unfold refTupleN at h; split_ifs at h with hn; cases h; exact opIterN_agrees ha .tuple hn
  case mark => cases h; exact ⟨rfl, ha.1, rfl, by simp [opMark, ha.2.1, ha.2.2.1], ha.2.2.2⟩
  case tuple | list | frozenset =>
    obtain ⟨⟨items, r₁⟩, hp, rfl⟩ := Option.map_eq_some'.mp h
    obtain ⟨meta, prev, hm, rfl, rfl⟩ := popMark_eq_some hp
    exact opTypeCreateAppend_agrees ha _ hm (by simp)
  case dict =>
    obtain ⟨⟨items, r₁⟩, hp, he⟩ := Option.bind_eq_some.mp h
    obtain ⟨meta, prev, hm, rfl, rfl⟩ := popMark_eq_some hp
    dsimp only at he
    split_ifs at he with heven
    cases he
    exact opTypeCreateAppend_agrees ha _ hm fun _ => heven
  case append =>
    split at h
    · next rest value hp => exact opAppend_agrees ha hp h
    · cases h
  case appends => exact opAppends_agrees ha .append (by decide) h
  case additems => exact opAppends_agrees ha .additems (by decide) h
  case setitem =>
    split at h
    · next value key o tl hrev => exact opSetitem_agrees ha hrev h
    · cases h
  case setitems => exact opSetitems_agrees ha h
  case pop =>
    split at h
    · next rest v hp => cases h; exact opPop_agrees ha hp
    · next hp => exact absurd (popLast_eq_none.mp hp) fun he => hpop ⟨rfl, he⟩
  case popMark =>
    obtain ⟨⟨items, r₁⟩, hp, rfl⟩ := Option.map_eq_some'.mp h
    obtain ⟨meta, prev, hm, -, rfl⟩ := popMark_eq_some hp
    exact opPopMark_agrees ha hm
  case dup =>
    split at h
    · next a hl => cases h; exact opDup_agrees ha hl
    · cases h
  case memoize =>
    have hlen : s.memo.length = r.memo.length := by rw [ha.2.2.2, List.length_map]
    exact memoPut_agrees hi ha (Int.ofNat_nonneg _) (by simpa [hlen] using h)
  case binput | longBinput => split_ifs at h with hv; exact memoPut_agrees hi ha hv h
  case binget | longBinget =>
    split_ifs at h with hv
    obtain ⟨a, hf, rfl⟩ := Option.map_eq_some'.mp h
    exact memoGet_agrees ha hv hf

/-- A run of data opcodes from agreeing states. -/
theorem execRun_agrees (c : RCore) : ∀ {ops : List (PyOp × RAnalOp)} {s : PMState} {r r' : RefState},
    Inv s [] → Agrees s r → (∀ x ∈ ops, isDataOp x.1 = true) → refRunStrict c r ops = some r' →
      ∃ s', execRun c s ops = some s' ∧ Agrees s' r'
  | [], s, _, _, _, ha, _, h => by cases h; exact ⟨s, rfl, ha⟩
  | (code, op) :: rest, s, _, _, hi, ha, hd, h => by
    obtain ⟨r₁, h₁, h₂⟩ := Option.bind_eq_some.mp h
    obtain ⟨hok, ha₁⟩ := execOp_agrees hi ha c op (hd _ (List.mem_cons_self _ _)) h₁
    obtain ⟨s', hrun, ha'⟩ := execRun_agrees c (execOp_inv hi c op code hok) ha₁
      (fun x hx => hd x (List.mem_cons_of_mem _ hx)) h₂
    refine ⟨s', ?_, ha'⟩
    rcases he : execOp c s op code with ⟨b, s₁⟩
    rw [he] at hok hrun; subst hok
    simp only [execRun, he, hrun]

/-- `exec_op` from `init_machine_state` runs every sequence of data opcodes that the
    reference runs with `POP` refusing an empty frame, and ends on the reference's
    stack, saved frames and memo, with the same object at every address. -/
theorem data_ops_refine_reference {c : RCore} {s₀ : PMState} {ops : List (PyOp × RAnalOp)}
    {r : RefState} (h0 : initMachineState c = some s₀) (hd : ∀ x ∈ ops, isDataOp x.1 = true)
    (hr : refRunStrict c .init ops = some r) : ∃ s, execRun c s₀ ops = some s ∧ Agrees s r := by
  have hi := (Reachable.init h0).inv
  unfold initMachineState at h0
  split_ifs at h0
  cases h0
  exact execRun_agrees c hi (show Agrees (initState c.offset) .init from ⟨rfl, rfl, rfl, rfl⟩) hd hr

/-- `EMPTY_LIST, MARK, NONE, NEWTRUE, APPENDS, MEMOIZE, DUP, POP`. -/
def listOps : List (PyOp × RAnalOp) :=
  [(.emptyList, .imm 0), (.mark, .imm 0), (.none, .imm 0), (.newtrue, .imm 0),
    (.appends, .imm 0), (.memoize, .imm 0), (.dup, .imm 0), (.pop, .imm 0)]

theorem data_ops_refine_reference_on_list :
    ∃ s r, refRunStrict .plain .init listOps = some r ∧
      execRun .plain (initState 0) listOps = some s ∧ Agrees s r := by
  obtain ⟨s, hs, ha⟩ := data_ops_refine_reference
    (show initMachineState .plain = some (initState 0) from rfl) (by decide)
    (show refRunStrict .plain .init listOps = some _ from rfl)
  exact ⟨s, _, rfl, hs, ha⟩

end PickleDec
