import PickleDec.SplitPass

/-!
# Every handler keeps the invariant

One lemma per handler of `exec_op`: from `Inv s []` and a call that returns `true`,
`Inv` of the state it leaves. Each proof follows the handler's own steps: what it
allocates is held (`Inv.newLeaf`), what it pops off a stack is held, what it stores
in a container or pushes is given up (`Inv.appendItems`, `Inv.pushHeld`), so that at
the end the handler holds nothing.
-/

set_option autoImplicit false

namespace PickleDec

open PMState

theorem inv_initState (off : Nat) : Inv (initState off) [] where
  objCount a := by simp [objRefCount, initState, roots, memoVals, Store.held, Store.get, Store.countIn]
  operCount p := by simp [operRefCount, initState, Store.held, Store.get, Store.countIn]
  rooted a o h := by simp [initState, Store.get] at h
  operOwned p q h := by simp [initState, Store.get] at h
  whatShape w o h := by simp [initState, Store.get] at h
  rootsNoSplit a h := by simp [initState, roots] at h
  memoNoSplit a h := by simp [initState, memoVals] at h
  argsNoSplit p q h := by simp [initState, Store.get] at h
  fixedNoSplit b o h := by simp [initState, Store.get] at h
  apart b o h := by simp [initState, Store.get] at h
  paired b o xs h := by simp [initState, Store.get] at h
  recurseLe a o h := by simp [initState, Store.get] at h
  memoKeys := by simp [initState]

variable {s : PMState}

/-! ## Marks and pops -/

theorem opMark_inv (hi : Inv s []) : Inv (opMark s).2 [] :=
  hi.permRoots _ _ _ fun a => by simp [roots, List.count_append]; omega

theorem opPop_inv (hi : Inv s []) (h : (opPop s).1 = true) : Inv (opPop s).2 [] := by
  unfold opPop at h ⊢
  split at h
  · next rest obj hp =>
    rw [popLast_eq_some] at hp
    exact hi.permRoots _ _ _ fun a => by simp only [roots, hp, List.count_append]; omega
  · cases h

theorem opPopMark_inv (hi : Inv s []) (h : (opPopMark s).1 = true) : Inv (opPopMark s).2 [] := by
  unfold opPopMark at h ⊢
  split at h
  · next ms prev hp =>
    rw [popLast_eq_some] at hp
    exact hi.permRoots _ _ _ fun a => by simp [roots, hp, List.count_append]; omega
  · cases h

/-! ## Scalars -/

theorem opNone_inv (hi : Inv s []) : Inv (opNone s).2 [] :=
  hi.pushFresh .none rfl rfl (by decide) (by decide)

theorem opNewbool_inv (hi : Inv s []) (b : Bool) : Inv (opNewbool s b).2 [] :=
  hi.pushFresh (.bool b) rfl rfl (by simp [PyVal.type]) (by simp [PyVal.type])

theorem pushIntType_inv (hi : Inv s []) (op : RAnalOp) : Inv (pushIntType s op).2 [] :=
  hi.pushFresh (.int op.val) rfl rfl (by simp [PyVal.type]) (by simp [PyVal.type])

theorem opFloat_inv (hi : Inv s []) (c : RCore) (op : RAnalOp) (q : Bool)
    (h : (opFloat c s op q).1 = true) : Inv (opFloat c s op q).2 [] := by
  cases hd : c.sscanfLf op.mnemonic (if q then "float \"%lf\"" else "binfloat %lf") with
  | none => simp [opFloat, hd] at h
  | some d =>
    have hmod : (s.newObj (.float 0)).1.modObj s.objs.length
        (fun o => { o with val := .float d }) = (s.newObj (.float d)).1 := by
      simp only [modObj, newObj, Store.modify_alloc_self]; rfl
    simp only [opFloat, hd, newObj_snd, hmod]
    exact hi.pushFresh (.float d) rfl rfl (by simp [PyVal.type]) (by simp [PyVal.type])

theorem pushStr_inv (hi : Inv s []) (c : RCore) (op : RAnalOp) (h : (pushStr c s op).1 = true) :
    Inv (pushStr c s op).2 [] := by
  cases hs : getBigStr c op with
  | none => simp [pushStr, hs] at h
  | some str =>
    simp only [pushStr, hs]
    exact hi.pushFresh (.str str) rfl rfl (by simp [PyVal.type]) (by simp [PyVal.type])
/-! ## Iterables built from the stack -/

theorem isSplit_fresh_iter (t : IterType) (st : List Addr) (ms : List (List Addr))
    (ps ys : List Addr) :
    ¬ (({ (s.newObj (.iter t [])).1 with stack := st, metastack := ms, popstack := ps }).setItems
      s.objs.length ys).IsSplit s.objs.length := by
  rw [isSplit_setItems]
  cases t <;> simp [IsSplit, typeOf, get_newObj, PyObj.fresh, PyObj.type, PyVal.type, IterType.type]

/-- `op_iter_n`: the top `n` objects collected into a fresh iterable, which is pushed.
    A dict takes an even number. -/
theorem opIterN_inv (hi : Inv s []) (n : Nat) (t : IterType) (hd : t = .dict → n % 2 = 0)
    (h : (opIterN s n t).1 = true) : Inv (opIterN s n t).2 [] := by
  unfold opIterN pyIterNew at h ⊢
  simp only [newObj_stack, newObj_snd] at h ⊢
  rcases hl : iterNLoop n s.stack [] with ⟨ok, rest, items⟩
  cases ok
  · simp [hl] at h
  obtain ⟨h1, h2⟩ := iterNLoop_true hl
  simp only [List.append_nil, List.length_nil, Nat.add_zero] at h1 h2
  exact (hi.collect t rest s.metastack s.popstack items
    (fun a => by simp only [roots, h1, List.count_append]; omega) (fun ht => h2 ▸ hd ht)).pushHeld
    (isSplit_fresh_iter t _ _ _ _)

/-- `iter_to_mark` succeeds by collecting the marked frame into a fresh `t` and
    restoring the stack below the mark. -/
theorem iterToMark_some {t : IterType} {s' : PMState} {obj : Addr}
    (h : iterToMark s t = (s', some obj)) :
    obj = s.objs.length ∧ ∃ ms prev, s.metastack = ms ++ [prev] ∧
      (t = .dict → s.stack.length % 2 = 0) ∧
      s' = ({ (s.newObj (.iter t [])).1 with
        stack := prev, metastack := ms, popstack := s.popstack }).setItems s.objs.length s.stack := by
  have hty : (s.newObj (.iter t [])).1.typeOf s.objs.length = some t.type := by
    simp [typeOf, get_newObj, PyObj.fresh, PyObj.type, PyVal.type]
  unfold iterToMark pyIterNew pyIterAppendMark at h
  simp only [newObj_snd, hty, if_true, newObj_stack, newObj_metastack] at h
  split_ifs at h with hd
  · simp at h
  · cases hp : popLast s.metastack with
    | none => simp [hp] at h
    | some v =>
      obtain ⟨ms, prev⟩ := v
      simp only [hp, Prod.mk.injEq, Option.some.injEq] at h
      obtain ⟨rfl, rfl⟩ := h
      refine ⟨rfl, ms, prev, popLast_eq_some.mp hp, fun ht => by simpa [ht] using hd, ?_⟩
      simp [itemsOf, get_newObj, PyObj.fresh]
      rfl

theorem opTypeCreateAppend_inv (hi : Inv s []) (t : IterType)
    (h : (opTypeCreateAppend s t).1 = true) : Inv (opTypeCreateAppend s t).2 [] := by
  unfold opTypeCreateAppend at h ⊢
  split at h
  · next s' obj heq =>
    obtain ⟨rfl, ms, prev, hm, hd, rfl⟩ := iterToMark_some heq
    exact (hi.collect t prev ms s.popstack s.stack
      (fun a => by simp only [roots, hm, List.flatten_append, List.flatten_singleton,
        List.count_append]; omega) hd).pushHeld (isSplit_fresh_iter t _ _ _ _)
  · cases h

/-- `py_iter_append_mark`: the marked frame appended to `obj`, which the restored stack
    holds. -/
theorem pyIterAppendMark_inv (hi : Inv s []) {obj : Addr} {t : IterType}
    (hobj : ∀ prev, s.metastack.getLast? = some prev → obj ∈ prev)
    (h : (pyIterAppendMark s obj t).1 = true) : Inv (pyIterAppendMark s obj t).2 [] := by
  unfold pyIterAppendMark at h ⊢
  split_ifs at h ⊢ with hty hd
  cases hp : popLast s.metastack with
  | none => simp [hp] at h
  | some v =>
    obtain ⟨ms, prev⟩ := v
    rw [popLast_eq_some] at hp
    obtain ⟨o, ho, hv⟩ := exists_iter_of_typeOf s hty
    simp only [popLast_eq_some.mpr hp]
    exact hi.extend prev ms s.popstack s.stack
      (fun a => by simp only [roots, hp, List.flatten_append, List.flatten_singleton,
        List.count_append]; omega) ho hv
      (List.mem_append_left _ (List.mem_append_left _ (hobj prev (by simp [hp]))))
      (fun ht => by simp only [ht, true_and] at hd; omega)

/-! ## Recording an oper -/

/-- `py_what_addop` with more than `argc` objects on the stack records its oper, whose
    arguments are the top `argc` of them, as `Inv.recordOn` or `Inv.wrapRecord` describe;
    for `REDUCE` the split pass follows. -/
theorem pyWhatAddop_record_of_lt (hi : Inv s []) {argc : Nat} {op : PyOp}
    (hfit : operFits op argc = true) (hlen : argc < s.stack.length) :
    ∃ s₁ q, Inv s₁ [] ∧ s₁.opers.get s.opers.length = some q ∧ q.stack.length = argc ∧
      (∃ rest, s.stack = rest ++ q.stack) ∧
      pyWhatAddop s argc op = if op = .reduce then splitReduce s₁ s.opers.length else (true, s₁) := by
  cases hp : listPopN s.stack argc with
  | none => simp [listPopN, hlen] at hp
  | some v =>
    obtain ⟨rest, args⟩ := v
    obtain ⟨hst, hlen, hne⟩ := listPopN_eq_some hp
    obtain ⟨rest', top, rfl⟩ : ∃ rest' top, rest = rest' ++ [top] :=
      ⟨rest.dropLast, rest.getLast hne, (List.dropLast_append_getLast hne).symm⟩
    by_cases htw : s.typeOf top = some .what
    · obtain ⟨o, ops, ho, hv⟩ := exists_what_of_typeOf s htw
      exact ⟨_, ⟨op, args, s.offset, 0⟩, hi.recordOn (rest' ++ [top]) s.metastack s.popstack args
        (fun a => by simp only [roots, hst, List.count_append]; omega) ho hv (by simp) op
        (hlen ▸ hfit), by simp, hlen, ⟨_, hst⟩, pyWhatAddop_of_what hp htw op⟩
    · exact ⟨_, ⟨op, args, s.offset, 0⟩, hi.wrapRecord rest' s.metastack s.popstack args top
        (fun a => by simp only [roots, hst, List.count_append]; omega) htw op (hlen ▸ hfit),
        by simp, hlen, ⟨_, hst⟩, pyWhatAddop_of_wrap hp htw op⟩

/-- `py_what_addop` that gets through has recorded its oper as `Inv.recordOn` or
    `Inv.wrapRecord` describe; for `REDUCE` the split pass follows. -/
theorem pyWhatAddop_record (hi : Inv s []) {argc : Nat} {op : PyOp}
    (hfit : operFits op argc = true) (h : (pyWhatAddop s argc op).1 = true) :
    ∃ s₁, Inv s₁ [] ∧ (∃ q, s₁.opers.get s.opers.length = some q ∧ q.stack.length = argc) ∧
      pyWhatAddop s argc op = if op = .reduce then splitReduce s₁ s.opers.length else (true, s₁) := by
  have hlen : argc < s.stack.length := by
    by_contra hn
    have hp : listPopN s.stack argc = none := by simp [listPopN, hn]
    simp [pyWhatAddop, newOper, hp] at h
  obtain ⟨s₁, q, hi₁, hq, hl, -, heq⟩ := pyWhatAddop_record_of_lt hi hfit hlen
  exact ⟨s₁, hi₁, ⟨q, hq, hl⟩, heq⟩

/-- `py_what_addop_stack` that gets through records the whole marked frame as the
    arguments of its oper, on the object below the mark. -/
theorem pyWhatAddopStack_inv (hi : Inv s []) {op : PyOp} (hfit : ∀ n, operFits op n = true)
    (h : (pyWhatAddopStack s op).1 = true) : Inv (pyWhatAddopStack s op).2 [] := by
  cases hm : popLast s.metastack with
  | none => simp [pyWhatAddopStack, hm] at h
  | some v =>
    obtain ⟨ms, oldstack⟩ := v
    rw [popLast_eq_some] at hm
    cases hp : popLast oldstack with
    | none => simp [pyWhatAddopStack, popLast_eq_some.mpr hm, newOper, stackTopToWhat, hp] at h
    | some v =>
      obtain ⟨rest', top⟩ := v
      rw [popLast_eq_some] at hp
      subst hp
      have hcount : ∀ a, (rest' ++ [top] ++ ms.flatten ++ s.popstack ++ s.stack).count a =
          s.roots.count a := fun a => by
        simp only [roots, hm, List.flatten_append, List.flatten_singleton, List.count_append]; omega
      by_cases htw : s.typeOf top = some .what
      · obtain ⟨o, ops, ho, hv⟩ := exists_what_of_typeOf s htw
        have := hi.recordOn (rest' ++ [top]) ms s.popstack s.stack hcount ho hv (by simp) op (hfit _)
        simp only [pyWhatAddopStack, popLast_eq_some.mpr hm, newOper, stackTopToWhat,
          popLast_concat, typeOf, ho, Option.map_some', PyObj.type, hv, PyVal.type, if_true]
        simpa [appendOper, setOperStack, modObj, modOper, Store.modify_alloc_self] using this
      · have := hi.wrapRecord rest' ms s.popstack s.stack top
          (fun a => by rw [← hcount a]; simp only [List.count_append]; omega) htw op (hfit _)
        have htw2 : ¬ (s.objs.get top).map PyObj.type = some .what := htw
        simp only [pyWhatAddopStack, popLast_eq_some.mpr hm, newOper, stackTopToWhat,
          popLast_concat, typeOf, htw2, if_false, pyWhatNew, newObj]
        simpa [appendOper, setOperStack, modObj, modOper, Store.modify_alloc_self,
          Store.modify_alloc_of_lt, PyObj.addOper, PyObj.fresh] using this

/-- `py_what_addop` that gets through, `REDUCE` and its split pass included. -/
theorem pyWhatAddop_inv (hi : Inv s []) {argc : Nat} {op : PyOp} (hfit : operFits op argc = true)
    (h : (pyWhatAddop s argc op).1 = true) : Inv (pyWhatAddop s argc op).2 [] := by
  obtain ⟨s₁, hi₁, ⟨q, hq, hlen⟩, heq⟩ := pyWhatAddop_record hi hfit h
  rw [heq]
  split_ifs with hr
  · subst hr
    exact splitReduce_inv hi₁ hq fun h0 => by simp [h0, operFits] at hlen hfit; omega
  · exact hi₁

/-! ## Adding to containers -/

theorem opAppend_inv (hi : Inv s []) (h : (opAppend s).1 = true) : Inv (opAppend s).2 [] := by
  unfold opAppend at h ⊢
  split_ifs at h ⊢ with h2 hl
  · exact pyWhatAddop_inv hi rfl h
  · cases hp : popLast s.stack with
    | none => simp [hp] at h
    | some v =>
      obtain ⟨rest, obj⟩ := v
      rw [popLast_eq_some] at hp
      simp only [popLast_eq_some.mpr hp] at h ⊢
      unfold pushToStackIter at h ⊢
      cases hit : rest.getLast? with
      | none => simp [hit] at h
      | some it =>
        simp only [hit] at h ⊢
        split_ifs at h ⊢ with hty
        obtain ⟨o, ho, hv⟩ :=
          exists_iter_of_typeOf s (show s.typeOf it = some IterType.list.type from hty)
        exact hi.extend rest s.metastack s.popstack [obj]
          (fun a => by simp only [roots, hp, List.count_append]; omega) ho hv
          (by simp [List.mem_of_getLast?_eq_some hit]) (by simp)

theorem opAppends_inv (hi : Inv s []) {op : PyOp} {t : IterType} (hfit : ∀ n, operFits op n = true)
    (h : (opAppends s op t).1 = true) : Inv (opAppends s op t).2 [] := by
  unfold opAppends at h ⊢
  cases hm : s.metastack.getLast? with
  | none => simp [hm] at h
  | some prev =>
    cases hp : prev.getLast? with
    | none => simp [hm, hp] at h
    | some obj =>
      simp only [hm, hp] at h ⊢
      split_ifs at h ⊢
      · exact pyWhatAddopStack_inv hi hfit h
      · exact pyIterAppendMark_inv hi (fun prev' hm' => by
          rw [hm] at hm'; cases hm'; exact List.mem_of_getLast?_eq_some hp) h

theorem opSetitem_inv (hi : Inv s []) (h : (opSetitem s).1 = true) : Inv (opSetitem s).2 [] := by
  unfold opSetitem at h ⊢
  split_ifs at h ⊢ with h3 hd
  · exact pyWhatAddop_inv hi rfl h
  · split at h
    · next value key obj r hr =>
      simp only [hr] at h ⊢
      split_ifs at h ⊢ with hty
      have hst : s.stack = r.reverse ++ [obj, key, value] := by
        rw [← List.reverse_reverse s.stack, hr]; simp
      obtain ⟨o, ho, hv⟩ :=
        exists_iter_of_typeOf s (show s.typeOf obj = some IterType.dict.type from hty)
      have hdrop : s.stack.dropLast.dropLast = r.reverse ++ [obj] := by
        rw [hst]; simp [List.dropLast_append_of_ne_nil]
      rw [hdrop]
      exact hi.extend (r.reverse ++ [obj]) s.metastack s.popstack [key, value]
        (fun a => by simp only [roots, hst, List.count_append, List.count_cons, List.count_nil]; omega)
        ho hv (by simp) (fun _ => by simp)
    · simp at h

theorem opSetitems_inv (hi : Inv s []) (h : (opSetitems s).1 = true) : Inv (opSetitems s).2 [] := by
  unfold opSetitems at h ⊢
  cases hm : s.metastack.getLast? with
  | none => simp [hm] at h
  | some prev =>
    cases hp : prev.getLast? with
    | none => simp [hm, hp] at h
    | some obj =>
      simp only [hm, hp] at h ⊢
      split_ifs at h ⊢
      · exact pyIterAppendMark_inv hi (fun prev' hm' => by
          rw [hm] at hm'; cases hm'; exact List.mem_of_getLast?_eq_some hp) h
      · exact pyWhatAddopStack_inv hi (fun _ => rfl) h

/-! ## Sharing: `DUP`, `BINGET` -/

theorem opDup_inv (hi : Inv s []) (h : (opDup s).1 = true) : Inv (opDup s).2 [] := by
  unfold opDup at h ⊢
  split at h
  · next a ha =>
    have hr : a ∈ s.roots := by simp [roots, List.mem_of_getLast?_eq_some ha]
    obtain ⟨o, ho⟩ := hi.live_of_root hr
    exact (hi.share ho).pushHeld (by rw [isSplit_bumpObj]; exact hi.rootsNoSplit a hr)
  · cases h

theorem memoGet_inv (hi : Inv s []) (loc : Int) (h : (memoGet s loc).1 = true) :
    Inv (memoGet s loc).2 [] := by
  unfold memoGet at h ⊢
  split_ifs at h ⊢
  split at h
  · next a ha =>
    have hm : a ∈ s.memoVals := List.mem_filterMap.mpr ⟨_, mem_of_memoFind ha, rfl⟩
    obtain ⟨o, ho⟩ := hi.live_of_memo hm
    exact (hi.share ho).pushHeld (by rw [isSplit_bumpObj]; exact hi.memoNoSplit a hm)
  · cases h

/-! ## The memo: `MEMOIZE`, `BINPUT` -/

/-- The update and release of `memo_put`, from a state that holds the stored value `v`
    (the stack top) and whose objects are rooted without the memo. The value the slot
    held is then never its last reference. -/
theorem memoPut_tail {v : Option Addr} (hi : Inv s v.toList) (hv : ∀ a ∈ v, a ∈ s.roots)
    (hroot : ∀ a o, s.objs.get a = some o → ¬ s.IsSplit a → s.Rooted [] a) (k : Nat) :
    Inv (match (memoUpdate s.memo k v).2 with
        | some old => ({ s with memo := (memoUpdate s.memo k v).1 } : PMState).release old
        | none => { s with memo := (memoUpdate s.memo k v).1 }) [] ∧
      (match (memoUpdate s.memo k v).2 with
        | some old => ({ s with memo := (memoUpdate s.memo k v).1 } : PMState).release old
        | none => { s with memo := (memoUpdate s.memo k v).1 }).objs.map (Option.map PyObj.val) =
        s.objs.map (Option.map PyObj.val) := by
  have hcount := memoUpdate_count hi.memoKeys k v
  have hnew : ∀ a, a ∈ ((memoUpdate s.memo k v).2.bind id).toList ∨
      a ∈ (memoUpdate s.memo k v).1.filterMap Prod.snd → a ∈ s.memoVals ∨ a ∈ v := fun a ha => by
    have := hcount a
    have hpos : 0 < s.memoVals.count a + v.toList.count a := by
      rcases ha with ha | ha <;> have := List.count_pos_iff.mpr ha <;> simp only [memoVals] <;> omega
    rcases Nat.eq_zero_or_pos (s.memoVals.count a) with h0 | h0
    · exact .inr (by simpa using List.count_pos_iff.mp (by omega : 0 < v.toList.count a))
    · exact .inl (List.count_pos_iff.mp h0)
  have hns : ∀ a, a ∈ s.memoVals ∨ a ∈ v → ¬ s.IsSplit a := fun a ha =>
    ha.elim (hi.memoNoSplit a) fun ha => hi.rootsNoSplit a (hv a ha)
  have i2 := hi.moveMemo (memoUpdate s.memo k v).1 (fun a => by rw [hcount a]; rfl)
    (memoUpdate_keys hi.memoKeys k v) (fun a ha => hns a (hnew a (.inr ha)))
    (fun r hr => List.mem_append_left _ (hv r (by simpa using hr)))
  rcases hold : (memoUpdate s.memo k v).2 with _ | _ | x <;> simp only [hold] at i2 ⊢
  · exact ⟨i2, trivial⟩
  · exact ⟨i2, rfl⟩
  · have hx : x ∈ s.memoVals ∨ x ∈ v := hnew x (.inl (by simp [hold]))
    obtain ⟨o, ho⟩ := hi.live_of_count (show 0 < s.objRefCount x + v.toList.count x by
      rcases hx with hx | hx
      · have := List.count_pos_iff.mpr hx; simp only [objRefCount]; omega
      · have := List.count_pos_iff.mpr (hv x hx); simp only [objRefCount]; omega)
    have hown := owned_of_rooted (hroot x o ho (hns x hx))
    have i3 : Inv _ ([] ++ [x]) := i2
    have hpos : 0 < ({ s with memo := (memoUpdate s.memo k v).1 } : PMState).objRefCount x +
        ([] : List Addr).count x := by
      simp only [objRefCount, List.count_nil]; simp only [roots] at hown ⊢; omega
    refine ⟨i3.releaseShared hpos fun a o ha hns => hroot a o ha hns, ?_⟩
    rw [i3.release_eq_bump hpos, vals_bumpObj]

/-- `memo_put`, whatever it answers, keeps the invariant, and frees nothing: every
    payload stays. -/
theorem memoPut_inv (hi : Inv s []) (loc : Int) :
    Inv (memoPut s loc).2 [] ∧
      (memoPut s loc).2.objs.map (Option.map PyObj.val) = s.objs.map (Option.map PyObj.val) := by
  unfold memoPut
  split_ifs with hloc
  · cases hl : s.stack.getLast? with
    | none => exact memoPut_tail (show Inv s (none : Option Addr).toList from hi) (by simp) hi.rooted _
    | some a =>
      have ha : a ∈ s.roots := by simp [roots, List.mem_of_getLast?_eq_some hl]
      obtain ⟨o, ho⟩ := hi.live_of_root ha
      have hroot : ∀ b o', (s.bumpObj a 1).objs.get b = some o' → ¬ (s.bumpObj a 1).IsSplit b →
          (s.bumpObj a 1).Rooted [] b := fun b o' hb hns => by
        obtain ⟨o'', hb', -⟩ := Store.get_modify_inv hb
        exact Rooted.mono (fun x y hy => by rwa [childrenNS_bumpObj])
          (fun r hr => Rooted.of_mem (by exact hr)) (hi.rooted b o'' hb' (by simpa using hns))
      obtain ⟨i1, hv⟩ := memoPut_tail (show Inv _ (some a).toList from hi.share ho)
        (by simpa using ha) hroot loc.toNat
      exact ⟨i1, hv.trans (vals_bumpObj s a 1)⟩
  · exact ⟨hi, rfl⟩

/-! ## Classes: `GLOBAL`, `STACK_GLOBAL`, `INST`, `OBJ` -/

theorem isSplit_str {s : PMState} {a : Addr} {x : String} {o : PyObj} (ha : s.objs.get a = some o)
    (hv : o.val = .str x) : ¬ s.IsSplit a := by
  simp [IsSplit, typeOf, ha, PyObj.type, hv, PyVal.type]

/-- `glob_obj` that gets through gives a fresh `PY_FUNC` of two fresh strings, held. -/
theorem globObj_inv {h : List Addr} (hi : Inv s h) {op : RAnalOp} {s' : PMState} {c : Addr}
    (hg : globObj s op = (s', some c)) : Inv s' (h ++ [c]) ∧ ¬ s'.IsSplit c := by
  unfold globObj at hg
  simp only [newObj_snd, length_newObj] at hg
  rcases hmn : (opStrArg op.mnemonic).map (·.splitOn " ") with
    _ | ⟨_ | ⟨module, _ | ⟨name, _ | ⟨_, _⟩⟩⟩⟩ <;> simp only [hmn] at hg
  all_goals try simp [get_newObj, PyObj.fresh] at hg
  have h1 : s.objs.length ≠ s.objs.length + 1 := by omega
  have h2 : s.objs.length ≠ s.objs.length + 1 + 1 := by omega
  split_ifs at hg with hname
  · simp [PMState.setFunc, modObj, get_newObj, PyObj.fresh, h1, h2] at hg
  · simp [PMState.setFunc, modObj, get_newObj, PyObj.fresh, h1, h2] at hg
    obtain ⟨rfl, rfl⟩ := hg
    have hstr : ∀ x, (PyVal.str x).type ≠ .what := fun x => by simp [PyVal.type]
    have i3 : Inv (((s.newObj (.func none none)).1.newObj (.str module)).1.newObj (.str name)).1
        ((h ++ [s.objs.length]) ++ [s.objs.length + 1, s.objs.length + 1 + 1]) := by
      simpa using ((hi.newLeaf (.func none none) rfl rfl (by decide)).newLeaf (.str module) rfl rfl
        (hstr module)).newLeaf (.str name) rfl rfl (hstr name)
    have h3 : s.objs.length + 1 ≠ s.objs.length + 1 + 1 := by omega
    have hc : (((s.newObj (.func none none)).1.newObj (.str module)).1.newObj (.str name)).1.objs.get
        s.objs.length = some (PyObj.fresh (.func none none) s.offset) := by simp [get_newObj, h1, h2]
    have hm : (((s.newObj (.func none none)).1.newObj (.str module)).1.newObj (.str name)).1.objs.get
        (s.objs.length + 1) = some (PyObj.fresh (.str module) s.offset) := by simp [get_newObj, h3]
    have hn : (((s.newObj (.func none none)).1.newObj (.str module)).1.newObj (.str name)).1.objs.get
        (s.objs.length + 1 + 1) = some (PyObj.fresh (.str name) s.offset) := by simp [get_newObj]
    refine ⟨i3.fillFunc hc rfl (by simp) (isSplit_str hm rfl) (isSplit_str hn rfl), ?_⟩
    simp [IsSplit, typeOf, PMState.setFunc, modObj, hc, PyObj.fresh, PyObj.type, PyVal.type]

theorem opGlobal_inv (hi : Inv s []) (op : RAnalOp) (h : (opGlobal s op).1 = true) :
    Inv (opGlobal s op).2 [] := by
  unfold opGlobal at h ⊢
  split at h
  · next s' c hg =>
    obtain ⟨i1, hc⟩ := globObj_inv hi hg
    exact i1.pushHeld hc
  · cases h

theorem opStackGlobal_inv (hi : Inv s []) (h : (opStackGlobal s).1 = true) :
    Inv (opStackGlobal s).2 [] := by
  unfold opStackGlobal at h ⊢
  split_ifs at h ⊢ with h2
  simp only [newObj_snd, newObj_stack] at h ⊢
  split at h
  · next name module r hr =>
    simp only [hr]
    have hst : s.stack = r.reverse ++ [module, name] := by
      rw [← List.reverse_reverse s.stack, hr]; simp
    have hdrop : s.stack.dropLast.dropLast = r.reverse := by
      rw [hst]; simp [List.dropLast_append_of_ne_nil]
    rw [hdrop]
    have i1 := hi.newLeaf (.func none none) rfl rfl (by decide)
    have hroot : ∀ a ∈ s.stack, ¬ (s.newObj (.func none none)).1.IsSplit a := fun a ha =>
      i1.rootsNoSplit a (by simp [roots, ha])
    have i2 : Inv { (s.newObj (.func none none)).1 with stack := r.reverse }
        ([] ++ [s.objs.length] ++ [module, name]) :=
      i1.moveRoots _ _ _ (fun a => by
          simp only [roots, newObj_stack, newObj_metastack, newObj_popstack, hst, List.count_append]
          omega)
        fun a ha => i1.rootsNoSplit a (by
          simp only [roots, newObj_stack, newObj_metastack, newObj_popstack, hst,
            List.mem_append] at ha ⊢; tauto)
    exact (i2.fillFunc (show _ = some (PyObj.fresh (.func none none) s.offset) by simp [get_newObj])
      rfl (by simp) (hroot module (by simp [hst]))
      (hroot name (by simp [hst]))).pushHeld
      (by simp [IsSplit, typeOf, PMState.setFunc, modObj, get_newObj, PyObj.fresh, PyObj.type,
        PyVal.type])
  · cases h

/-- `insantiate` after `iter_to_mark` has collected the arguments, with the class held. -/
theorem insantiate_inv {s₁ : PMState} {c : Addr} (hi : Inv s₁ [c]) (hc : ¬ s₁.IsSplit c)
    (op : RAnalOp) {s₂ : PMState} {a : Addr} (ht : iterToMark s₁ .list = (s₂, some a))
    (h : (insantiate s₂ op (some c) (some a)).1 = true) : Inv (insantiate s₂ op (some c) (some a)).2 [] := by
  obtain ⟨rfl, ms, prev, hm, -, rfl⟩ := iterToMark_some ht
  have i1 := hi.collect .list prev ms s₁.popstack s₁.stack
    (fun x => by simp only [roots, hm, List.flatten_append, List.flatten_singleton,
      List.count_append]; omega) (by simp)
  have hc' : ¬ (({ (s₁.newObj (.iter .list [])).1 with
      stack := prev, metastack := ms, popstack := s₁.popstack }).setItems s₁.objs.length
      s₁.stack).IsSplit c := by
    rw [isSplit_setItems]
    exact (isSplit_newObj_of_lt s₁ _ (Inv.lt_of_live (hi.live_of_handle (by simp)))).not.mpr hc
  have i2 := (show Inv _ ([] ++ [s₁.objs.length]) from
    (i1.perm List.perm_append_comm).pushHeld hc').pushHeld (isSplit_fresh_iter .list _ _ _ _)
  unfold insantiate at h ⊢
  exact pyWhatAddop_inv i2 (by split <;> rfl) h

theorem opInst_inv (hi : Inv s []) (op : RAnalOp) (h : (opInst s op).1 = true) :
    Inv (opInst s op).2 [] := by
  unfold opInst at h ⊢
  generalize hg : globObj s op = g at h ⊢
  rcases g with ⟨s₁, _ | c⟩ <;> dsimp only at h ⊢
  · rcases iterToMark s₁ .list with ⟨_, _ | _⟩ <;> simp [insantiate] at h
  · obtain ⟨i1, hc⟩ := globObj_inv hi hg
    rcases ht : iterToMark s₁ .list with ⟨s₂, _ | a⟩ <;> simp only [ht] at h ⊢
    · simp [insantiate] at h
    · exact insantiate_inv i1 hc op ht h

theorem opObj_inv (hi : Inv s []) (op : RAnalOp) (h : (opObj s op).1 = true) :
    Inv (opObj s op).2 [] := by
  unfold opObj at h ⊢
  cases hst : s.stack with
  | nil =>
    simp only [hst] at h
    rcases iterToMark s .list with ⟨_, _ | _⟩ <;> simp [insantiate] at h
  | cons c rest =>
    simp only [hst] at h ⊢
    have i1 : Inv { s with stack := rest } ([] ++ [c]) := by
      refine hi.moveRoots _ _ _ (fun a => ?_) fun a ha => hi.rootsNoSplit a ?_
      · simp only [roots, hst, List.count_append, List.count_cons, List.count_nil]; omega
      · simp only [roots, hst, List.mem_append, List.mem_cons] at ha ⊢; tauto
    have hc : ¬ ({ s with stack := rest } : PMState).IsSplit c :=
      hi.rootsNoSplit c (by simp [roots, hst])
    rcases ht : iterToMark { s with stack := rest } .list with ⟨s₂, _ | a⟩ <;> simp only [ht] at h ⊢
    · simp [insantiate] at h
    · exact insantiate_inv i1 hc op ht h

/-! ## `exec_op` -/

/-- The invariant reads neither the offset, the protocol version nor `break_on_stop`. -/
theorem Inv.control {h : List Addr} (hi : Inv s h) (off : Nat) (ver : Int) (b : Bool) :
    Inv { s with offset := off, ver := ver, breakOnStop := b } h :=
  ⟨hi.1, hi.2, hi.3, hi.4, hi.5, hi.6, hi.7, hi.8, hi.9, hi.10, hi.11, hi.12, hi.13⟩

/-- Every handler that gets through keeps the invariant. -/
theorem execOp_inv (hi : Inv s []) (c : RCore) (op : RAnalOp) (code : PyOp)
    (h : (execOp c s op code).1 = true) : Inv (execOp c s op code).2 [] := by
  cases code <;> unfold execOp at h ⊢ <;> dsimp only at h ⊢
  case proto => split_ifs <;> exact hi.control s.offset _ s.breakOnStop
  case frame | stop => exact hi
  case mark => exact opMark_inv hi
  case pop => exact opPop_inv hi h
  case popMark => exact opPopMark_inv hi h
  case none => exact opNone_inv hi
  case binint | binint1 | binint2 | long1 | long4 => exact pushIntType_inv hi op
  case float | binfloat => exact opFloat_inv hi c op _ h
  case string | unicode | binunicode8 | binbytes8 | bytearray8 | binstring | binunicode | binbytes
    | shortBinbytes | shortBinstring | shortBinunicode => exact pushStr_inv hi c op h
  case obj => exact opObj_inv hi op h
  case inst => exact opInst_inv hi op h
  case global => exact opGlobal_inv hi op h
  case stackGlobal => exact opStackGlobal_inv hi h
  case newobj | build | reduce => exact pyWhatAddop_inv hi rfl h
  case tuple | list | dict | frozenset => exact opTypeCreateAppend_inv hi _ h
  case emptyTuple | tuple1 | tuple2 | tuple3 | emptyList | emptyDict | emptySet =>
    exact opIterN_inv hi _ _ (by decide) h
  case append => exact opAppend_inv hi h
  case appends | additems => exact opAppends_inv hi (fun _ => rfl) h
  case setitem => exact opSetitem_inv hi h
  case setitems => exact opSetitems_inv hi h
  case newtrue | newfalse => exact opNewbool_inv hi _
  case memoize | longBinput | binput => exact (memoPut_inv hi _).1
  case longBinget | binget => exact memoGet_inv hi _ h
  case dup => exact opDup_inv hi h
  all_goals exact hi

/-- Moving the offset, as `run_pvm` does between two calls, keeps the invariant. -/
theorem Inv.advance {h : List Addr} (hi : Inv s h) (k : Nat) : Inv { s with offset := s.offset + k } h :=
  hi.control _ s.ver s.breakOnStop

/-- Every reachable state satisfies the invariant. -/
theorem Reachable.inv {c : RCore} {s : PMState} (hs : Reachable c s) : Inv s [] := by
  induction hs with
  | init h =>
    unfold initMachineState at h
    split_ifs at h
    cases h
    exact inv_initState _
  | step op code _ hstep ih =>
    have := execOp_inv ih _ op code (by rw [hstep])
    rwa [hstep] at this
  | advance k _ ih => exact ih.advance k

end PickleDec
