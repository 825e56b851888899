import PickleDec.Transfer

/-!
# Releasing what a handler holds

`py_obj_free` on an object a handler holds: the value `memo_put` takes out of the slot
it overwrites, the trailing split `itter_add_split` replaces, and the split
`split_reduce` holds through its pass. A reference that is not the last only lowers
the count (`release_of_pos`). The last reference to a `PY_SPLIT` frees it, and its
`reduce` oper, which a `PY_WHAT` records too, loses one reference
(`release_split_last`): in the states the handlers reach, a free never cascades.
-/

set_option autoImplicit false

namespace PickleDec

open PMState

/-! ## What `py_obj_free` computes -/

theorem release_none (s : PMState) : s.release none = s := rfl

/-- Changing a count leaves every payload as it was. -/
theorem vals_bumpObj (s : PMState) (x : Addr) (d : Int) :
    (s.bumpObj x d).objs.map (Option.map PyObj.val) = s.objs.map (Option.map PyObj.val) :=
  Store.map_modify_of _ _ _ _ fun _ => rfl

/-- A reference that is not the last: `py_obj_free` only lowers the count. -/
theorem release_of_pos {s : PMState} {x : Addr} {o : PyObj} (hx : s.objs.get x = some o)
    (hpos : 0 < o.refcnt) : s.release (some x) = s.bumpObj x (-1) := by
  simp [release, freeFuel, pyObjFree, hx, not_le.mpr hpos]

/-- The last reference to a `PY_SPLIT`: the split is freed, and its `reduce`, if it still
    has another reference, only loses this one. -/
theorem release_split_last {s : PMState} {x : Addr} {o : PyObj} {r : Option OAddr}
    (hx : s.objs.get x = some o) (hv : o.val = .split r) (hz : o.refcnt ≤ 0)
    (hr : ∀ p, r = some p → ∃ q, s.opers.get p = some q ∧ 0 < q.refcnt) :
    s.release (some x) = { s with
      objs := s.objs.free x,
      opers := match r with
        | some p => s.opers.modify p fun q => { q with refcnt := q.refcnt - 1 }
        | none => s.opers } := by
  obtain ⟨n, hn⟩ : ∃ n, s.objs.length + s.opers.length = n + 1 :=
    ⟨s.objs.length + s.opers.length - 1, by have := Store.lt_of_get hx; omega⟩
  simp only [release, freeFuel, hn, pyObjFree, hx, hz, if_true, pyObjFreeInternal, bumpObj, modObj,
    Store.get_modify, if_pos, Option.map_some', hv]
  cases r with
  | none => simp [pyopFree, Store.free_modify]
  | some p =>
    obtain ⟨q, hq, hpos⟩ := hr p rfl
    simp [pyopFree, hq, not_le.mpr hpos, modOper, Store.free_modify]

/-- What releasing a split touches: its own cell, which loses a reference or is freed,
    and the count of its `reduce`; every other object, and every oper's arguments, stay. -/
theorem release_split_frame {s : PMState} {x : Addr} {o : PyObj} {r : Option OAddr}
    (hx : s.objs.get x = some o) (hv : o.val = .split r)
    (hr : ∀ p, r = some p → ∃ q, s.opers.get p = some q ∧ 0 < q.refcnt) :
    (∀ b, x ≠ b → (s.release (some x)).objs.get b = s.objs.get b) ∧
    ((s.release (some x)).objs.get x = none ∨
      (s.release (some x)).objs.get x = some { o with refcnt := o.refcnt + -1 }) ∧
    ∀ p, ((s.release (some x)).opers.get p).map PyOper.stack = (s.opers.get p).map PyOper.stack := by
  by_cases hz : o.refcnt ≤ 0
  · rw [release_split_last hx hv hz hr]
    refine ⟨fun b hb => by simp [hb], .inl (by simp), fun p => ?_⟩
    cases r with
    | none => rfl
    | some p' => simp only [Store.get_modify]; split_ifs <;> cases s.opers.get p <;> rfl
  · rw [release_of_pos hx (not_le.mp hz)]
    exact ⟨fun b hb => by simp [bumpObj, modObj, hb], .inr (by simp [bumpObj, modObj, hx]),
      fun _ => rfl⟩

/-! ## Reachability without a handle -/

/-- A handle with no edges out roots nothing but itself. -/
theorem PMState.Rooted.dropLeaf {s : PMState} {h : List Addr} {x a : Addr} (ha : s.Rooted (h ++ [x]) a)
    (hx : s.childrenNS x = []) (hax : a ≠ x) : s.Rooted h a := by
  obtain ⟨r, hr, hp⟩ := ha
  rw [← List.append_assoc, List.mem_append, List.mem_singleton] at hr
  rcases hr with hr | rfl
  · exact ⟨r, hr, hp⟩
  · cases hp with
    | refl => exact absurd rfl hax
    | step hmem _ => simp [hx] at hmem

/-- An object reachable from the roots is a root or has an owner in the heap. -/
theorem owned_of_rooted {s : PMState} {a : Addr} (ha : s.Rooted [] a) :
    0 < s.roots.count a + s.objs.countIn (fun o => o.val.objPtrs) a +
      s.opers.countIn PyOper.stack a := by
  obtain ⟨r, hr, hp⟩ := ha
  rcases hp.eq_or_mem with rfl | ⟨b, hb⟩
  · have := List.count_pos_iff.mpr (by simpa using hr); omega
  · have := ownedPtrs_pos_of_child s hb; omega

/-! ## The frame of a free -/

/-- `s'` is `s` with its two heaps replaced: all that a free can change. -/
def HeapsOnly (s s' : PMState) : Prop := ∃ objs opers, s' = { s with objs := objs, opers := opers }

namespace HeapsOnly

theorem refl (s : PMState) : HeapsOnly s s := ⟨s.objs, s.opers, rfl⟩

theorem trans {s₁ s₂ s₃ : PMState} (h₁ : HeapsOnly s₁ s₂) (h₂ : HeapsOnly s₂ s₃) : HeapsOnly s₁ s₃ := by
  obtain ⟨o, p, rfl⟩ := h₁; obtain ⟨o', p', rfl⟩ := h₂; exact ⟨o', p', rfl⟩

theorem foldl {β : Type} {f : PMState → β → PMState} (hf : ∀ s b, HeapsOnly s (f s b)) :
    ∀ (l : List β) (s : PMState), HeapsOnly s (l.foldl f s)
  | [], s => refl s
  | b :: l, s => (hf s b).trans (foldl hf l _)

end HeapsOnly

theorem heapsOnly_pyObjFreeInternal {objF : PMState → Option Addr → PMState}
    {opF : PMState → Option OAddr → PMState} (hobj : ∀ s a, HeapsOnly s (objF s a))
    (hop : ∀ s p, HeapsOnly s (opF s p)) (s : PMState) (a : Addr) :
    HeapsOnly s (pyObjFreeInternal objF opF s a) := by
  unfold pyObjFreeInternal
  split
  · exact .refl s
  · have h0 : HeapsOnly s (s.modObj a fun o => { o with varname := none, val := o.val.nulled }) :=
      ⟨_, _, rfl⟩
    split
    · exact h0.trans (HeapsOnly.foldl (fun s x => hobj s (some x)) _ _)
    · exact h0.trans (hop _ _)
    · exact h0.trans ((hobj _ _).trans (hobj _ _))
    · exact h0.trans (HeapsOnly.foldl (fun s p => hop s (some p)) _ _)
    · exact h0

/-- `py_obj_free` and `pyop_free` change the two heaps and nothing else. -/
theorem heapsOnly_pyObjFree : ∀ n,
    (∀ s a, HeapsOnly s (pyObjFree n s a)) ∧ ∀ s p, HeapsOnly s (pyopFree n s p)
  | 0 => ⟨fun s _ => by simp only [pyObjFree]; exact .refl s, fun s _ => by simp only [pyopFree]; exact .refl s⟩
  | n + 1 => by
    obtain ⟨ih₁, ih₂⟩ := heapsOnly_pyObjFree n
    refine ⟨fun s a => ?_, fun s p => ?_⟩
    · rcases a with _ | a
      · exact .refl s
      simp only [pyObjFree]
      split
      · exact .refl s
      · split_ifs
        · exact (show HeapsOnly s (s.bumpObj a (-1)) from ⟨_, _, rfl⟩).trans
            ((heapsOnly_pyObjFreeInternal ih₁ ih₂ _ a).trans ⟨_, _, rfl⟩)
        · exact ⟨_, _, rfl⟩
    · rcases p with _ | p
      · exact .refl s
      simp only [pyopFree]
      split
      · exact .refl s
      · split_ifs
        · exact (show HeapsOnly s _ from ⟨_, _, rfl⟩).trans
            ((HeapsOnly.foldl (fun s x => ih₁ s (some x)) _ _).trans ⟨_, _, rfl⟩)
        · exact ⟨_, _, rfl⟩

theorem heapsOnly_release (s : PMState) (a : Option Addr) : HeapsOnly s (s.release a) :=
  (heapsOnly_pyObjFree _).1 s a

/-! ## What a pass may change -/

/-- From `s` to `s'` every tag stays, except that splits may be freed. -/
def TypesKept (s s' : PMState) : Prop :=
  ∀ a, s'.typeOf a = s.typeOf a ∨ (s.IsSplit a ∧ s'.objs.get a = none)

theorem TypesKept.refl (s : PMState) : TypesKept s s := fun _ => .inl rfl

theorem TypesKept.of_typeOf {s s' : PMState} (h : ∀ a, s'.typeOf a = s.typeOf a) :
    TypesKept s s' := fun a => .inl (h a)

theorem TypesKept.trans {s₁ s₂ s₃ : PMState} (h₁ : TypesKept s₁ s₂) (h₂ : TypesKept s₂ s₃) :
    TypesKept s₁ s₃ := fun a => by
  rcases h₂ a with h | ⟨hs, hn⟩
  · rcases h₁ a with h' | ⟨hs', hn'⟩
    · exact .inl (h.trans h')
    · refine .inr ⟨hs', ?_⟩
      have : s₃.typeOf a = none := by rw [h]; simp [typeOf, hn']
      simpa [typeOf] using this
  · rcases h₁ a with h' | ⟨-, hn'⟩
    · exact .inr ⟨by rwa [IsSplit, ← h'], hn⟩
    · simp [IsSplit, typeOf, hn'] at hs

/-- From `s` to `s'` every payload stays, except that `x` may be freed. -/
def KeepsVals (x : Addr) (s s' : PMState) : Prop :=
  ∀ a, (s'.objs.get a).map PyObj.val = (s.objs.get a).map PyObj.val ∨ (a = x ∧ s'.objs.get a = none)

theorem KeepsVals.typesKept {x : Addr} {s s' : PMState} (h : KeepsVals x s s') (hx : s.IsSplit x) :
    TypesKept s s' := fun a => by
  rcases h a with h | ⟨rfl, hn⟩
  · refine .inl ?_
    have := congrArg (Option.map PyVal.type) h
    simpa [typeOf, Option.map_map, Function.comp_def, PyObj.type] using this
  · exact .inr ⟨hx, hn⟩

/-- An object that is not a split keeps its tag. -/
theorem TypesKept.typeOf_eq {s s' : PMState} (h : TypesKept s s') {a : Addr} (ha : ¬ s.IsSplit a) :
    s'.typeOf a = s.typeOf a :=
  (h a).resolve_right fun h' => ha h'.1

namespace Inv

variable {s : PMState} {h : List Addr} {x : Addr}

/-- A handle on `x` that another reference shares is not the last: releasing it only
    lowers the count. -/
theorem release_eq_bump (hi : Inv s (h ++ [x])) (hown : 0 < s.objRefCount x + h.count x) :
    s.release (some x) = s.bumpObj x (-1) := by
  obtain ⟨o, ho⟩ := hi.live_of_handle (List.mem_append_right _ (List.mem_singleton_self x))
  have hc := hi.objCount x
  exact release_of_pos ho (by simp [Store.held, ho] at hc; omega)

/-- Giving up a held reference that is not the last, when the objects stay rooted
    without it. -/
theorem releaseShared (hi : Inv s (h ++ [x])) (hown : 0 < s.objRefCount x + h.count x)
    (hroot : ∀ a o, s.objs.get a = some o → ¬ s.IsSplit a → s.Rooted h a) :
    Inv (s.release (some x)) h := by
  obtain ⟨o, ho⟩ := hi.live_of_handle (List.mem_append_right _ (List.mem_singleton_self x))
  rw [hi.release_eq_bump hown]
  refine hi.keepVal (fun o => { o with refcnt := o.refcnt + -1 }) (fun _ => rfl) (fun _ h => h) x
    (fun y => ?_) hroot
  have := hi.objCount y
  simp only [Store.held, Store.get_modify] at this ⊢
  by_cases hxy : x = y
  · subst hxy; simp [ho] at this ⊢; omega
  · simp [hxy, Ne.symm hxy] at this ⊢; exact this

/-- The `reduce` of the live split at `x` changes from `r` to `r'`, and the oper `p`
    that gains or loses the reference has its count moved by `d`: `split_reduce`
    linking its split to the new oper (`d = 1`), and `py_obj_free` unlinking a split it
    frees (`d = -1`). -/
theorem setReduce (hi : Inv s h) {o : PyObj} {r : Option OAddr} (hx : s.objs.get x = some o)
    (hv : o.val = .split r) (r' : Option OAddr) (p : OAddr) {q : PyOper}
    (hp : s.opers.get p = some q) (d : Int)
    (hd : ∀ p', (r'.toList.count p' : Int) = r.toList.count p' + if p = p' then d else 0) :
    Inv { s with
      objs := s.objs.modify x fun o => { o with val := .split r' },
      opers := s.opers.modify p fun q => { q with refcnt := q.refcnt + d } } h := by
  set s' : PMState := { s with
    objs := s.objs.modify x fun o => { o with val := .split r' },
    opers := s.opers.modify p fun q => { q with refcnt := q.refcnt + d } }
  have hget : ∀ a, s'.objs.get a = if x = a then some { o with val := .split r' } else s.objs.get a :=
    fun a => by
      simp only [s', Store.get_modify]; split_ifs with hxa
      · subst hxa; simp [hx]
      · rfl
  have hopget : ∀ p' r'', s'.opers.get p' = some r'' →
      ∃ r₀, s.opers.get p' = some r₀ ∧ r''.op = r₀.op ∧ r''.stack = r₀.stack := fun p' r'' h => by
    obtain ⟨r₀, h₀, rfl⟩ := Store.get_modify_inv h
    exact ⟨r₀, h₀, by split_ifs <;> rfl, by split_ifs <;> rfl⟩
  have hopget' : ∀ p' r₀, s.opers.get p' = some r₀ →
      ∃ r'', s'.opers.get p' = some r'' ∧ r''.op = r₀.op ∧ r''.stack = r₀.stack := fun p' r₀ h => by
    refine ⟨if p = p' then { r₀ with refcnt := r₀.refcnt + d } else r₀, ?_, by split_ifs <;> rfl,
      by split_ifs <;> rfl⟩
    simp only [s', Store.get_modify, h]; split_ifs <;> rfl
  have htyp : ∀ a, s'.typeOf a = s.typeOf a := fun a => by
    simp only [typeOf, hget]; split_ifs with hxa
    · subst hxa; simp [hx, PyObj.type, hv, PyVal.type]
    · rfl
  have hsplit : ∀ a, s'.IsSplit a ↔ s.IsSplit a := fun a => by simp [IsSplit, htyp]
  have hargs : s'.operArgs = s.operArgs := funext fun p' => by
    simp only [operArgs, s', Store.get_modify]; split_ifs <;> cases s.opers.get p' <;> rfl
  have hchild : ∀ a, s'.childrenNS a = s.childrenNS a := fun a => by
    unfold childrenNS; rw [hget, hargs]; split_ifs with hxa
    · subst hxa; simp [hx, hv]
    · rfl
  refine
    { objCount := fun a => ?_, operCount := fun p' => ?_,
      rooted := fun a o' ho' hns => ?_, operOwned := fun p' r'' hp' => ?_,
      whatShape := fun w o' hw hww => ?_,
      rootsNoSplit := fun a ha => (hsplit a).not.mpr (hi.rootsNoSplit a ha),
      memoNoSplit := fun a ha => (hsplit a).not.mpr (hi.memoNoSplit a ha),
      argsNoSplit := fun p' r'' hp' a ha => ?_, fixedNoSplit := fun b o' hb a ha => ?_,
      apart := fun b o' hb => ?_, paired := fun b o' xs hb hxs => ?_,
      recurseLe := fun a o' ho' => ?_, memoKeys := hi.memoKeys }
  · have h1 := Store.countIn_modify (fun o : PyObj => o.val.objPtrs) s.objs x a
      fun o => { o with val := .split r' }
    simp only [hx, Option.map_some', Store.cnt_some, hv, PyVal.objPtrs_split] at h1
    have h2 : s'.opers.countIn PyOper.stack a = s.opers.countIn PyOper.stack a :=
      Store.countIn_modify_of _ _ _ _ _ fun _ => rfl
    have hheld : s'.objs.held PyObj.refcnt a = s.objs.held PyObj.refcnt a :=
      Store.held_modify_of _ _ _ _ _ fun _ => rfl
    rw [hheld, ← hi.objCount a]
    simp only [objRefCount] at h2 ⊢
    simp only [s', roots, memoVals] at h1 h2 ⊢
    simp at h1; omega
  · have h1 := Store.countIn_modify (fun o : PyObj => o.val.operPtrs) s.objs x p'
      fun o => { o with val := .split r' }
    simp only [hx, Option.map_some', Store.cnt_some, hv, PyVal.operPtrs_split] at h1
    have h2 := hi.operCount p'
    have h3 := hd p'
    simp only [operRefCount, Store.held, s', Store.get_modify] at h1 h2 ⊢
    split_ifs at h3 ⊢ with hpp
    · subst hpp; simp [hp] at h2 ⊢; omega
    · omega
  · obtain ⟨o'', ho'', -⟩ := Store.get_modify_inv ho'
    exact Rooted.mono (fun a b hb => by rwa [hchild]) (fun r hr => Rooted.of_mem (by exact hr))
      (hi.rooted a o'' ho'' ((hsplit a).not.mp hns))
  · obtain ⟨r₀, h₀, -, -⟩ := hopget p' r'' hp'
    obtain ⟨w, ow, hw, hpw⟩ := hi.operOwned p' r₀ h₀
    have hxw : x ≠ w := by rintro rfl; rw [hx] at hw; cases hw; simp [hv] at hpw
    exact ⟨w, ow, by rw [hget, if_neg hxw, hw], hpw⟩
  · rw [hget] at hw
    split_ifs at hw with hxw
    · cases hw; simp [PyObj.type, PyVal.type] at hww
    · exact (hi.whatShape w o' hw hww).congr hopget' fun _ _ _ y _ => htyp y
  · obtain ⟨r₀, h₀, -, hst⟩ := hopget p' r'' hp'
    exact (hsplit a).not.mpr (hi.argsNoSplit p' r₀ h₀ a (hst ▸ ha))
  · rw [hget] at hb
    split_ifs at hb
    · cases hb; simp [PyVal.fixedPtrs] at ha
    · exact (hsplit a).not.mpr (hi.fixedNoSplit b o' hb a ha)
  · rw [hget] at hb
    split_ifs at hb
    · cases hb; simp [PyVal.objPtrs, SplitsApart]
    · exact (hi.apart b o' hb).congr fun y _ => hsplit y
  · rw [hget] at hb
    split_ifs at hb
    · cases hb; cases hxs
    · exact (hi.paired b o' xs hb hxs).congr fun y _ => hsplit y
  · rw [hget] at ho'
    split_ifs at ho'
    · cases ho'; exact hi.recurseLe x o hx
    · exact hi.recurseLe a o' ho'

/-- The last reference to a split with no `reduce`, which the handler holds, given up:
    the split is freed. -/
theorem freeSplit (hi : Inv s (h ++ [x])) {o : PyObj} (hx : s.objs.get x = some o)
    (hv : o.val = .split none) (hz : s.objRefCount x + h.count x = 0) :
    Inv { s with objs := s.objs.free x } h := by
  set s' : PMState := { s with objs := s.objs.free x }
  have hxs : s.IsSplit x := by simp [IsSplit, typeOf, hx, PyObj.type, hv, PyVal.type]
  have hget : ∀ a, s'.objs.get a = if x = a then none else s.objs.get a := fun a => Store.get_free ..
  have htyp : ∀ a, x ≠ a → s'.typeOf a = s.typeOf a := fun a hxa => by simp [typeOf, hget, hxa]
  have hsplit : ∀ a, s'.IsSplit a → s.IsSplit a ∧ x ≠ a := fun a ha => by
    by_cases hxa : x = a
    · subst hxa; simp [IsSplit, typeOf, hget] at ha
    · exact ⟨by rwa [IsSplit, ← htyp a hxa], hxa⟩
  have hnotptr : ∀ b o', s.objs.get b = some o' → ∀ y ∈ o'.val.objPtrs, x ≠ y := by
    rintro b o' hb y hy rfl
    have := Store.countIn_pos (fun o : PyObj => o.val.objPtrs) hb hy
    simp only [objRefCount] at hz; omega
  have hchild : ∀ a, s'.childrenNS a = s.childrenNS a := fun a => by
    by_cases hxa : x = a
    · subst hxa; rw [childrenNS_of_isSplit s hxs]; simp [childrenNS, hget]
    · simp only [childrenNS, hget, if_neg hxa]; rfl
  have hc := hi.objCount x
  refine
    { objCount := fun a => ?_, operCount := fun p => ?_,
      rooted := fun a o' ho' hns => ?_, operOwned := fun p q hq => ?_,
      whatShape := fun w o' hw hww => ?_,
      rootsNoSplit := fun a ha hs => hi.rootsNoSplit a ha (hsplit a hs).1,
      memoNoSplit := fun a ha hs => hi.memoNoSplit a ha (hsplit a hs).1,
      argsNoSplit := fun p q hq a ha hs => hi.argsNoSplit p q hq a ha (hsplit a hs).1,
      fixedNoSplit := fun b o' hb a ha hs => ?_, apart := fun b o' hb => ?_,
      paired := fun b o' xs hb hxs => ?_, recurseLe := fun a o' ho' => ?_,
      memoKeys := hi.memoKeys }
  · have h1 := Store.countIn_free (fun o : PyObj => o.val.objPtrs) s.objs x a
    simp only [hx, Store.cnt_some, hv, PyVal.objPtrs_split, List.count_nil, Nat.add_zero] at h1
    have hrc : s'.objRefCount a = s.objRefCount a := by
      simp only [objRefCount, s', roots, memoVals] at h1 ⊢; rw [h1]
    have h2 := hi.objCount a
    rw [hrc]; simp only [Store.held, hget] at h2 ⊢
    split_ifs with hxa
    · subst hxa; simp; omega
    · simpa [List.count_singleton, Ne.symm hxa] using h2
  · have h1 := Store.countIn_free (fun o : PyObj => o.val.operPtrs) s.objs x p
    simp only [hx, Store.cnt_some, hv, PyVal.operPtrs_split, Option.toList_none, List.count_nil] at h1
    simp only [operRefCount, s']
    rw [← hi.operCount p]; simp only [operRefCount]; omega
  · have hxa : x ≠ a := by rintro rfl; simp [hget] at ho'
    rw [hget, if_neg hxa] at ho'
    have hns' : ¬ s.IsSplit a := by rwa [IsSplit, ← htyp a hxa]
    exact Rooted.mono (fun a b hb => by rwa [hchild]) (fun r hr => Rooted.of_mem (by exact hr))
      ((hi.rooted a o' ho' hns').dropLeaf (childrenNS_of_isSplit s hxs) (Ne.symm hxa))
  · obtain ⟨w, ow, hw, hpw⟩ := hi.operOwned p q hq
    have hxw : x ≠ w := by rintro rfl; rw [hx] at hw; cases hw; simp [hv] at hpw
    exact ⟨w, ow, by rw [hget, if_neg hxw, hw], hpw⟩
  · have hxw : x ≠ w := by rintro rfl; simp [hget] at hw
    rw [hget, if_neg hxw] at hw
    exact (hi.whatShape w o' hw hww).congr (fun p q hq => ⟨q, hq, rfl, rfl⟩)
      fun p q hq y hy => htyp y fun hxy => hi.argsNoSplit p q hq y hy (hxy ▸ hxs)
  · have hxb : x ≠ b := by rintro rfl; simp [hget] at hb
    rw [hget, if_neg hxb] at hb
    exact hi.fixedNoSplit b o' hb a ha (hsplit a hs).1
  · have hxb : x ≠ b := by rintro rfl; simp [hget] at hb
    rw [hget, if_neg hxb] at hb
    exact (hi.apart b o' hb).congr fun y hy => by
      rw [IsSplit, IsSplit, htyp y (hnotptr b o' hb y hy)]
  · have hxb : x ≠ b := by rintro rfl; simp [hget] at hb
    rw [hget, if_neg hxb] at hb
    exact (hi.paired b o' xs hb hxs).congr fun y hy => by
      rw [IsSplit, IsSplit, htyp y (hnotptr b o' hb y (by simp [hxs, hy]))]
  · have hxa : x ≠ a := by rintro rfl; simp [hget] at ho'
    rw [hget, if_neg hxa] at ho'
    exact hi.recurseLe a o' ho'

/-- The `reduce` of a live split is live and is not held by the split alone: the
    `PY_WHAT` that recorded it holds it too. -/
theorem reduce_pos (hi : Inv s h) {o : PyObj} {r : Option OAddr} (ho : s.objs.get x = some o)
    (hv : o.val = .split r) : ∀ p, r = some p → ∃ q, s.opers.get p = some q ∧ 0 < q.refcnt := by
  rintro p rfl
  obtain ⟨q, hq⟩ := hi.operLive_of_ptr ho (show p ∈ o.val.operPtrs by simp [hv])
  obtain ⟨w, ow, hw, hpw⟩ := hi.operOwned p q hq
  have hxw : x ≠ w := by rintro rfl; rw [ho] at hw; cases hw; simp [hv] at hpw
  have h2 := Store.cnt_add_cnt_le_countIn (fun o : PyObj => o.val.operPtrs) s.objs hxw p
  have h3 := hi.operCount p
  have h4 := List.count_pos_iff.mpr (PyVal.mem_operPtrs_of_mem_whatOps hpw)
  simp only [ho, hw, Store.cnt_some, hv, PyVal.operPtrs_split, Option.toList_some,
    List.count_singleton_self] at h2
  simp only [operRefCount, Store.held, hq, Option.map_some', Option.getD_some] at h3
  exact ⟨q, hq, by omega⟩

/-- Giving up a held reference to a split: the split is freed if it was the last, and
    its `reduce`, which a `PY_WHAT` records too, only loses this reference. -/
theorem releaseSplit (hi : Inv s (h ++ [x])) (hx : s.IsSplit x) :
    Inv (s.release (some x)) h ∧ KeepsVals x s (s.release (some x)) := by
  obtain ⟨o, r, ho, hv⟩ := exists_split_of_isSplit s hx
  have hc := hi.objCount x
  simp only [Store.held, ho, Option.map_some', Option.getD_some, List.count_append,
    List.count_singleton_self] at hc
  by_cases hz : s.objRefCount x + h.count x = 0
  · have hr := hi.reduce_pos ho hv
    rw [release_split_last ho hv (by omega) hr]
    refine ⟨?_, fun a => ?_⟩
    swap
    · by_cases hxa : x = a
      · subst hxa; exact .inr ⟨rfl, by simp⟩
      · exact .inl (by simp [hxa])
    cases r with
    | none => exact hi.freeSplit ho hv hz
    | some p =>
      obtain ⟨q, hq, -⟩ := hr p rfl
      have i1 := hi.setReduce ho hv none p hq (-1) fun p' => by
        by_cases hpp : p = p'
        · subst hpp; simp
        · simp [hpp, Ne.symm hpp, List.count_singleton]
      have hc1 := i1.objCount x
      have hget1 : ({ s with
          objs := s.objs.modify x fun o => { o with val := .split none },
          opers := s.opers.modify p fun q => { q with refcnt := q.refcnt + -1 } } : PMState).objs.get x =
          some { o with val := .split none } := by simp [ho]
      simp only [Store.held, hget1, Option.map_some', Option.getD_some, List.count_append,
        List.count_singleton_self] at hc1
      have i2 := i1.freeSplit hget1 rfl (by omega)
      simp only [Store.free_modify] at i2
      simpa only [Int.sub_eq_add_neg] using i2
  · refine ⟨hi.releaseShared (by omega) fun a o' ha hns =>
      (hi.rooted a o' ha hns).dropLeaf (childrenNS_of_isSplit s hx) fun hax => hns (hax ▸ hx), ?_⟩
    rw [release_of_pos ho (by omega)]
    exact fun a => .inl (@get_modObj_val s (fun o => { o with refcnt := o.refcnt + -1 }) (fun _ => rfl) x a)

/-- The memo becomes `m`: its values change as the handles do, it keeps one entry per
    slot and holds no split. -/
theorem moveMemo (hi : Inv s h) (m : Memo) {h' : List Addr}
    (hcount : ∀ a, (m.filterMap Prod.snd).count a + h'.count a = s.memoVals.count a + h.count a)
    (hkeys : (m.map Prod.fst).Nodup) (hns : ∀ a ∈ m.filterMap Prod.snd, ¬ s.IsSplit a)
    (hroot : ∀ r ∈ h, r ∈ s.roots ++ h') : Inv { s with memo := m } h' where
  objCount a := by
    have h1 := hi.objCount a; have h2 := hcount a
    show ((s.roots.count a + (m.filterMap Prod.snd).count a + s.objs.countIn (fun o => o.val.objPtrs) a +
      s.opers.countIn PyOper.stack a : Nat) : Int) + h'.count a = s.objs.held PyObj.refcnt a
    simp only [objRefCount, memoVals] at h1 h2; omega
  operCount := hi.operCount
  rooted a o ho ht := Rooted.mono (fun _ _ hy => hy) (fun r hr => by
      rcases List.mem_append.mp hr with hr | hr
      · exact Rooted.of_mem (List.mem_append_left _ hr)
      · exact Rooted.of_mem (hroot r hr)) (hi.rooted a o ho ht)
  operOwned := hi.operOwned
  whatShape := hi.whatShape
  rootsNoSplit := hi.rootsNoSplit
  memoNoSplit := hns
  argsNoSplit := hi.argsNoSplit
  fixedNoSplit := hi.fixedNoSplit
  apart := hi.apart
  paired := hi.paired
  recurseLe := hi.recurseLe
  memoKeys := hkeys

end Inv

end PickleDec
