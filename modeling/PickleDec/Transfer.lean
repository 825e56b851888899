import PickleDec.Invariant

/-!
# Steps that keep the invariant

The steps handlers are made of, each with what it does to `Inv`: rearranging the
roots and the handles (`moveRoots`), allocating an object that points to nothing
(`newLeaf`), raising a count (`share`), storing held objects in an iterable
(`appendItems`, and `collect` and `extend` for the common shapes), and recording an
oper on a `PY_WHAT` (`recordOn`, `wrapRecord`).
-/

set_option autoImplicit false

namespace PickleDec

open PMState

namespace Inv

variable {s : PMState} {h : List Addr}

/-- The roots and handles may be rearranged, as long as each object keeps its number
    of owners among them and no split becomes a root. -/
theorem moveRoots (hi : Inv s h) {h' : List Addr} (st : List Addr) (ms : List (List Addr))
    (ps : List Addr) (hcount : ∀ a, (st ++ ms.flatten ++ ps ++ h').count a = (s.roots ++ h).count a)
    (hns : ∀ a ∈ st ++ ms.flatten ++ ps, ¬ s.IsSplit a) :
    Inv { s with stack := st, metastack := ms, popstack := ps } h' where
  objCount a := by
    have := hi.objCount a; have := hcount a
    simp only [objRefCount, roots, memoVals, List.count_append] at *; omega
  operCount := hi.operCount
  rooted a o ho ht := by
    obtain ⟨r, hr, hp⟩ := hi.rooted a o ho ht
    exact ⟨r, List.count_pos_iff.mp ((hcount r).symm ▸ List.count_pos_iff.mpr hr), hp⟩
  operOwned := hi.operOwned
  whatShape := hi.whatShape
  rootsNoSplit := by simpa [roots] using hns
  memoNoSplit := hi.memoNoSplit
  argsNoSplit := hi.argsNoSplit
  fixedNoSplit := hi.fixedNoSplit
  apart := hi.apart
  paired := hi.paired
  recurseLe := hi.recurseLe
  memoKeys := hi.memoKeys

/-- The roots rearranged, each object keeping its number of places among them. -/
theorem permRoots (hi : Inv s h) (st : List Addr) (ms : List (List Addr)) (ps : List Addr)
    (hcount : ∀ a, (st ++ ms.flatten ++ ps).count a = s.roots.count a) :
    Inv { s with stack := st, metastack := ms, popstack := ps } h :=
  hi.moveRoots st ms ps (fun a => by simp only [List.count_append, ← hcount a])
    fun a ha => hi.rootsNoSplit a (List.count_pos_iff.mp (hcount a ▸ List.count_pos_iff.mpr ha))

/-- Only how often each object is held counts. -/
theorem perm (hi : Inv s h) {h' : List Addr} (hp : h.Perm h') : Inv s h' :=
  hi.moveRoots s.stack s.metastack s.popstack
    (fun a => by simp only [roots, List.count_append, hp.count_eq]) hi.rootsNoSplit

/-- `r_list_push` of an object the handler holds. -/
theorem pushHeld {a : Addr} (hi : Inv s (h ++ [a])) (ha : ¬ s.IsSplit a) : Inv (s.push a) h :=
  hi.moveRoots _ _ _ (fun x => by simp only [roots, List.count_append]; omega)
    (fun x hx => by
      by_cases hxa : x = a
      · exact hxa ▸ ha
      · exact hi.rootsNoSplit x (by simp [roots, hxa] at hx ⊢; tauto))

/-- A fresh object that points to nothing, held by the handler. -/
theorem newLeaf (hi : Inv s h) (v : PyVal) (hv : v.objPtrs = []) (hv' : v.operPtrs = [])
    (hw : v.type ≠ .what) : Inv (s.newObj v).1 (h ++ [s.objs.length]) where
  objCount a := by
    have := hi.objCount a
    rw [objRefCount_newObj, hv]
    by_cases ha : a = s.objs.length
    · subst ha
      simp [Store.held, get_newObj, PyObj.fresh] at this ⊢; omega
    · simp [Store.held, get_newObj, ha] at this ⊢; exact this
  operCount p := by rw [operRefCount_newObj, hv']; simpa using hi.operCount p
  rooted a o ho ht := by
    rw [get_newObj] at ho
    split_ifs at ho with ha
    · exact ⟨a, by simp [ha], .refl _⟩
    · refine Rooted.mono (fun x y hy => ?_) (fun r hr => ?_)
        (hi.rooted a o ho ((isSplit_newObj_of_lt s v (Store.lt_of_get ho)).not.mp ht))
      · rw [childrenNS_newObj]
        split_ifs with hx
        · simp [childrenNS_of_get_none, hx] at hy
        · exact hy
      · exact Rooted.of_mem (by simp only [roots_newObj, List.mem_append] at hr ⊢; tauto)
  operOwned p q hq := by
    obtain ⟨w, o, hw, hp⟩ := hi.operOwned p q hq
    exact ⟨w, o, by simp [get_newObj, Nat.ne_of_lt (Store.lt_of_get hw), hw], hp⟩
  whatShape w o hwo ht := by
    rw [get_newObj] at hwo
    split_ifs at hwo
    · cases hwo; exact absurd ht hw
    · exact (hi.whatShape w o hwo ht).congr (fun p q hq => ⟨q, hq, rfl, rfl⟩)
        fun p q hq x hx => by
          simp [typeOf_newObj, Nat.ne_of_lt (lt_of_live (hi.live_of_arg hq hx))]
  rootsNoSplit a ha :=
    (isSplit_newObj_of_lt s v (lt_of_live (hi.live_of_root ha))).not.mpr (hi.rootsNoSplit a ha)
  memoNoSplit a ha :=
    (isSplit_newObj_of_lt s v (lt_of_live (hi.live_of_memo ha))).not.mpr (hi.memoNoSplit a ha)
  argsNoSplit p q hq a ha :=
    (isSplit_newObj_of_lt s v (lt_of_live (hi.live_of_arg hq ha))).not.mpr
      (hi.argsNoSplit p q hq a ha)
  fixedNoSplit b o hb a ha := by
    rw [get_newObj] at hb
    split_ifs at hb
    · cases hb; exact absurd (PyVal.mem_objPtrs_of_mem_fixedPtrs ha) (by simp [PyObj.fresh, hv])
    · exact (isSplit_newObj_of_lt s v
        (lt_of_live (hi.live_of_ptr hb (PyVal.mem_objPtrs_of_mem_fixedPtrs ha)))).not.mpr
        (hi.fixedNoSplit b o hb a ha)
  apart b o hb := by
    rw [get_newObj] at hb
    split_ifs at hb
    · cases hb; simp [PyObj.fresh, hv, SplitsApart]
    · exact (hi.apart b o hb).congr fun x hx =>
        isSplit_newObj_of_lt s v (lt_of_live (hi.live_of_ptr hb hx))
  paired b o xs hb hx := by
    rw [get_newObj] at hb
    split_ifs at hb
    · cases hb
      have hxs : xs = [] := by
        have := hv; simp only [PyObj.fresh] at hx; rw [hx] at this; exact this
      simp [hxs, DictPaired, nonSplits]
    · exact (hi.paired b o xs hb hx).congr fun x hm =>
        isSplit_newObj_of_lt s v (lt_of_live (hi.live_of_ptr hb (by simp [hx, PyVal.objPtrs, hm])))
  recurseLe a o ho := by
    rw [get_newObj] at ho
    split_ifs at ho
    · cases ho; simp [PyObj.fresh]
    · exact hi.recurseLe a o ho
  memoKeys := hi.memoKeys

/-- An update that keeps payloads keeps them when applied under a condition. -/
theorem val_ite {f : PyObj → PyObj} (hf : ∀ o, (f o).val = o.val) (c : Prop) [Decidable c]
    (o : PyObj) : (if c then f o else o).val = o.val := by
  split_ifs; exacts [hf o, rfl]

/-- An update of one object that keeps its payload and raises no generation mark
    above the machine's; the handles change as `hcount` says. -/
theorem keepVal (hi : Inv s h) (f : PyObj → PyObj) (hf : ∀ o, (f o).val = o.val)
    (hrec : ∀ o, o.recurse ≤ s.recurse → (f o).recurse ≤ s.recurse) (b : Addr) {h' : List Addr}
    (hcount : ∀ x, (s.objRefCount x + h'.count x : Int) = (s.objs.modify b f).held PyObj.refcnt x)
    (hroot : ∀ a o, s.objs.get a = some o → ¬ s.IsSplit a → s.Rooted h' a) :
    Inv (s.modObj b f) h' where
  objCount x := by rw [objRefCount_modObj s hf]; exact hcount x
  operCount p := by rw [operRefCount_modObj s hf]; exact hi.operCount p
  rooted a o ho ht := by
    obtain ⟨o', ho', -⟩ := Store.get_modify_inv ho
    exact Rooted.mono (fun x y hy => by rwa [childrenNS_modObj s hf])
      (fun r hr => Rooted.of_mem (by simpa using hr))
      (hroot a o' ho' ((isSplit_modObj s hf b a).not.mp ht))
  operOwned p q hq := by
    obtain ⟨w, o, hw, hp⟩ := hi.operOwned p q hq
    refine ⟨w, if b = w then f o else o, ?_, by rwa [val_ite hf]⟩
    simp only [modObj, Store.get_modify, hw]; split_ifs <;> rfl
  whatShape w o hw ht := by
    obtain ⟨o', ho', rfl⟩ := Store.get_modify_inv hw
    have hty : o'.type = .what := by rwa [PyObj.type, val_ite hf] at ht
    have hshape : (s.modObj b f).WhatShape o'.val.whatOps :=
      (hi.whatShape w o' ho' hty).congr (fun p q hq => ⟨q, hq, rfl, rfl⟩)
        fun _ _ _ x _ => typeOf_modObj s hf b x
    rwa [val_ite hf]
  rootsNoSplit a ha := (isSplit_modObj s hf b a).not.mpr (hi.rootsNoSplit a ha)
  memoNoSplit a ha := (isSplit_modObj s hf b a).not.mpr (hi.memoNoSplit a ha)
  argsNoSplit p q hq a ha := (isSplit_modObj s hf b a).not.mpr (hi.argsNoSplit p q hq a ha)
  fixedNoSplit c o hc a ha := by
    obtain ⟨o', ho', rfl⟩ := Store.get_modify_inv hc
    exact (isSplit_modObj s hf b a).not.mpr (hi.fixedNoSplit c o' ho' a (by rwa [val_ite hf] at ha))
  apart c o hc := by
    obtain ⟨o', ho', rfl⟩ := Store.get_modify_inv hc
    rw [val_ite hf]
    exact (hi.apart c o' ho').congr fun x _ => isSplit_modObj s hf b x
  paired c o xs hc hx := by
    obtain ⟨o', ho', rfl⟩ := Store.get_modify_inv hc
    exact (hi.paired c o' xs ho' (by rwa [val_ite hf] at hx)).congr fun x _ => isSplit_modObj s hf b x
  recurseLe a o ho := by
    obtain ⟨o', ho', rfl⟩ := Store.get_modify_inv ho
    have := hi.recurseLe a o' ho'
    split_ifs
    · exact hrec o' this
    · exact this
  memoKeys := hi.memoKeys

/-- `obj->refcnt++` on a live object, and the new reference held by the handler. -/
theorem share (hi : Inv s h) {a : Addr} {o : PyObj} (ha : s.objs.get a = some o) :
    Inv (s.bumpObj a 1) (h ++ [a]) :=
  hi.keepVal (fun o => { o with refcnt := o.refcnt + 1 }) (fun _ => rfl) (fun _ h => h) a
    (fun x => by
      have := hi.objCount x
      simp only [Store.held, Store.get_modify] at this ⊢
      by_cases hx : a = x
      · subst hx; simp [ha] at this ⊢; omega
      · simp [hx, Ne.symm hx] at this ⊢; exact this)
    fun b o hb hns => Rooted.mono (fun _ _ hy => hy)
      (fun r hr => Rooted.of_mem (by simp only [List.mem_append] at hr ⊢; tauto))
      (hi.rooted b o hb hns)

/-- The object at `c` trades pointers with the handler: its payload becomes `v`, of the
    same tag and with the same opers, which points to the held objects `ys` too and no
    longer to what becomes the handles `zs` (only splits may go). A non-split it takes
    in stays rooted through `c`, and where the new pointers sit respects the split
    rules of `s`. -/
theorem reshape {ys : List Addr} (hi : Inv s (h ++ ys)) {c : Addr} {o : PyObj}
    (hc : s.objs.get c = some o) (f : PyObj → PyObj) {v : PyVal} (hf : f o = { o with val := v })
    (hty : v.type = o.val.type) (hops : v.operPtrs = o.val.operPtrs)
    (hwops : v.whatOps = o.val.whatOps) (zs : List Addr)
    (hptrs : ∀ a, v.objPtrs.count a + zs.count a = o.val.objPtrs.count a + ys.count a)
    (hys : ∀ y ∈ ys, y ∈ v.objPtrs) (hkept : ∀ y ∈ o.val.objPtrs, ¬ s.IsSplit y → y ∈ v.objPtrs)
    (hcr : ∀ y ∈ ys, ¬ s.IsSplit y → s.Rooted h c) (hfixed : ∀ a ∈ v.fixedPtrs, ¬ s.IsSplit a)
    (hapart : s.SplitsApart v.objPtrs) (hdict : ∀ xs, v = .iter .dict xs → s.DictPaired xs) :
    Inv (s.modObj c f) (h ++ zs) := by
  have hget : ∀ x, (s.modObj c f).objs.get x =
      if c = x then some { o with val := v } else s.objs.get x := fun x => by
    simp only [modObj, Store.get_modify]; split_ifs with hx
    · subst hx; simp [hc, hf]
    · rfl
  have htyp : ∀ x, (s.modObj c f).typeOf x = s.typeOf x := fun x => by
    simp only [typeOf, hget]; split_ifs with hx
    · subst hx; simp [hc, PyObj.type, hty]
    · rfl
  have hsplit : ∀ x, (s.modObj c f).IsSplit x ↔ s.IsSplit x := fun x => by simp [IsSplit, htyp]
  have hchildc : (s.modObj c f).childrenNS c = v.objPtrs ++ o.val.whatOps.flatMap s.operArgs := by
    unfold childrenNS; rw [hget, if_pos rfl]; simp only [hwops]; rfl
  have hchild : ∀ x, ∀ y ∈ s.childrenNS x, ¬ s.IsSplit y → y ∈ (s.modObj c f).childrenNS x :=
    fun x y hy hys => by
      by_cases hcx : c = x
      · subst hcx
        rw [hchildc]
        simp only [childrenNS, hc, List.mem_append] at hy ⊢
        exact hy.imp_left fun hy => hkept y hy hys
      · have : (s.modObj c f).childrenNS x = s.childrenNS x := by
          simp only [childrenNS, hget, if_neg hcx]; rfl
        rwa [this]
  have hpath : ∀ r a, ReachNS s r a → ¬ s.IsSplit a → ReachNS (s.modObj c f) r a := fun r a hp ha =>
    Path.avoid s.IsSplit hchild (fun l hl => childrenNS_of_isSplit s hl) hp ha
  have hcount : ∀ a, (s.modObj c f).objRefCount a + zs.count a = s.objRefCount a + ys.count a :=
    fun a => by
      have h1 := Store.countIn_modify (fun o : PyObj => o.val.objPtrs) s.objs c a f
      have h2 := hptrs a
      simp only [hc, Option.map_some', Store.cnt_some, hf] at h1
      simp only [objRefCount, roots_modObj, memoVals_modObj, modObj_objs, modObj_opers]
      omega
  have hmem : ∀ r ∈ s.roots ++ h, r ∈ (s.modObj c f).roots ++ (h ++ zs) := fun r hr => by
    simp only [roots_modObj, List.mem_append] at hr ⊢; tauto
  refine
    { objCount := fun a => ?_, operCount := fun q => ?_, rooted := fun a o' ho' hns => ?_,
      operOwned := fun q r hq => ?_, whatShape := fun x o' hx hxw => ?_,
      rootsNoSplit := fun a ha => (hsplit a).not.mpr (hi.rootsNoSplit a ha),
      memoNoSplit := fun a ha => (hsplit a).not.mpr (hi.memoNoSplit a ha),
      argsNoSplit := fun q r hq a ha => (hsplit a).not.mpr (hi.argsNoSplit q r hq a ha),
      fixedNoSplit := fun b o' hb a ha => ?_, apart := fun b o' hb => ?_,
      paired := fun b o' xs hb hx => ?_, recurseLe := fun a o' ho' => ?_, memoKeys := hi.memoKeys }
  · have := hi.objCount a
    have := hcount a
    have hheld : (s.modObj c f).objs.held PyObj.refcnt a = s.objs.held PyObj.refcnt a := by
      simp only [Store.held, hget]; split_ifs with hca
      · subst hca; simp [hc]
      · rfl
    rw [hheld]; simp only [List.count_append] at *; omega
  · have := Store.countIn_modify (fun o : PyObj => o.val.operPtrs) s.objs c q f
    simp only [hc, Option.map_some', Store.cnt_some, hf, hops] at this
    have hq : (s.modObj c f).operRefCount q = s.operRefCount q := by
      simp only [operRefCount, modObj_objs]; omega
    rw [hq]; exact hi.operCount q
  · obtain ⟨o'', ho''⟩ : ∃ o'', s.objs.get a = some o'' := by
      rw [hget] at ho'; split_ifs at ho' with hca; exacts [⟨o, hca ▸ hc⟩, ⟨o', ho'⟩]
    have hns' : ¬ s.IsSplit a := (hsplit a).not.mp hns
    obtain ⟨r, hr, hp⟩ := hi.rooted a o'' ho'' hns'
    rw [← List.append_assoc, List.mem_append] at hr
    rcases hr with hr | hr
    · exact ⟨r, hmem r hr, hpath r a hp hns'⟩
    · have hrs : ¬ s.IsSplit r := fun hrs => by
        cases hp with
        | refl => exact hns' hrs
        | step hm _ => simp [childrenNS_of_isSplit s hrs] at hm
      obtain ⟨r', hr', hp'⟩ := hcr r hr hrs
      have hcs : ¬ s.IsSplit c := fun hcs => by
        have : v.objPtrs = [] := PyVal.objPtrs_eq_nil_of_split (by
          simpa [IsSplit, typeOf, hc, PyObj.type, ← hty] using hcs)
        simpa [this] using hys r hr
      exact ⟨r', hmem r' hr', (hpath r' c hp' hcs).trans
        (.step (by rw [hchildc]; exact List.mem_append_left _ (hys r hr)) (hpath r a hp hns'))⟩
  · obtain ⟨w, o'', hw, hp⟩ := hi.operOwned q r hq
    refine ⟨w, if c = w then { o with val := v } else o'', by rw [hget]; split_ifs <;> simp [hw], ?_⟩
    split_ifs with hcw
    · subst hcw; rw [hc] at hw; cases hw; rwa [hwops]
    · exact hp
  · have hcong : ∀ {ops}, s.WhatShape ops → (s.modObj c f).WhatShape ops := fun h =>
      h.congr (fun p q hq => ⟨q, hq, rfl, rfl⟩) fun _ _ _ x _ => htyp x
    rw [hget] at hx
    split_ifs at hx with hcx
    · cases hx; subst hcx
      have hw : o.type = .what := by simpa [PyObj.type, hty] using hxw
      simpa [hwops] using hcong (hi.whatShape c o hc hw)
    · exact hcong (hi.whatShape x o' hx hxw)
  · rw [hget] at hb
    split_ifs at hb
    · cases hb; exact (hsplit a).not.mpr (hfixed a ha)
    · exact (hsplit a).not.mpr (hi.fixedNoSplit b o' hb a ha)
  · rw [hget] at hb
    split_ifs at hb
    · cases hb; exact hapart.congr fun x _ => hsplit x
    · exact (hi.apart b o' hb).congr fun x _ => hsplit x
  · rw [hget] at hb
    split_ifs at hb
    · cases hb; exact (hdict xs hx).congr fun x _ => hsplit x
    · exact (hi.paired b o' xs hb hx).congr fun x _ => hsplit x
  · rw [hget] at ho'
    split_ifs at ho'
    · cases ho'; exact hi.recurseLe c o hc
    · exact hi.recurseLe a o' ho'

/-- Objects the handler holds become the last elements of the iterable at `c`, itself
    a root or held. -/
theorem appendItems {ys : List Addr} (hi : Inv s (h ++ ys)) {c : Addr} {o : PyObj}
    {t : IterType} {xs : List Addr} (hc : s.objs.get c = some o) (hv : o.val = .iter t xs)
    (hcr : c ∈ s.roots ++ h) (hys : ∀ y ∈ ys, ¬ s.IsSplit y)
    (hdict : t = .dict → ys.length % 2 = 0) : Inv (s.setItems c (xs ++ ys)) h := by
  have hxs : s.SplitsApart (PyVal.iter t (xs ++ ys)).objPtrs :=
    (by simpa [hv] using hi.apart c o hc : s.SplitsApart xs).append hys
  rw [← List.append_nil h]
  refine hi.reshape hc (·.withItems (xs ++ ys))
    (show o.withItems (xs ++ ys) = { o with val := .iter t (xs ++ ys) } by simp [PyObj.withItems, hv])
    (by simp [hv, PyVal.type]) (by simp [hv]) (by simp [hv]) []
    (fun a => by simp [hv]) (fun y hy => by simp [hy]) (fun y hy _ => by simp [hv] at hy; simp [hy])
    (fun _ _ _ => Rooted.of_mem hcr) (fun a ha => ?_) hxs fun zs hz => ?_
  · cases t <;> simp only [PyVal.fixedPtrs, List.not_mem_nil] at ha
    rcases List.mem_append.mp ha with ha | ha
    · exact hi.fixedNoSplit c o hc a (by simpa [hv, PyVal.fixedPtrs] using ha)
    · exact hys a ha
  · cases hz
    exact (hi.paired c o xs hc hv).append hys (hdict rfl)

/-- The held objects `m` and `n` become the fields of the empty `PY_FUNC` at `c`, itself
    a root or held. -/
theorem fillFunc {m n : Addr} (hi : Inv s (h ++ [m, n])) {c : Addr} {o : PyObj}
    (hc : s.objs.get c = some o) (hv : o.val = .func none none) (hcr : c ∈ s.roots ++ h)
    (hm : ¬ s.IsSplit m) (hn : ¬ s.IsSplit n) : Inv (s.setFunc c (some m) (some n)) h := by
  rw [← List.append_nil h]
  refine hi.reshape hc _ rfl (by simp [hv, PyVal.type]) (by simp [hv, PyVal.operPtrs])
    (by simp [hv, PyVal.whatOps]) [] (fun a => by simp [hv, PyVal.objPtrs])
    (fun y hy => by simpa [PyVal.objPtrs] using hy) (fun y hy => by simp [hv, PyVal.objPtrs] at hy)
    (fun _ _ _ => Rooted.of_mem hcr) (fun a ha => ?_) ?_ fun xs hxs => by cases hxs
  · simp only [PyVal.fixedPtrs, Option.toList_some, List.singleton_append, List.mem_cons,
      List.mem_singleton, List.not_mem_nil, or_false] at ha
    rcases ha with rfl | rfl <;> assumption
  · simp [PyVal.objPtrs, SplitsApart, hm]

/-- A fresh iterable of type `t` collects `ys`, taken off the roots (the roots become
    `st`, `ms`, `ps`), and is held. A dict collects an even number. -/
theorem collect (hi : Inv s h) (t : IterType) (st : List Addr) (ms : List (List Addr))
    (ps ys : List Addr) (hcount : ∀ a, (st ++ ms.flatten ++ ps ++ ys).count a = s.roots.count a)
    (hdict : t = .dict → ys.length % 2 = 0) :
    Inv (({ (s.newObj (.iter t [])).1 with stack := st, metastack := ms, popstack := ps }).setItems
      s.objs.length ys) (h ++ [s.objs.length]) := by
  have i1 := hi.newLeaf (.iter t []) rfl rfl (by cases t <;> decide)
  have hmem : ∀ a, a ∈ st ++ ms.flatten ++ ps ++ ys → a ∈ s.roots := fun a ha =>
    List.count_pos_iff.mp (hcount a ▸ List.count_pos_iff.mpr ha)
  have hns : ∀ a, a ∈ st ++ ms.flatten ++ ps ++ ys → ¬ (s.newObj (.iter t [])).1.IsSplit a :=
    fun a ha => i1.rootsNoSplit a (hmem a ha)
  have i2 : Inv { (s.newObj (.iter t [])).1 with stack := st, metastack := ms, popstack := ps }
      (h ++ [s.objs.length] ++ ys) :=
    i1.moveRoots _ _ _ (fun a => by
        have := hcount a; simp only [roots_newObj, List.count_append] at this ⊢; omega)
      fun a ha => hns a (List.mem_append_left _ ha)
  have hc : ({ (s.newObj (.iter t [])).1 with stack := st, metastack := ms, popstack := ps } :
      PMState).objs.get s.objs.length = some (PyObj.fresh (.iter t []) s.offset) := by
    simp [get_newObj]
  exact i2.appendItems hc rfl (by simp) (fun a ha => hns a (List.mem_append_right _ ha)) hdict

/-- `ys` taken off the roots (which become `st`, `ms`, `ps`) and appended to the
    iterable at `c`, which stays a root. A dict takes an even number. -/
theorem extend (hi : Inv s h) (st : List Addr) (ms : List (List Addr)) (ps ys : List Addr)
    (hcount : ∀ a, (st ++ ms.flatten ++ ps ++ ys).count a = s.roots.count a) {c : Addr} {o : PyObj}
    {t : IterType} {xs : List Addr} (hc : s.objs.get c = some o) (hv : o.val = .iter t xs)
    (hcr : c ∈ st ++ ms.flatten ++ ps) (hdict : t = .dict → ys.length % 2 = 0) :
    Inv (({ s with stack := st, metastack := ms, popstack := ps }).setItems c (xs ++ ys)) h := by
  have hmem : ∀ a, a ∈ st ++ ms.flatten ++ ps ++ ys → a ∈ s.roots := fun a ha =>
    List.count_pos_iff.mp (hcount a ▸ List.count_pos_iff.mpr ha)
  have i1 : Inv { s with stack := st, metastack := ms, popstack := ps } (h ++ ys) :=
    hi.moveRoots _ _ _ (fun a => by have := hcount a; simp only [List.count_append] at this ⊢; omega)
      fun a ha => hi.rootsNoSplit a (hmem a (List.mem_append_left _ ha))
  exact i1.appendItems hc hv (List.mem_append_left _ hcr)
    (fun a ha => hi.rootsNoSplit a (hmem a (List.mem_append_right _ ha))) hdict

/-- An oper `op` of the arguments `args`, taken off the roots, recorded on the live
    `PY_WHAT` at `w`, which stays a root: `py_what_addop` on a stack top that already is
    a `PY_WHAT`. -/
theorem recordOn (hi : Inv s []) (st : List Addr) (ms : List (List Addr)) (ps args : List Addr)
    (hcount : ∀ a, (st ++ ms.flatten ++ ps ++ args).count a = s.roots.count a)
    {w : Addr} {o : PyObj} {ops : List OAddr} (hw : s.objs.get w = some o)
    (hv : o.val = .what ops) (hwr : w ∈ st ++ ms.flatten ++ ps) (op : PyOp)
    (hfit : operFits op args.length = true) :
    Inv { s with
      stack := st, metastack := ms, popstack := ps,
      opers := s.opers.alloc ⟨op, args, s.offset, 0⟩,
      objs := s.objs.modify w (·.addOper s.opers.length) } [] := by
  set s' : PMState := { s with
    stack := st, metastack := ms, popstack := ps,
    opers := s.opers.alloc ⟨op, args, s.offset, 0⟩, objs := s.objs.modify w (·.addOper s.opers.length) }
  have hmem : ∀ a, a ∈ st ++ ms.flatten ++ ps ++ args → a ∈ s.roots := fun a ha =>
    List.count_pos_iff.mp (hcount a ▸ List.count_pos_iff.mpr ha)
  have hargsNS : ∀ a ∈ args, ¬ s.IsSplit a := fun a ha =>
    hi.rootsNoSplit a (hmem a (List.mem_append_right _ ha))
  have hty : ∀ x, s'.typeOf x = s.typeOf x := fun x => by
    simp only [s', typeOf, Store.get_modify]; split_ifs <;> cases s.objs.get x <;> simp
  have hsplit : ∀ x, s'.IsSplit x ↔ s.IsSplit x := fun x => by simp [IsSplit, hty]
  have hopArgs : ∀ q, q ≠ s.opers.length → s'.operArgs q = s.operArgs q := fun q hq => by
    simp [s', operArgs, Store.get_alloc, hq]
  have hchild : ∀ x, ∀ y ∈ s.childrenNS x, y ∈ s'.childrenNS x := fun x y hy => by
    unfold childrenNS at hy ⊢
    cases hx : s.objs.get x with
    | none => simp [hx] at hy
    | some ox =>
      rw [hx] at hy
      simp only [s', Store.get_modify, hx]
      obtain hy | ⟨q, hq, hyq⟩ : y ∈ ox.val.objPtrs ∨ ∃ q ∈ ox.val.whatOps, y ∈ s.operArgs q := by
        simpa only [List.mem_append, List.mem_flatMap] using hy
      · split_ifs <;> simp [hy]
      · have hqp : q ≠ s.opers.length := Nat.ne_of_lt (hi.operLt_of_ptr hx (PyVal.mem_operPtrs_of_mem_whatOps hq))
        rw [← hopArgs q hqp] at hyq
        split_ifs with hwx
        · subst hwx; rw [hw] at hx; cases hx
          simp only [Option.map_some', PyObj.addOper_val hv, PyVal.whatOps_what]
          simp only [hv, PyVal.whatOps_what] at hq
          simp only [List.mem_append, List.mem_flatMap, List.mem_singleton]
          exact .inr ⟨q, .inl hq, hyq⟩
        · simp only [List.mem_append, List.mem_flatMap]
          exact .inr ⟨q, hq, hyq⟩
  have hwargs : ∀ a ∈ args, a ∈ s'.childrenNS w := fun a ha => by
    simp [s', childrenNS, Store.get_modify, hw, PyObj.addOper_val hv, List.mem_flatMap, operArgs,
      Store.get_alloc, ha]
  refine
    { objCount := fun a => ?_, operCount := fun q => ?_, rooted := fun a o' ho' hns => ?_,
      operOwned := fun q r hq => ?_, whatShape := fun x o' hx hxw => ?_,
      rootsNoSplit := fun a ha => ?_, memoNoSplit := fun a ha => ?_,
      argsNoSplit := fun q r hq a ha => ?_, fixedNoSplit := fun b o' hb a ha => ?_,
      apart := fun b o' hb => ?_, paired := fun b o' xs hb hx => ?_,
      recurseLe := fun a o' ho' => ?_, memoKeys := hi.memoKeys }
  · have h2 := hcount a
    have h4 : s'.objs.countIn (fun o => o.val.objPtrs) a = s.objs.countIn (fun o => o.val.objPtrs) a :=
      Store.countIn_modify_of _ _ _ _ _ fun o => o.addOper_objPtrs s.opers.length
    rw [show s'.objs.held PyObj.refcnt a = s.objs.held PyObj.refcnt a from
      Store.held_modify_of _ _ _ _ _ fun o => o.addOper_refcnt s.opers.length, ← hi.objCount a]
    simp only [objRefCount, roots, List.count_append] at h2 ⊢
    simp only [s', memoVals, Store.countIn_alloc] at h4 ⊢
    rw [h4]; simp; omega
  · have h2 := Store.countIn_modify (fun o : PyObj => o.val.operPtrs) s.objs w q (·.addOper s.opers.length)
    simp only [hw, Option.map_some', Store.cnt_some, PyObj.addOper_val hv, hv,
      PyVal.operPtrs_what, List.count_append] at h2
    have h1 := hi.operCount q
    simp only [operRefCount, Store.held, s', Store.get_alloc] at h1 h2 ⊢
    split_ifs with hq
    · subst hq
      have h0 := hi.operRefCount_length
      have hpops : ops.count s.opers.length = 0 := List.count_eq_zero_of_not_mem fun hp =>
        Nat.lt_irrefl _ (hi.operLt_of_ptr hw (by simp [hv, hp]))
      simp only [operRefCount] at h0
      simp at h2 ⊢; omega
    · simp only [List.count_singleton, beq_iff_eq, Ne.symm hq, if_false] at h2
      omega
  · obtain ⟨o'', ho'', -⟩ := Store.get_modify_inv ho'
    refine Rooted.mono hchild (fun r hr => ?_) (hi.rooted a o'' ho'' ((hsplit a).not.mp hns))
    have : r ∈ st ++ ms.flatten ++ ps ++ args :=
      List.count_pos_iff.mp ((hcount r).symm ▸ List.count_pos_iff.mpr (by simpa using hr))
    rcases List.mem_append.mp this with hr | hr
    · exact Rooted.of_mem (by simpa [s', roots] using hr)
    · exact ⟨w, by simpa [s', roots] using hwr, .step (hwargs r hr) (.refl r)⟩
  · simp only [s', Store.get_alloc] at hq
    split_ifs at hq with hqp
    · exact ⟨w, o.addOper s.opers.length, by simp [s', Store.get_modify, hw], by simp [PyObj.addOper_val hv, hqp]⟩
    · obtain ⟨w', o'', hw', hq'⟩ := hi.operOwned q r hq
      refine ⟨w', if w = w' then o''.addOper s.opers.length else o'', by simp [s', Store.get_modify, hw']; split_ifs <;> rfl, ?_⟩
      split_ifs with hww
      · subst hww; rw [hw] at hw'; cases hw'
        simp only [PyObj.addOper_val hv, PyVal.whatOps_what, List.mem_append]
        simp only [hv, PyVal.whatOps_what] at hq'
        exact .inl hq'
      · exact hq'
  · obtain ⟨o'', ho'', rfl⟩ := Store.get_modify_inv hx
    have hcong : ∀ {ops'}, s.WhatShape ops' → s'.WhatShape ops' := fun h =>
      h.congr (fun q r hq => ⟨r, by simp [s', Store.get_alloc, Nat.ne_of_lt (Store.lt_of_get hq), hq],
        rfl, rfl⟩) fun _ _ _ x _ => hty x
    split_ifs at hxw ⊢ with hwx
    · subst hwx; rw [hw] at ho''; cases ho''
      rw [PyObj.addOper_val hv, PyVal.whatOps_what]
      have := hi.whatShape w o hw (by simpa using hxw)
      rw [hv, PyVal.whatOps_what] at this
      exact (hcong this).snoc
        (show s'.opers.get s.opers.length = some ⟨op, args, s.offset, 0⟩ by simp [s', Store.get_alloc]) hfit
    · exact hcong (hi.whatShape x o'' ho'' hxw)
  · exact (hsplit a).not.mpr (hi.rootsNoSplit a (hmem a (List.mem_append_left _ ha)))
  · exact (hsplit a).not.mpr (hi.memoNoSplit a ha)
  · simp only [s', Store.get_alloc] at hq
    split_ifs at hq with hqp
    · cases hq; exact (hsplit a).not.mpr (hargsNS a ha)
    · exact (hsplit a).not.mpr (hi.argsNoSplit q r hq a ha)
  · obtain ⟨o'', ho'', rfl⟩ := Store.get_modify_inv hb
    refine (hsplit a).not.mpr (hi.fixedNoSplit b o'' ho'' a ?_)
    split_ifs at ha with hwb
    · subst hwb; rw [hw] at ho''; cases ho''
      simp [PyObj.addOper_val hv, PyVal.fixedPtrs] at ha
    · exact ha
  · obtain ⟨o'', ho'', rfl⟩ := Store.get_modify_inv hb
    have := (hi.apart b o'' ho'').congr fun x _ => hsplit x
    split_ifs <;> simpa using this
  · obtain ⟨o'', ho'', rfl⟩ := Store.get_modify_inv hb
    split_ifs at hx with hwb
    · subst hwb; rw [hw] at ho''; cases ho''
      simp [PyObj.addOper_val hv] at hx
    · exact (hi.paired b o'' xs ho'' hx).congr fun x _ => hsplit x
  · obtain ⟨o'', ho'', rfl⟩ := Store.get_modify_inv ho'
    have := hi.recurseLe a o'' ho''
    split_ifs <;> simpa [s'] using this

/-- An oper `op` of the arguments `args`, taken off the roots, recorded on a fresh
    `PY_WHAT` whose `FAKE_INIT` wraps `t`, also taken off the roots; the `PY_WHAT` is
    pushed: `py_what_addop` on a stack top `t` that is not a `PY_WHAT` yet. The oper is
    allocated first, then `FAKE_INIT` (in `py_what_new`). -/
theorem wrapRecord (hi : Inv s []) (st : List Addr) (ms : List (List Addr)) (ps args : List Addr)
    (t : Addr) (hcount : ∀ a, (st ++ ms.flatten ++ ps ++ args ++ [t]).count a = s.roots.count a)
    (htw : s.typeOf t ≠ some .what) (op : PyOp) (hfit : operFits op args.length = true) :
    Inv { s with
      stack := st ++ [s.objs.length], metastack := ms, popstack := ps,
      opers := (s.opers.alloc ⟨op, args, s.offset, 0⟩).alloc ⟨.fakeInit, [t], s.offset, 0⟩,
      objs := s.objs.alloc
        (PyObj.fresh (.what [s.opers.length + 1, s.opers.length]) s.offset) } [] := by
  set s' : PMState := { s with
    stack := st ++ [s.objs.length], metastack := ms, popstack := ps,
    opers := (s.opers.alloc ⟨op, args, s.offset, 0⟩).alloc ⟨.fakeInit, [t], s.offset, 0⟩,
    objs := s.objs.alloc (PyObj.fresh (.what [s.opers.length + 1, s.opers.length]) s.offset) }
  have hmem : ∀ a, a ∈ st ++ ms.flatten ++ ps ++ args ++ [t] → a ∈ s.roots := fun a ha =>
    List.count_pos_iff.mp (hcount a ▸ List.count_pos_iff.mpr ha)
  have hget : ∀ x, s'.objs.get x = if x = s.objs.length then
      some (PyObj.fresh (.what [s.opers.length + 1, s.opers.length]) s.offset) else s.objs.get x :=
    fun x => Store.get_alloc ..
  have hopget : ∀ q, s'.opers.get q = if q = s.opers.length + 1 then some ⟨.fakeInit, [t], s.offset, 0⟩
      else if q = s.opers.length then some ⟨op, args, s.offset, 0⟩ else s.opers.get q := fun q => by
    simp only [s', Store.get_alloc, Store.length_alloc]
  have hty : ∀ x, x < s.objs.length → s'.typeOf x = s.typeOf x := fun x hx => by
    simp [typeOf, hget, Nat.ne_of_lt hx]
  have hsplit : ∀ x, x < s.objs.length → (s'.IsSplit x ↔ s.IsSplit x) := fun x hx => by
    simp [IsSplit, hty x hx]
  have hopArgs : ∀ q, q < s.opers.length → s'.operArgs q = s.operArgs q := fun q hq => by
    have h1 : q ≠ s.opers.length + 1 := by omega
    have h2 : q ≠ s.opers.length := by omega
    simp [operArgs, hopget, h1, h2]
  have hchild : ∀ x, ∀ y ∈ s.childrenNS x, y ∈ s'.childrenNS x := fun x y hy => by
    unfold childrenNS at hy ⊢
    cases hx : s.objs.get x with
    | none => simp [hx] at hy
    | some ox =>
      rw [hx] at hy
      rw [hget, if_neg (Nat.ne_of_lt (Store.lt_of_get hx)), hx]
      obtain hy | ⟨q, hq, hyq⟩ : y ∈ ox.val.objPtrs ∨ ∃ q ∈ ox.val.whatOps, y ∈ s.operArgs q := by
        simpa only [List.mem_append, List.mem_flatMap] using hy
      · exact List.mem_append_left _ hy
      · rw [← hopArgs q (hi.operLt_of_ptr hx (PyVal.mem_operPtrs_of_mem_whatOps hq))] at hyq
        exact List.mem_append_right _ (List.mem_flatMap.mpr ⟨q, hq, hyq⟩)
  have hnew : ∀ a ∈ args ++ [t], a ∈ s'.childrenNS s.objs.length := fun a ha => by
    have hn : s'.childrenNS s.objs.length = [t] ++ args := by
      simp [childrenNS, operArgs, s', Store.get_alloc, PyObj.fresh, PyVal.objPtrs, PyVal.whatOps]
    rw [hn, List.mem_append]; exact (List.mem_append.mp ha).symm
  have hroot : ∀ a ∈ st ++ ms.flatten ++ ps, a ∈ s'.roots := fun a ha => by
    simp only [s', roots, List.mem_append] at ha ⊢
    rcases ha with (h | h) | h
    exacts [.inl (.inl (.inl h)), .inl (.inr h), .inr h]
  have hnroot : s.objs.length ∈ s'.roots := by simp [s', roots]
  have hlt : ∀ a ∈ s.roots, a < s.objs.length := fun a ha => lt_of_live (hi.live_of_root ha)
  have hns : ∀ a ∈ st ++ ms.flatten ++ ps ++ args ++ [t], ¬ s'.IsSplit a := fun a ha =>
    (hsplit a (hlt a (hmem a ha))).not.mpr (hi.rootsNoSplit a (hmem a ha))
  refine
    { objCount := fun a => ?_, operCount := fun q => ?_, rooted := fun a o' ho' hns => ?_,
      operOwned := fun q r hq => ?_, whatShape := fun x o' hx hxw => ?_,
      rootsNoSplit := fun a ha => ?_, memoNoSplit := fun a ha => ?_,
      argsNoSplit := fun q r hq a ha => ?_, fixedNoSplit := fun b o' hb a ha => ?_,
      apart := fun b o' hb => ?_, paired := fun b o' xs hb hx => ?_,
      recurseLe := fun a o' ho' => ?_, memoKeys := hi.memoKeys }
  · have h0 := hi.objRefCount_length
    have h1 := hi.objCount a
    have h2 := hcount a
    simp only [objRefCount, roots, List.count_append] at h0 h1 h2 ⊢
    simp only [s', memoVals, Store.countIn_alloc, Store.held, Store.get_alloc, PyObj.fresh,
      PyVal.objPtrs_what, List.count_nil] at h1 ⊢
    by_cases ha : a = s.objs.length
    · subst ha; simp at h1 h2 ⊢; omega
    · simp [ha, Ne.symm ha] at h1 h2 ⊢; omega
  · have hc : s'.operRefCount q = s.operRefCount q + [s.opers.length + 1, s.opers.length].count q := by
      simp [operRefCount, s', PyObj.fresh]
    rw [hc, Store.held, hopget]
    split_ifs with hq1 hq2
    · subst hq1; simp [hi.operRefCount_of_le (Nat.le_succ _)]
    · subst hq2; simp [hi.operRefCount_length]
    · simpa [List.count_cons, Ne.symm hq1, Ne.symm hq2, Store.held] using hi.operCount q
  · rw [hget] at ho'
    split_ifs at ho' with han
    · exact Rooted.of_mem (List.mem_append_left _ (han ▸ hnroot))
    · refine Rooted.mono hchild (fun r hr => ?_)
        (hi.rooted a o' ho' ((hsplit a (Store.lt_of_get ho')).not.mp hns))
      have : r ∈ st ++ ms.flatten ++ ps ++ (args ++ [t]) := by
        rw [← List.append_assoc]
        exact List.count_pos_iff.mp ((hcount r).symm ▸ List.count_pos_iff.mpr (by simpa using hr))
      rcases List.mem_append.mp this with hr | hr
      · exact Rooted.of_mem (List.mem_append_left _ (hroot r hr))
      · exact ⟨_, List.mem_append_left _ hnroot, .step (hnew r hr) (.refl r)⟩
  · rw [hopget] at hq
    have hn : s'.objs.get s.objs.length =
        some (PyObj.fresh (.what [s.opers.length + 1, s.opers.length]) s.offset) := by
      rw [hget, if_pos rfl]
    split_ifs at hq with hq1 hq2
    · exact ⟨_, _, hn, by simp [PyObj.fresh, hq1]⟩
    · exact ⟨_, _, hn, by simp [PyObj.fresh, hq2]⟩
    · obtain ⟨w, o, hw, hp⟩ := hi.operOwned q r hq
      exact ⟨w, o, by rw [hget, if_neg (Nat.ne_of_lt (Store.lt_of_get hw))]; exact hw, hp⟩
  · rw [hget] at hx
    split_ifs at hx with hxn
    · cases hx
      have htl : t < s.objs.length := hlt t (hmem t (by simp))
      refine ⟨s.opers.length + 1, [s.opers.length], rfl,
        ⟨_, t, by rw [hopget, if_pos rfl], rfl, rfl, by rwa [hty t htl]⟩, fun p' hp' => ?_⟩
      rw [List.mem_singleton.mp hp']
      exact ⟨_, by rw [hopget, if_neg (by omega), if_pos rfl], hfit⟩
    · exact (hi.whatShape x o' hx hxw).congr
        (fun q r hq => ⟨r, by
          rw [hopget, if_neg (by have := Store.lt_of_get hq; omega),
            if_neg (by have := Store.lt_of_get hq; omega)]; exact hq, rfl, rfl⟩)
        fun q r hq x' hx' => hty x' (lt_of_live (hi.live_of_arg hq hx'))
  · by_cases han : a = s.objs.length
    · simp [han, IsSplit, typeOf, hget, PyObj.fresh, PyObj.type, PyVal.type]
    · simp only [s', roots, List.mem_append, List.mem_singleton, han, or_false] at ha
      exact hns a (List.mem_append_left _ (List.mem_append_left _ (by simpa only [List.mem_append] using ha)))
  · exact (hsplit a (lt_of_live (hi.live_of_memo ha))).not.mpr (hi.memoNoSplit a ha)
  · rw [hopget] at hq
    split_ifs at hq with hq1 hq2
    · cases hq; rw [List.mem_singleton.mp ha]; exact hns t (by simp)
    · cases hq; exact hns a (by simp [ha])
    · exact (hsplit a (lt_of_live (hi.live_of_arg hq ha))).not.mpr (hi.argsNoSplit q r hq a ha)
  · rw [hget] at hb
    split_ifs at hb
    · cases hb; simp [PyObj.fresh, PyVal.fixedPtrs] at ha
    · exact (hsplit a (lt_of_live (hi.live_of_ptr hb (PyVal.mem_objPtrs_of_mem_fixedPtrs ha)))).not.mpr
        (hi.fixedNoSplit b o' hb a ha)
  · rw [hget] at hb
    split_ifs at hb
    · cases hb; simp [PyObj.fresh, PyVal.objPtrs, SplitsApart]
    · exact (hi.apart b o' hb).congr fun x hx => hsplit x (lt_of_live (hi.live_of_ptr hb hx))
  · rw [hget] at hb
    split_ifs at hb
    · cases hb; simp [PyObj.fresh] at hx
    · exact (hi.paired b o' xs hb hx).congr fun x hm =>
        hsplit x (lt_of_live (hi.live_of_ptr hb (by simp [hx, hm])))
  · rw [hget] at ho'
    split_ifs at ho'
    · cases ho'; simp [PyObj.fresh]
    · exact hi.recurseLe a o' ho'

/-- A fresh object that points to nothing, pushed. -/
theorem pushFresh (hi : Inv s h) (v : PyVal) (hv : v.objPtrs = []) (hv' : v.operPtrs = [])
    (hw : v.type ≠ .what) (hs : v.type ≠ .split) : Inv ((s.newObj v).1.push s.objs.length) h :=
  (hi.newLeaf v hv hv' hw).pushHeld (by simp [IsSplit, typeOf_newObj, hs])

end Inv

end PickleDec
